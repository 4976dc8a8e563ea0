import Droplet.Confirm.Binding
import Droplet.Lib.Histories
import Droplet.Lib.Stepping

/-! The approvals a chat waits for (`services/chat-approval.service.ts`): challenges in the order they
came, each with the one user who may approve it and the token it holds back until then. -/

namespace Droplet.Confirm

def DEFAULT_MAX_PENDING_APPROVALS : ℕ := 500

inductive ChatApprovalStatus where
  | pending
  | approved
  | denied
  | expired
  | spent
  deriving DecidableEq

structure RegisterChallengeInput where
  tool : String
  args : Args
  token : String
  expiresAt : ℤ
  userId : String
  threadId : Option String

structure ApprovalEntry (Summary : Type) where
  challengeId : String
  tool : String
  bindingHash : String
  token : String
  expiresAt : ℤ
  userId : String
  threadId : Option String
  args : Args
  summary : Summary
  status : ChatApprovalStatus

/-- What is shown of a challenge; the token is not. -/
structure ChatApprovalChallenge (Summary : Type) where
  challengeId : String
  tool : String
  status : ChatApprovalStatus
  expiresAt : ℤ
  summary : Summary

inductive ApprovalFailureReason where
  | unknown_challenge
  | already_resolved
  | expired
  | not_owner

structure ApprovedCall where
  challengeId : String
  tool : String
  args : Args
  token : String

/-- The options of a store, with the hash it binds by and the summary it shows. -/
structure ChatApprovalStoreOptions (Summary : Type) where
  sha256 : List Char → String
  summarizeToolArguments : String → Args → Summary
  maxEntries : ℕ := DEFAULT_MAX_PENDING_APPROVALS

variable {Summary : Type} (opts : ChatApprovalStoreOptions Summary)

abbrev Entries (Summary : Type) := List (ApprovalEntry Summary)

def evictOldest (maxEntries : ℕ) : Entries Summary → Entries Summary
  | [] => []
  | oldest :: rest =>
    if maxEntries ≤ (oldest :: rest).length then evictOldest maxEntries rest else oldest :: rest

def settle (now : ℤ) (entry : ApprovalEntry Summary) : ApprovalEntry Summary :=
  if (entry.status = .pending ∨ entry.status = .approved) ∧ entry.expiresAt ≤ now then
    { entry with status := .expired }
  else entry

def publicView (entry : ApprovalEntry Summary) : ChatApprovalChallenge Summary where
  challengeId := entry.challengeId
  tool := entry.tool
  status := entry.status
  expiresAt := entry.expiresAt
  summary := entry.summary

/-- A key that is there keeps its place. -/
def setEntry (entries : Entries Summary) (entry : ApprovalEntry Summary) : Entries Summary :=
  if entries.any (fun held => held.challengeId = entry.challengeId) then
    entries.map (fun held => if held.challengeId = entry.challengeId then entry else held)
  else entries ++ [entry]

def getEntry (entries : Entries Summary) (challengeId : String) : Option (ApprovalEntry Summary) :=
  entries.find? (fun held => held.challengeId = challengeId)

def entryOf (input : RegisterChallengeInput) (challengeId : String) : ApprovalEntry Summary where
  challengeId := challengeId
  tool := input.tool
  bindingHash := confirmationBindingHash opts.sha256 input.tool input.args
  token := input.token
  expiresAt := input.expiresAt
  userId := input.userId
  threadId := input.threadId
  args := input.args
  summary := opts.summarizeToolArguments input.tool input.args
  status := .pending

/-- `challengeId` is what `randomBytes` gives. -/
def register (entries : Entries Summary) (input : RegisterChallengeInput) (challengeId : String) :
    Entries Summary × ChatApprovalChallenge Summary :=
  (setEntry (evictOldest opts.maxEntries entries) (entryOf opts input challengeId),
    publicView (entryOf opts input challengeId))

def get (entries : Entries Summary) (challengeId : String) (now : ℤ) :
    Entries Summary × Option (ChatApprovalChallenge Summary) :=
  match getEntry entries challengeId with
  | none => (entries, none)
  | some entry => (setEntry entries (settle now entry), some (publicView (settle now entry)))

/-- What `approve` and `deny` share: the owner's pending challenge gets the status. -/
def resolve (status : ChatApprovalStatus) (entries : Entries Summary) (challengeId userId : String)
    (now : ℤ) : Entries Summary × Except ApprovalFailureReason (ApprovalEntry Summary) :=
  match getEntry entries challengeId with
  | none => (entries, .error .unknown_challenge)
  | some entry =>
    if entry.userId ≠ userId then (entries, .error .not_owner)
    else
      let settled := settle now entry
      if settled.status = .expired then (setEntry entries settled, .error .expired)
      else if settled.status ≠ .pending then (setEntry entries settled, .error .already_resolved)
      else (setEntry entries { settled with status := status }, .ok settled)

/-- The token, the tool and when both expire. -/
def approve (entries : Entries Summary) (challengeId userId : String) (now : ℤ) :
    Entries Summary × Except ApprovalFailureReason (String × String × ℤ) :=
  (resolve .approved entries challengeId userId now).map id
    (Except.map fun entry => (entry.token, entry.tool, entry.expiresAt))

def deny (entries : Entries Summary) (challengeId userId : String) (now : ℤ) :
    Entries Summary × Except ApprovalFailureReason String :=
  (resolve .denied entries challengeId userId now).map id (Except.map ApprovalEntry.tool)

/-- The first approved entry that matches and passes the check is spent; those that match are settled
up to there. -/
def takeFirst (isMatch check : ApprovalEntry Summary → Bool) (now : ℤ) :
    Entries Summary → Entries Summary × Option (ApprovalEntry Summary)
  | [] => ([], none)
  | entry :: rest =>
    if isMatch entry then
      if (settle now entry).status = .approved ∧ check (settle now entry) then
        ({ settle now entry with status := .spent } :: rest, some (settle now entry))
      else (settle now entry :: (takeFirst isMatch check now rest).1,
        (takeFirst isMatch check now rest).2)
    else (entry :: (takeFirst isMatch check now rest).1, (takeFirst isMatch check now rest).2)

/-- The grant of a user for one call; the source returns its token. -/
def claimGrant (entries : Entries Summary) (tool : String) (args : Args) (userId : String) (now : ℤ) :
    Entries Summary × Option (ApprovalEntry Summary) :=
  takeFirst (fun entry => entry.userId = userId ∧
    entry.bindingHash = confirmationBindingHash opts.sha256 tool args) (fun _ => true) now entries

/-- The next grant of a user in a conversation; the source returns `approvedCall` of it. -/
def takeNextApproved (entries : Entries Summary) (userId : String) (threadId : Option String)
    (now : ℤ) : Entries Summary × Option (ApprovalEntry Summary) :=
  takeFirst (fun entry => entry.userId = userId ∧ entry.threadId = threadId)
    (fun entry => confirmationBindingHash opts.sha256 entry.tool entry.args = entry.bindingHash)
    now entries

def approvedCall (entry : ApprovalEntry Summary) : ApprovedCall :=
  ⟨entry.challengeId, entry.tool, entry.args, entry.token⟩

inductive ChatCall where
  | register (input : RegisterChallengeInput) (challengeId : String)
  | get (challengeId : String) (now : ℤ)
  | approve (challengeId userId : String) (now : ℤ)
  | deny (challengeId userId : String) (now : ℤ)
  | claimGrant (tool : String) (args : Args) (userId : String) (now : ℤ)
  | takeNextApproved (userId : String) (threadId : Option String) (now : ℤ)

inductive ChatOutcome (Summary : Type) where
  | registered (view : ChatApprovalChallenge Summary)
  | shown (view : Option (ChatApprovalChallenge Summary))
  | approval (result : Except ApprovalFailureReason (String × String × ℤ))
  | denial (result : Except ApprovalFailureReason String)
  | token (token : Option String)
  | call (call : Option ApprovedCall)

/-- What a call leaves, what it returns, and the entry whose token it released. -/
def perform (entries : Entries Summary) :
    ChatCall → Entries Summary × ChatOutcome Summary × Option (ApprovalEntry Summary)
  | .register input challengeId =>
    ((register opts entries input challengeId).1,
      .registered (register opts entries input challengeId).2, none)
  | .get challengeId now =>
    ((get entries challengeId now).1, .shown (get entries challengeId now).2, none)
  | .approve challengeId userId now =>
    ((approve entries challengeId userId now).1,
      .approval (approve entries challengeId userId now).2, none)
  | .deny challengeId userId now =>
    ((deny entries challengeId userId now).1, .denial (deny entries challengeId userId now).2, none)
  | .claimGrant tool args userId now =>
    ((claimGrant opts entries tool args userId now).1,
      .token ((claimGrant opts entries tool args userId now).2.map ApprovalEntry.token),
      (claimGrant opts entries tool args userId now).2)
  | .takeNextApproved userId threadId now =>
    ((takeNextApproved opts entries userId threadId now).1,
      .call ((takeNextApproved opts entries userId threadId now).2.map approvedCall),
      (takeNextApproved opts entries userId threadId now).2)

/-- One call that was made: what it found, what it returned, and whose token it released. -/
structure Happened (Summary : Type) where
  found : Entries Summary
  call : ChatCall
  outcome : ChatOutcome Summary
  taken : Option (ApprovalEntry Summary)

/-- The entries a store holds, and the calls it has had. -/
structure ChatStore (Summary : Type) where
  entries : Entries Summary
  log : List (Happened Summary)

def ChatStore.step (store : ChatStore Summary) (call : ChatCall) : ChatStore Summary where
  entries := (perform opts store.entries call).1
  log := store.log ++ [⟨store.entries, call, (perform opts store.entries call).2.1,
    (perform opts store.entries call).2.2⟩]

def ChatStore.after (calls : List ChatCall) : ChatStore Summary :=
  Stepping.run (ChatStore.step opts) ⟨[], []⟩ calls

end Droplet.Confirm
