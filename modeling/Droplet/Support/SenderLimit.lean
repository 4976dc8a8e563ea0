import Droplet.Lib.Sql
import Droplet.Lib.Stepping

/-! How many messages of one sender a desk takes in (`services/support/email-intake.service.ts`). -/

namespace Droplet.Support.SenderLimit

open Sql Stepping

/-- What `classifyInbound` and `noReplyAddress` hold against a message. -/
inductive AutomaticMail where
  | AUTO_SUBMITTED
  | PRECEDENCE_BULK
  | AUTO_REPLY_HEADER
  | BOUNCE
  | OWN_ADDRESS
  | OWN_MESSAGE
  deriving DecidableEq

inductive PmEmailIntakeReason where
  | automatic (mail : AutomaticMail)
  | RATE_LIMITED
  | PROCESSING_ERROR
  deriving DecidableEq

/-- With the reason. -/
inductive PmEmailIntakeStatus where
  | PENDING
  | DONE
  | IGNORED (reason : PmEmailIntakeReason)
  | FAILED (reason : PmEmailIntakeReason)
  deriving DecidableEq

structure EmailMessage where
  accountId : String
  fromAddr : String
  receivedAt : ℤ
  deskIntakeStatus : PmEmailIntakeStatus
  deriving DecidableEq

/-- What an intake meets. -/
structure Meets where
  /-- A channel of the mailbox is on and takes the message. -/
  channel : Bool
  verdict : Option AutomaticMail
  /-- Something throws in the transaction, such as a pattern that the database refuses. -/
  throws : Bool

/-- A message is known by its place in the table. -/
inductive Event where
  /-- The indexer commits a message. -/
  | arrives (accountId fromAddr : String) (receivedAt : ℤ)
  | intakeEmailMessage (place : ℕ) (meets : Meets)

def MAX_PER_SENDER_PER_HOUR : ℕ := 20

def HOUR_MS : ℤ := 3600000

def EmailMessage.finished (message : EmailMessage) : Bool :=
  match message.deskIntakeStatus with
  | .DONE | .IGNORED _ => true
  | .PENDING | .FAILED _ => false

def EmailMessage.waits (message : EmailMessage) : Bool :=
  decide (message.deskIntakeStatus = .PENDING ∨ message.deskIntakeStatus = .FAILED .PROCESSING_ERROR)

variable (folding : Folding) (messages : List EmailMessage)

/-- `equals` without regard to case is `ILIKE`. The message itself is marked as failed while it is counted. -/
def recent (message : EmailMessage) : ℕ :=
  messages.countP fun other => other.accountId == message.accountId &&
    ilike folding message.fromAddr.toList other.fromAddr.toList &&
      decide (message.receivedAt - HOUR_MS ≤ other.receivedAt ∧ other.receivedAt ≤ message.receivedAt) && other.finished

def applyInbound (message : EmailMessage) (verdict : Option AutomaticMail) : PmEmailIntakeStatus :=
  match verdict with
  | some mail => .IGNORED (.automatic mail)
  | none => if MAX_PER_SENDER_PER_HOUR ≤ recent folding messages message then .IGNORED .RATE_LIMITED else .DONE

def ends (message : EmailMessage) (meets : Meets) : PmEmailIntakeStatus :=
  if meets.throws then .FAILED .PROCESSING_ERROR else applyInbound folding messages message meets.verdict

/-- The lock on a sender's key makes the intakes of its messages follow each other. -/
def step : Event → List EmailMessage
  | .arrives accountId fromAddr receivedAt => messages ++ [⟨accountId, fromAddr, receivedAt, .PENDING⟩]
  | .intakeEmailMessage place meets =>
    match messages[place]? with
    | none => messages
    | some message =>
      if message.waits && meets.channel then
        messages.set place { message with deskIntakeStatus := ends folding messages message meets }
      else messages

/-- To one mailbox from one sender, in the closed hour from `start`. -/
def EmailMessage.within (accountId sender : String) (start : ℤ) (message : EmailMessage) : Bool :=
  decide (message.accountId = accountId ∧
    message.fromAddr.toList.map folding.fold = sender.toList.map folding.fold ∧
      start ≤ message.receivedAt ∧ message.receivedAt ≤ start + HOUR_MS)

def EmailMessage.taken (accountId sender : String) (start : ℤ) (message : EmailMessage) : Bool :=
  message.within folding accountId sender start && decide (message.deskIntakeStatus = .DONE)

/-- In no hour more messages of a sender are taken in than the limit. -/
def Limited : Prop :=
  ∀ accountId sender start, messages.countP (EmailMessage.taken folding accountId sender start) ≤ MAX_PER_SENDER_PER_HOUR

/-- A message that is refused for the limit has as many others of its sender in the hour that ends with it, all
finished while it is not. -/
def RefusesJustly : Event → Prop
  | .arrives .. => True
  | .intakeEmailMessage place meets => ∀ message ∈ messages[place]?, message.waits = true →
    ends folding messages message meets = .IGNORED .RATE_LIMITED →
      message.finished = false ∧ MAX_PER_SENDER_PER_HOUR ≤ messages.countP fun other => other.finished &&
        other.within folding message.accountId message.fromAddr (message.receivedAt - HOUR_MS)

/-- The sender's address is no pattern, and of its messages none that was received in the hour after this one is
taken in yet. -/
def inTurn : Event → Bool
  | .arrives .. => true
  | .intakeEmailMessage place _ => messages[place]?.all fun message =>
    message.fromAddr.toList.all (!special ·) && messages.all fun other =>
      !other.taken folding message.accountId message.fromAddr message.receivedAt ||
        other.receivedAt == message.receivedAt

variable {folding messages} {message : EmailMessage} {place : ℕ} {meets : Meets}

theorem inTurn_iff : inTurn folding messages (.intakeEmailMessage place meets) = true ↔
    ∀ message ∈ messages[place]?, (∀ c ∈ message.fromAddr.toList, special c = false) ∧
      ∀ other ∈ messages, other.taken folding message.accountId message.fromAddr message.receivedAt = true →
        other.receivedAt = message.receivedAt := by
  simp [inTurn, Option.all_eq_true, or_iff_not_imp_left]

theorem unfinished (waits : message.waits = true) : message.finished = false := by
  rcases of_decide_eq_true waits with is | is <;> simp [EmailMessage.finished, is]

/-- While none of the sender's later messages is taken in, the hour before a message holds all of an hour that
it is in. -/
theorem taken_le_recent {accountId sender : String} {start : ℤ} (found : messages[place]? = some message)
    (turn : inTurn folding messages (.intakeEmailMessage place meets) = true)
    (within : message.within folding accountId sender start = true) :
    messages.countP (EmailMessage.taken folding accountId sender start) ≤ recent folding messages message := by
  obtain ⟨plain, last⟩ := inTurn_iff.mp turn message found
  refine List.countP_mono_left ?_
  intro other there taken
  have later := last other there
  simp only [EmailMessage.taken, EmailMessage.within, Bool.and_eq_true, decide_eq_true_eq] at within taken later
  obtain ⟨mailbox, same, starts, stops⟩ := within
  obtain ⟨⟨mailbox', same', starts', stops'⟩, done⟩ := taken
  have finished : other.finished = true := by simp [EmailMessage.finished, done]
  have alike := (ilike_plain folding message.fromAddr.toList other.fromAddr.toList plain).mpr (same'.trans same.symm)
  have before : other.receivedAt ≤ message.receivedAt := by
    by_contra after
    have tie := later ⟨⟨mailbox'.trans mailbox.symm, same'.trans same.symm, by omega, by omega⟩, done⟩
    omega
  simp [alike, finished, mailbox, mailbox', before]
  omega

theorem ends_done (done : ends folding messages message meets = .DONE) :
    recent folding messages message < MAX_PER_SENDER_PER_HOUR := by
  unfold ends applyInbound at done
  split at done
  · cases done
  · split at done
    · cases done
    · split at done
      · cases done
      · omega

theorem ends_limited (limited : ends folding messages message meets = .IGNORED .RATE_LIMITED) :
    MAX_PER_SENDER_PER_HOUR ≤ recent folding messages message := by
  unfold ends applyInbound at limited
  split at limited
  · cases limited
  · split at limited
    · cases limited
    · split at limited
      · assumption
      · cases limited

theorem Limited.step {event : Event} (limited : Limited folding messages)
    (turn : inTurn folding messages event = true) : Limited folding (step folding messages event) := by
  intro accountId sender start
  have kept := limited accountId sender start
  cases event with
  | arrives mailbox fromAddr receivedAt => simpa [SenderLimit.step, EmailMessage.taken] using kept
  | intakeEmailMessage place meets =>
    unfold SenderLimit.step
    dsimp only
    split
    · exact kept
    · rename_i message found
      split
      · obtain ⟨inside, -⟩ := List.getElem?_eq_some_iff.mp found
        have more {p : EmailMessage → Bool} {new : EmailMessage} :
            (messages.set place new).countP p ≤ messages.countP p + if p new = true then 1 else 0 := by
          rw [List.countP_set inside]
          omega
        refine more.trans ?_
        split
        · rename_i takes
          simp only [EmailMessage.taken, Bool.and_eq_true, decide_eq_true_eq] at takes
          exact (taken_le_recent found turn takes.1).trans_lt (ends_done takes.2)
        · exact kept
      · exact kept

theorem refusesJustly {event : Event} (turn : inTurn folding messages event = true) :
    RefusesJustly folding messages event := by
  cases event with
  | arrives => trivial
  | intakeEmailMessage place meets =>
    intro message found waits limited
    refine ⟨unfinished waits, (ends_limited limited).trans (List.countP_mono_left ?_)⟩
    intro other member counted
    simp only [Bool.and_eq_true, beq_iff_eq, decide_eq_true_eq] at counted
    obtain ⟨⟨⟨mailbox, alike⟩, starts, stops⟩, finished⟩ := counted
    have same := (ilike_plain folding _ _ (inTurn_iff.mp turn message found).1).mp alike
    simp [EmailMessage.within, mailbox, same, starts, stops, finished]

/-- While a sender's messages are taken in in the order in which they were received, and no address is a pattern,
no hour has more of them than the limit, and the limit refuses none that is not beyond it. -/
theorem sender_limit_holds (folding : Folding) (events : List Event)
    (turns : Along (step folding) (fun messages event => inTurn folding messages event = true) [] events) :
    Limited folding (run (step folding) [] events) ∧ Along (step folding) (RefusesJustly folding) [] events := by
  refine ⟨turns.keeps (fun _ _ limited turn => limited.step turn) ?_, turns.imp fun _ _ => refusesJustly⟩
  exact fun _ _ _ => Nat.zero_le _

/-- What a folding does to small letters. -/
def asWritten : Folding := ⟨fun c => c, fun _ _ => rfl⟩

def mailFrom (sender : String) (place : ℕ) (receivedAt : ℤ) : List Event :=
  [.arrives "inbox" sender receivedAt, .intakeEmailMessage place ⟨true, none, false⟩]

/-- As many messages as an hour may have. -/
def burst : List Event := (List.range 20).flatMap fun place => mailFrom "ann@x" place (1000 + place)

theorem one_more_is_refused :
    let messages := run (step asWritten) [] (burst ++ mailFrom "ann@x" 20 1020)
    messages.countP (EmailMessage.taken asWritten "inbox" "ann@x" 1000) = 20 ∧
      messages.getLast? = some ⟨"inbox", "ann@x", 1020, .IGNORED .RATE_LIMITED⟩ ∧ Limited asWritten messages :=
  ⟨by decide +kernel, by decide +kernel, (sender_limit_holds asWritten (burst ++ mailFrom "ann@x" 20 1020)
    (by decide +kernel)).1⟩

/-- One that was received before the burst and is processed after it is the twenty-first in the hour that begins
with it; and another sender whose address is a pattern is refused with its first message. -/
theorem earlier_message_is_taken :
    ¬ Limited asWritten (run (step asWritten) [] (burst ++ mailFrom "ann@x" 20 0)) ∧
      ¬ RefusesJustly asWritten (run (step asWritten) [] (burst ++ [.arrives "inbox" "a_n@x" 2000]))
        (.intakeEmailMessage 20 ⟨true, none, false⟩) := by
  constructor
  · intro limited
    exact absurd (limited "inbox" "ann@x" 0) (by decide +kernel)
  · intro justly
    have twenty := justly ⟨"inbox", "a_n@x", 2000, .PENDING⟩ (by decide +kernel) (by decide) (by decide +kernel)
    exact absurd twenty.2 (by decide +kernel)

end Droplet.Support.SenderLimit
