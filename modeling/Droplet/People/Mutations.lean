import Droplet.People.Guard

/-! The writes of the user table that the routes and the directory sync make: role changes, removals,
disables and re-enables, as requests that pass their rails on a row read early and commit later. -/

namespace Droplet.People

open RoleMutationRefusedError

variable {Id : Type} [DecidableEq Id]

/-- The guarded mutations. A removal is a schedule that the nightly job completes, or a hand-over, which
claims the row, moves the files and revokes the person at the end. -/
inductive Mutation where
  | changeRole (requestedRole : Role) (rankMessage : Option String)
  | scheduleDeletion
  | claimHandover (prior : DeletionStatus)
  | revokeHandover
  | disable
  deriving DecidableEq

/-- A request past its rails: who asks, and the row as it was read before the transaction. -/
structure Request (Id : Type) where
  actor : GuardActor Id
  target : GuardTarget Id
  mutation : Mutation
  deriving DecidableEq

/-- The rails before the transaction, on the row that was read. -/
def Request.rails (request : Request Id) : Checked Unit :=
  match request.mutation with
  | .changeRole requestedRole rankMessage =>
    assertRoleChangeAllowed request.actor request.target requestedRole rankMessage
  | .scheduleDeletion | .claimHandover _ | .revokeHandover =>
    assertRemovalAllowed request.actor request.target
  | .disable => assertDisableAllowed request.actor request.target

/-- The invariants inside the transaction, on the row that is read again there. -/
def Request.invariantsTx (request : Request Id) (directory : Directory Id) (fresh : GuardTxTarget Id) :
    Checked Unit :=
  match request.mutation with
  | .changeRole requestedRole _ => assertRoleChangeInvariantsTx directory fresh requestedRole
  | .scheduleDeletion | .claimHandover _ | .revokeHandover => assertRemovalInvariantsTx directory fresh
  | .disable => assertDisableInvariantsTx directory fresh

/-- What the `where` of the write asks for, besides the role that was read. -/
def Mutation.pinned (mutation : Mutation) (account : Account) : Bool :=
  match mutation with
  | .changeRole _ _ | .disable => true
  | .scheduleDeletion => account.deletionStatus = .none
  | .claimHandover prior =>
    (prior = .none || prior = .pending) && account.deletionStatus = prior
  | .revokeHandover => account.deletionStatus = .handingOver

def Mutation.apply (mutation : Mutation) (account : Account) : Account :=
  match mutation with
  | .changeRole requestedRole _ => { account with role := requestedRole }
  | .scheduleDeletion => { account with directoryStatus := .deactivated, deletionStatus := .pending }
  | .claimHandover _ => { account with deletionStatus := .handingOver }
  | .revokeHandover => { account with directoryStatus := .deactivated, deletionStatus := .purging }
  | .disable => { account with directoryStatus := .deactivated }

def Request.transact (request : Request Id) (directory : Directory Id) : Checked (Directory Id) :=
  match directory.find request.target.id with
  | none => .error concurrentMutation
  | some account => do
      request.invariantsTx directory ⟨⟨request.target.id, account.role⟩, account.directoryStatus⟩
      if request.mutation.pinned account then
        .ok (directory.update request.target.id request.mutation.apply)
      else .error concurrentMutation

/-- One row of a role's members: its rails and its write are both in the transaction. -/
def changeMember (actor : GuardActor Id) (requestedRole : Role) (directory : Directory Id) (id : Id) :
    Checked (Directory Id) :=
  match directory.find id with
  | none => .error concurrentMutation
  | some account => do
      assertRoleChangeAllowed actor ⟨id, account.role⟩ requestedRole none
      (⟨actor, ⟨id, account.role⟩, .changeRole requestedRole none⟩ : Request Id).transact directory

/-- The members of a role move to its starting point together, or none does. -/
def changeMembers (actor : GuardActor Id) (requestedRole : Role) (directory : Directory Id)
    (members : List Id) : Checked (Directory Id) :=
  members.foldlM (changeMember actor requestedRole) directory

/-- A write without rails: its `where`, and what it sets. -/
def Directory.updateWhere (directory : Directory Id) (id : Id) (test : Account → Bool)
    (change : Account → Account) : Directory Id :=
  directory.update id (fun account => if test account then change account else account)

structure State (Id : Type) where
  directory : Directory Id
  /-- Requests past their rails whose transactions are not over. -/
  requests : List (Request Id)
  /-- The role of the actor who gave a person the role they hold; `none` where it was there before. -/
  giver : Id → Option Role

inductive Event (Id : Type) where
  /-- A request reads its row and runs its rails. -/
  | submit (actor : GuardActor Id) (id : Id) (mutation : Mutation)
  /-- Its transaction, at any later time. -/
  | transact (request : Request Id)
  /-- It loses a conflict, or its process ends. -/
  | abandon (request : Request Id)
  | changeMembers (actor : GuardActor Id) (requestedRole : Role) (members : List Id)
  /-- `POST /auth/users/:username/enable`: it restores access, and has no rails. -/
  | enable (id : Id)
  /-- The directory sync re-enables one who is no operator, on the row as it read it. -/
  | reactivate (id : Id) (role : Role)
  | cancelDeletion (id : Id)
  /-- A hand-over's claim is given back. -/
  | releaseHandover (id : Id) (restored : DeletionStatus)
  /-- The nightly job claims a removal, and completes it. -/
  | claimPurge (id : Id)
  | completeDeletion (id : Id)

def Mutation.givenRole : Mutation → Option Role
  | .changeRole requestedRole _ => some requestedRole
  | _ => none

def State.give (state : State Id) (actor : GuardActor Id) (ids : List Id) : Id → Option Role :=
  fun id => if id ∈ ids then actor.role else state.giver id

def step (state : State Id) : Event Id → State Id
  | .submit actor id mutation =>
    match state.directory.find id with
    | none => state
    | some account =>
      let request : Request Id := ⟨actor, ⟨id, account.role⟩, mutation⟩
      match request.rails with
      | .ok _ => { state with requests := request :: state.requests }
      | .error _ => state
  | .transact request =>
    if request ∈ state.requests then
      let rest := state.requests.erase request
      match request.transact state.directory with
      | .ok directory =>
        { directory, requests := rest
          giver := if request.mutation.givenRole.isSome then
            state.give request.actor [request.target.id] else state.giver }
      | .error _ => { state with requests := rest }
    else state
  | .abandon request => { state with requests := state.requests.erase request }
  | .changeMembers actor requestedRole members =>
    match changeMembers actor requestedRole state.directory members with
    | .ok directory => { state with directory, giver := state.give actor members }
    | .error _ => state
  | .enable id =>
    { state with
      directory := state.directory.updateWhere id (fun account => account.deletionStatus = .none)
        (fun account => { account with directoryStatus := .active }) }
  | .reactivate id role =>
    { state with
      directory := state.directory.updateWhere id
        (fun account => !role.isAdminTier && account.role = role && account.deletionStatus = .none)
        (fun account => { account with directoryStatus := .active }) }
  | .cancelDeletion id =>
    { state with
      directory := state.directory.updateWhere id (fun account => account.deletionStatus = .pending)
        (fun account => { account with deletionStatus := .none }) }
  | .releaseHandover id restored =>
    { state with
      directory := state.directory.updateWhere id
        (fun account => account.deletionStatus = .handingOver && (restored = .none || restored = .pending))
        (fun account => { account with deletionStatus := restored }) }
  | .claimPurge id =>
    { state with
      directory := state.directory.updateWhere id
        (fun account => account.directoryStatus = .deactivated &&
          (account.deletionStatus = .pending || account.deletionStatus = .purging))
        (fun account => { account with deletionStatus := .purging }) }
  | .completeDeletion id =>
    match state.directory.find id with
    | none => state
    | some account =>
      if account.directoryStatus = .deactivated ∧ account.deletionStatus = .purging then
        { state with directory := state.directory.delete id }
      else state

def run (state : State Id) (events : List (Event Id)) : State Id := events.foldl step state

/-- No request is under way, nobody has given a role yet, and no owner is being removed. -/
structure Start (state : State Id) : Prop where
  quiet : state.requests = []
  fresh : ∀ id, state.giver id = none
  kept : ∀ id account, state.directory.find id = some account → account.role = .owner →
    account.deletionStatus = .none

end Droplet.People
