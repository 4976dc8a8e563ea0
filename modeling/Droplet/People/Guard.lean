import Mathlib

/-! The rails of every change to a person (`services/role-mutation-guard.service.ts`): those that are
checked on a row read before the transaction, and those that are checked inside it. -/

namespace Droplet.People

inductive Role where
  | service
  | guest
  | family
  | admin
  | owner
  deriving DecidableEq

/-- `ROLE_RANK` -/
def Role.rank : Role → ℤ
  | .service => -1
  | .guest => 0
  | .family => 1
  | .admin => 2
  | .owner => 3

/-- `ADMIN_TIER_ROLES` -/
def Role.isAdminTier : Role → Bool
  | .owner | .admin => true
  | _ => false

/-- `ASSIGNABLE_ROLES` -/
def Role.isAssignable : Role → Bool
  | .admin | .family | .guest => true
  | _ => false

inductive DirectoryStatus where
  | active
  | deactivated
  deriving DecidableEq

inductive DeletionStatus where
  | none
  | pending
  | handingOver
  | purging
  deriving DecidableEq

inductive RoleMutationRefusalCode where
  | ownerImmutable
  | selfActionNotAllowed
  | roleRankExceeded
  | roleNotAssignable
  | lastOwnerInvariant
  | lastOperatorInvariant
  | concurrentMutation
  | deletionPending

structure RoleMutationRefusedError where
  status : ℕ
  code : RoleMutationRefusalCode
  message : String

namespace RoleMutationRefusedError

def ownerImmutable : RoleMutationRefusedError :=
  ⟨403, .ownerImmutable, "The owner has full control and can't be changed here."⟩

def selfAction : RoleMutationRefusedError :=
  ⟨409, .selfActionNotAllowed, "Cannot modify your own role, scope, or account"⟩

def rankExceeded (message : String) : RoleMutationRefusedError := ⟨403, .roleRankExceeded, message⟩

def roleNotAssignable : RoleMutationRefusedError :=
  ⟨403, .roleNotAssignable, "This role can't be assigned to a person."⟩

def lastOwner : RoleMutationRefusedError :=
  ⟨409, .lastOwnerInvariant, "Cannot remove the only owner. Promote another user to owner first."⟩

def lastOperator : RoleMutationRefusedError :=
  ⟨409, .lastOperatorInvariant,
    "This is the last person who can manage access — give someone else an admin role first."⟩

def concurrentMutation : RoleMutationRefusedError :=
  ⟨409, .concurrentMutation, "Someone else changed this person at the same time. Try again."⟩

end RoleMutationRefusedError

open RoleMutationRefusedError

abbrev Checked := Except RoleMutationRefusedError

def refuse (condition : Prop) [Decidable condition] (error : RoleMutationRefusedError) : Checked Unit :=
  if condition then .error error else .ok ()

@[simp] theorem refuse_ok_iff (condition : Prop) [Decidable condition]
    (error : RoleMutationRefusedError) (done : Unit) : refuse condition error = .ok done ↔ ¬ condition := by
  unfold refuse
  split <;> simp_all

variable {Id : Type} [DecidableEq Id]

structure Account where
  role : Role
  directoryStatus : DirectoryStatus
  deletionStatus : DeletionStatus
  deriving DecidableEq

/-- One who can manage access, and is not disabled. -/
def Account.operates (account : Account) : Bool :=
  account.role.isAdminTier && account.directoryStatus = .active

/-- The user table: one row for an id. -/
structure Directory (Id : Type) where
  rows : List (Id × Account)
  distinct : (rows.map Prod.fst).Nodup

namespace Directory

def find (directory : Directory Id) (id : Id) : Option Account :=
  (directory.rows.find? (fun row => row.1 = id)).map Prod.snd

def update (directory : Directory Id) (id : Id) (change : Account → Account) : Directory Id where
  rows := directory.rows.map (fun row => if row.1 = id then (row.1, change row.2) else row)
  distinct := by
    have same : (directory.rows.map (fun row => if row.1 = id then (row.1, change row.2) else row)).map
        Prod.fst = directory.rows.map Prod.fst := by
      rw [List.map_map]
      apply List.map_congr_left
      intro row _
      simp only [Function.comp_apply]
      split <;> rfl
    rw [same]
    exact directory.distinct

def delete (directory : Directory Id) (id : Id) : Directory Id where
  rows := directory.rows.filter (fun row => row.1 ≠ id)
  distinct := directory.distinct.sublist (List.filter_sublist.map _)

/-- `tx.user.count` -/
def count (directory : Directory Id) (test : Id → Account → Bool) : ℕ :=
  (directory.rows.filter (fun row => test row.1 row.2)).length

end Directory

/-- The claims of a session; either may be missing. -/
structure GuardActor (Id : Type) where
  id : Option Id
  role : Option Role
  deriving DecidableEq

structure GuardTarget (Id : Type) where
  id : Id
  role : Role
  deriving DecidableEq

structure GuardTxTarget (Id : Type) extends GuardTarget Id where
  directoryStatus : DirectoryStatus

def assertNotSelf (actorId : Option Id) (targetId : Id) : Checked Unit :=
  refuse (actorId = some targetId) selfAction

def assertTargetNotOwner (targetRole : Role) : Checked Unit :=
  refuse (targetRole = .owner) ownerImmutable

def assertRankCap (actorRole : Option Role) (requestedRole : Role) (message : String) : Checked Unit :=
  match actorRole with
  | none => .error (rankExceeded message)
  | some actorRole => refuse (actorRole.rank < requestedRole.rank) (rankExceeded message)

def assertRoleAssignable (requestedRole : Role) : Checked Unit :=
  refuse (requestedRole.isAssignable = false) roleNotAssignable

def DEFAULT_RANK_MESSAGE : String := "You cannot assign a role higher than your own"

def assertRoleChangeAllowed (actor : GuardActor Id) (target : GuardTarget Id) (requestedRole : Role)
    (rankMessage : Option String) : Checked Unit := do
  assertNotSelf actor.id target.id
  assertTargetNotOwner target.role
  assertRankCap actor.role requestedRole (rankMessage.getD DEFAULT_RANK_MESSAGE)
  assertRoleAssignable requestedRole

def assertRemovalAllowed (actor : GuardActor Id) (target : GuardTarget Id) : Checked Unit := do
  assertNotSelf actor.id target.id
  assertTargetNotOwner target.role

def assertDisableAllowed (actor : GuardActor Id) (target : GuardTarget Id) : Checked Unit := do
  assertNotSelf actor.id target.id
  assertTargetNotOwner target.role

def assertNotLastOwner (directory : Directory Id) (losesAnOwner : Bool) : Checked Unit :=
  if losesAnOwner then
    refuse (directory.count (fun _ account => account.role = .owner) ≤ 1) lastOwner
  else .ok ()

def assertNotLastOperator (directory : Directory Id) (target : GuardTxTarget Id) : Checked Unit :=
  if target.directoryStatus = .deactivated then .ok ()
  else
    refuse (directory.count (fun id account => account.operates && id ≠ target.id) = 0) lastOperator

def assertRoleChangeInvariantsTx (directory : Directory Id) (target : GuardTxTarget Id)
    (requestedRole : Role) : Checked Unit := do
  assertNotLastOwner directory (target.role = .owner && requestedRole ≠ .owner)
  if target.role.isAdminTier && !requestedRole.isAdminTier then
    assertNotLastOperator directory target

def assertRemovalInvariantsTx (directory : Directory Id) (target : GuardTxTarget Id) :
    Checked Unit := do
  assertNotLastOwner directory (target.role = .owner)
  if target.role.isAdminTier then
    assertNotLastOperator directory target

def assertDisableInvariantsTx (directory : Directory Id) (target : GuardTxTarget Id) :
    Checked Unit := do
  if target.role.isAdminTier then
    assertNotLastOperator directory target

end Droplet.People
