import Mathlib

/-! The `DeviceUpdate` table and every write to it (`services/update-agent/transitions.ts` and the
claims of `apply.ts`). -/

namespace Droplet.Update

inductive Status where
  | pending
  | superseded
  | verifying
  | applying
  | committed
  | rolledBack
  | failed
  | rejected
  deriving DecidableEq

/-- `DEVICE_UPDATE_ALLOWED_TRANSITIONS` -/
def Status.allowed : Status → List Status
  | .pending => [.superseded, .verifying]
  | .verifying => [.applying, .rejected, .superseded]
  | .applying => [.committed, .rolledBack, .failed]
  | .superseded | .committed | .rolledBack | .failed | .rejected => []

def Status.applicable : Status → Bool
  | .pending | .verifying => true
  | _ => false

inductive Outcome where
  | notApplied
  | startingServices
  | committed
  | servicesStartFailed
  | rolledBack
  | rollbackFailed
  deriving DecidableEq

structure ReleaseService where
  name : String
  image : String
  digest : String
  /-- `healthcheck.type` is `http`; the others have no surface to probe. -/
  http : Bool
  deriving DecidableEq

abbrev Tree := String

/-- The verified manifest of a release, with the tree its configs asset unpacks to. -/
structure ReleaseManifest where
  services : List ReleaseService
  configs : Tree
  deriving DecidableEq

structure Release where
  channel : String
  gitSha : String
  builtAt : ℤ
  manifest : ReleaseManifest
  deriving DecidableEq

abbrev ClaimId := ℕ

structure Row where
  release : Release
  status : Status
  failureReason : Option String
  outcome : Outcome
  /-- `applyClaim` and `applyClaimId` -/
  claim : Option ClaimId
  updatedAt : ℕ
  deriving DecidableEq

/-- Rows `0 … count - 1` in the order of `createdAt`; none is ever deleted. -/
structure Table where
  count : ℕ
  row : ℕ → Row

/-- What stands for an id that no row has: nothing leaves a final status. -/
def Row.absent : Row where
  release := ⟨"", "", 0, ⟨[], ""⟩⟩
  status := .superseded
  failureReason := none
  outcome := .notApplied
  claim := none
  updatedAt := 0

def Table.empty : Table := ⟨0, fun _ => Row.absent⟩

namespace Table

/-- `findFirst` with `orderBy: createdAt desc`. -/
def newest (table : Table) (condition : Row → Bool) : Option ℕ :=
  (List.range table.count).reverse.find? fun id => condition (table.row id)

/-- `updateMany` with one condition for every row. -/
def updateWhere (table : Table) (condition : Row → Bool) (write : Row → Row) : Table where
  count := table.count
  row id := if condition (table.row id) then write (table.row id) else table.row id

def update (table : Table) (id : ℕ) (write : Row → Row) : Table where
  count := table.count
  row other := if other = id then write (table.row id) else table.row other

/-- `installedRelease`: the committed row that was written last. -/
def installedRelease (table : Table) : Option ℕ :=
  (List.range table.count).foldl
    (fun best id =>
      if (table.row id).status = .committed then
        match best with
        | none => some id
        | some other =>
          if (table.row other).updatedAt ≤ (table.row id).updatedAt then some id else some other
      else best)
    none

def create (table : Table) (release : Release) (now : ℕ) : Table where
  count := table.count + 1
  row id :=
    if id = table.count then
      { release, status := .pending, failureReason := none, outcome := .notApplied, claim := none,
        updatedAt := now }
    else table.row id

/-- `supersedePendingUpdates` -/
def supersedePendingUpdates (table : Table) (now : ℕ) : Table :=
  table.updateWhere (fun row => row.status = .pending)
    fun row => { row with status := .superseded, updatedAt := now }

/-- `supersedeUnclaimedVerifyingUpdates` -/
def supersedeUnclaimedVerifyingUpdates (table : Table) (now : ℕ) : Table :=
  table.updateWhere (fun row => row.status = .verifying && row.claim.isNone)
    fun row => { row with status := .superseded, updatedAt := now }

def clearClaims (table : Table) (now : ℕ) : Table :=
  table.updateWhere (fun row => row.claim.isSome)
    fun row => { row with claim := none, updatedAt := now }

end Table

inductive DbWrite where
  | nothing
  /-- `claimDeviceUpdateForApply` -/
  | claim (id : ℕ) (claimId : ClaimId)
  /-- `releaseDeviceUpdateClaim` -/
  | release (id : ℕ) (claimId : ClaimId)
  /-- The guarded write of `transitionDeviceUpdate`, and that of the skip route. -/
  | advance (id : ℕ) (seen target : Status) (failureReason : Option String)
      (outcome : Option Outcome)
  /-- `recordCommittedOutcome` -/
  | record (id : ℕ) (outcome : Outcome)
  /-- The poller's transaction. -/
  | create (release : Release)

/-- `count === 1`: the row the write is about meets its condition. -/
def DbWrite.hits (table : Table) : DbWrite → Bool
  | .nothing => true
  | .claim id _ => (table.row id).status.applicable && (table.row id).claim.isNone
  | .release id claimId => (table.row id).claim = some claimId
  | .advance id seen _ _ _ => (table.row id).status = seen
  | .record id _ => (table.row id).status = .committed
  | .create _ => true

def Row.advance (row : Row) (target : Status) (failureReason : Option String)
    (outcome : Option Outcome) (now : ℕ) : Row :=
  { row with status := target, failureReason, outcome := outcome.getD row.outcome, updatedAt := now }

def DbWrite.apply (table : Table) (now : ℕ) (write : DbWrite) : Table :=
  if write.hits table then
    match write with
    | .nothing => table
    | .claim id claimId =>
      table.update id fun row => { row with claim := some claimId, updatedAt := now }
    | .release id _ => table.update id fun row => { row with claim := none, updatedAt := now }
    | .advance id _ target failureReason outcome =>
      table.update id fun row => row.advance target failureReason outcome now
    | .record id outcome => table.update id fun row => { row with outcome, updatedAt := now }
    | .create found =>
      ((table.supersedePendingUpdates now).supersedeUnclaimedVerifyingUpdates now).create found now
  else table

/-- A write asks for an edge of the state machine. -/
def DbWrite.Allowed : DbWrite → Prop
  | .advance _ seen target _ _ => target ∈ seen.allowed
  | _ => True

def Status.Follows (before after : Status) : Prop := after = before ∨ after ∈ before.allowed

theorem Status.Follows.refl (status : Status) : status.Follows status := .inl rfl

theorem allowed_not_pending {before after : Status} (edge : after ∈ before.allowed) : after ≠ .pending := by
  cases before <;> simp [Status.allowed] at edge <;> rcases edge with rfl | rfl | rfl <;> decide

end Droplet.Update
