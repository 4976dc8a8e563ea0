import Droplet.ErpSync.Watermark

/-! A sync cursor and the statements that change it (`erp-sync/cursor.service.ts`). -/

namespace Droplet.ErpSync

open SyncPolicy

inductive ErpSyncState where
  | IDLE
  | SYNCING
  | BACKOFF
  | RESYNC_REQUIRED
  | FAILED
  deriving DecidableEq

def CLAIMABLE_ERP_SYNC_STATES : List ErpSyncState := [.IDLE, .BACKOFF, .RESYNC_REQUIRED]

structure Cursor where
  watermark : Option String
  state : ErpSyncState
  consecutiveFailures : ℕ
  nextAttemptAt : Option ℤ
  lastSyncedAt : Option ℤ
  lastSweepAt : Option ℤ
  needsReconnect : Bool
  /-- How often the cursor was reset by a disconnect. No column: only proofs read it. -/
  resets : ℕ

def UNSTARTED_ERP_CURSOR : Cursor where
  watermark := none
  state := .IDLE
  consecutiveFailures := 0
  nextAttemptAt := none
  lastSyncedAt := none
  lastSweepAt := none
  needsReconnect := false
  resets := 0

abbrev CursorId := ℕ

abbrev ConnectionId := ℕ

/-- What an execution read of a cursor before it took it. -/
structure ClaimedErpCursor where
  id : CursorId
  watermark : Option String
  consecutiveFailures : ℕ
  resets : ℕ

namespace Cursor

def snapshot (id : CursorId) (cursor : Cursor) : ClaimedErpCursor where
  id := id
  watermark := cursor.watermark
  consecutiveFailures := cursor.consecutiveFailures
  resets := cursor.resets

def claimable (cursor : Cursor) : Bool := CLAIMABLE_ERP_SYNC_STATES.contains cursor.state

/-- Never attempted, or its backoff window has elapsed. -/
def due (now : ℤ) (cursor : Cursor) : Bool :=
  cursor.claimable && match cursor.nextAttemptAt with
    | none => true
    | some next => next ≤ now

def claim (cursor : Cursor) : Option Cursor :=
  if cursor.claimable then some { cursor with state := .SYNCING } else none

/-- One row of `resetCursorsForConnection`. -/
def reset (cursor : Cursor) : Cursor := { UNSTARTED_ERP_CURSOR with resets := cursor.resets + 1 }

def releaseSuccess (watermark : Option String) (now : ℤ) (sweptAt : Option ℤ) (cursor : Cursor) :
    Cursor :=
  { cursor with
    watermark
    state := .IDLE
    consecutiveFailures := 0
    nextAttemptAt := none
    lastSyncedAt := some now
    needsReconnect := false
    lastSweepAt := sweptAt.or cursor.lastSweepAt }

/-- `waitMs` is what `computeBackoffMs` gives. -/
def releaseFailure (consecutiveFailures : ℕ) (err : SyncFailureLike) (now waitMs : ℤ)
    (cursor : Cursor) : Cursor :=
  match classifySyncFailure err with
  | .RESYNC_REQUIRED =>
    { cursor with
      state := .RESYNC_REQUIRED
      watermark := none
      consecutiveFailures := 0
      nextAttemptAt := none
      needsReconnect := false }
  | .FATAL =>
    { cursor with
      state := .FAILED
      consecutiveFailures := consecutiveFailures + 1
      nextAttemptAt := none
      needsReconnect := false }
  | kind =>
    { cursor with
      state := .BACKOFF
      consecutiveFailures := consecutiveFailures + 1
      nextAttemptAt := some (now + waitMs)
      needsReconnect := kind = .AUTH }

/-- Does this release take the position back? -/
def resyncs (err : SyncFailureLike) : Bool := classifySyncFailure err = .RESYNC_REQUIRED

theorem releaseFailure_watermark (consecutiveFailures : ℕ) (err : SyncFailureLike)
    (now waitMs : ℤ) (cursor : Cursor) :
    (cursor.releaseFailure consecutiveFailures err now waitMs).watermark =
      if resyncs err then none else cursor.watermark := by
  unfold releaseFailure resyncs
  cases classifySyncFailure err <;> rfl

theorem releaseFailure_resets (consecutiveFailures : ℕ) (err : SyncFailureLike) (now waitMs : ℤ)
    (cursor : Cursor) : (cursor.releaseFailure consecutiveFailures err now waitMs).resets = cursor.resets := by
  unfold releaseFailure
  split <;> rfl

theorem claim_cases {cursor next : Cursor} (claimed : cursor.claim = some next) :
    cursor.claimable = true ∧ next = { cursor with state := .SYNCING } := by
  rw [claim, Option.ite_none_right_eq_some] at claimed
  exact ⟨claimed.1, (Option.some.inj claimed.2).symm⟩

theorem not_claimable_syncing {cursor : Cursor} (syncing : cursor.state = .SYNCING) :
    cursor.claimable = false := by
  simp [claimable, CLAIMABLE_ERP_SYNC_STATES, syncing]

end Cursor

end Droplet.ErpSync
