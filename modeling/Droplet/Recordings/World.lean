import Droplet.Recordings.Allocator

/-! The allocator among its database, its host and its owners, with a record of what it did. -/

namespace Droplet.Recordings

open Effects

/-- What the record keeps. -/
inductive Entry where
  /-- The row the host was found to record onto. -/
  | recordsOnto (live : Option RowId)
  | reported (status : NvrMigrationStatus)
  /-- A failure was counted on the row. -/
  | counted (row : RowId) (instant : ℤ)
  /-- A move to the row was found done. -/
  | succeeded (row : RowId)
  /-- An owner's action began the row anew. -/
  | renewed (row : RowId)
  | started (row : RowId) (byOwner : Bool) (instant : ℤ)
  | gaveUp (row : RowId)
  | deleted (row : RowId)
  deriving DecidableEq

structure Store where
  rows : List AllocationRecord
  /-- Row ids drawn. -/
  drawn : ℕ
  clock : ℤ
  /-- The running operation is an owner's. -/
  byOwner : Bool
  trace : List Entry

inductive Outcome where
  | fine
  | observed (observation : Observation)
  | status (status : NvrMigrationStatus)
  | failed (failure : Failure)

/-- How a call goes; the clock never goes back. -/
structure Answer where
  instant : ℤ
  outcome : Outcome

def RowUpdate.apply (data : RowUpdate) (clock : ℤ) (row : AllocationRecord) : AllocationRecord :=
  { row with
    status := data.status.getD row.status
    mode := data.mode.getD row.mode
    reservedBytes := data.reservedBytes.getD row.reservedBytes
    migrationFailures := data.migrationFailures.getD row.migrationFailures
    lastFailureAt := data.lastFailureAt.getD row.lastFailureAt
    updatedAt := clock }

def RowUpdate.entries (data : RowUpdate) (byOwner : Bool) (clock : ℤ) (id : RowId) : List Entry :=
  match data.migrationFailures with
  | none => []
  | some 0 => [if byOwner then .renewed id else .succeeded id]
  | some _ => [.counted id ((data.lastFailureAt.getD none).getD clock)]

def chosen (id : RowId) (status : Option (List AllocationStatus)) (row : AllocationRecord) : Bool :=
  row.id = id && (status.map fun allowed => allowed.contains row.status).getD true

variable (arithmetic : Arithmetic)

def Store.factsOf (store : Store) (observation : Observation) : RecordingsFacts :=
  let allocations := inPreference arithmetic store.rows
  { observation with
    instant := store.clock
    allocation := selectSubjectAllocation allocations observation.recordsOnto
    allocations := allocations }

def Store.log (store : Store) (entries : List Entry) : Store :=
  { store with trace := store.trace ++ entries }

def Store.collect (store : Store) (observation : Observation) : Store × Reply :=
  let facts := store.factsOf arithmetic observation
  (store.log ((observation.migration.map Entry.reported).toList ++
    [.recordsOnto ((liveRow arithmetic facts).map AllocationRecord.id)]), .facts facts)

def Store.update (store : Store) (id : RowId) (status : Option (List AllocationStatus))
    (data : RowUpdate) : Store × Reply :=
  if store.rows.any (chosen id status) then
    ({ store.log (data.entries store.byOwner store.clock id) with
        rows := store.rows.map fun row =>
          if chosen id status row then data.apply store.clock row else row }, .count 1)
  else (store, .count 0)

def Store.insert (store : Store) (fsUuid : String) (mode : AllocationMode) (reservedBytes : ℕ) :
    Store × Reply :=
  if store.rows.any fun row => row.fsUuid = fsUuid then (store, .failed .uniqueViolation)
  else
    let row : AllocationRecord :=
      { id := store.drawn
        fsUuid := fsUuid
        mode := mode
        reservedBytes := reservedBytes
        status := .PENDING
        migrationFailures := 0
        lastFailureAt := none
        createdAt := store.clock
        updatedAt := store.clock }
    ({ store with
        rows := store.rows ++ [row]
        drawn := store.drawn + 1 }, .created row)

def Store.remove (store : Store) (doomed : AllocationRecord → Bool) : Store × Reply :=
  let gone := store.rows.filter doomed
  ({ store.log (gone.map fun row => .deleted row.id) with
      rows := store.rows.filter fun row => !doomed row }, .count gone.length)

def Store.execute (store : Store) : Command → Outcome → Store × Reply
  | _, .failed failure => (store, .failed failure)
  | .collectFacts, .observed observation => store.collect arithmetic observation
  | .collectFacts, _ => (store, .failed .other)
  | .loadRecordingsAllocations, _ => (store, .rows (inPreference arithmetic store.rows))
  | .updateMany id status data, _ => store.update id status data
  | .create fsUuid mode reservedBytes, _ => store.insert fsUuid mode reservedBytes
  | .deleteMany doomed, _ => store.remove doomed
  | .getMigration, .status status => (store.log [.reported status], .migration status)
  | .getMigration, _ => (store, .failed .other)
  | .now, _ => (store, .instant store.clock)
  | .startMigration _ _, _ => (store, .nothing)
  | .notifyOwners _ _ _, _ => (store, .nothing)
  | .applyNvrTarget _ _, _ => (store, .nothing)
  | .resizeNvr _, _ => (store, .nothing)
  | .deleteOldFootage, _ => (store, .nothing)
  | .recordActivity _ _ _ _, _ => (store, .nothing)

/-- A start and a notice are on record once they are sent, whatever comes of them. -/
def Store.sent (store : Store) : Command → Store
  | .startMigration row _ => store.log [.started row store.byOwner store.clock]
  | .notifyOwners row title _ =>
    if title = TITLE_MOVE_GAVE_UP then store.log [.gaveUp row] else store
  | _ => store

def exec (store : Store) (command : Command) (answer : Answer) : Store × Reply :=
  ({ store with clock := max store.clock answer.instant }.sent command).execute arithmetic command
    answer.outcome

inductive Operation where
  | reconcile
  | pollMigration
  | setAllocation (req : SetAllocationRequest) (actor : RecordingsActor)
  | deleteOldFootage (actor : RecordingsActor)

def Operation.byOwner : Operation → Bool
  | .reconcile => false
  | .pollMigration => false
  | _ => true

def programOf : Operation → Op Unit
  | .reconcile => do let _ ← reconcile arithmetic
  | .pollMigration => pollMigration
  | .setAllocation req actor => setAllocation arithmetic req actor
  | .deleteOldFootage actor => deleteOldFootage actor

/-- An operation that fails is over, like one that returns. -/
def start (operation : Operation) (store : Store) : Store × Prog Command Reply Unit :=
  ({ store with byOwner := operation.byOwner },
    (programOf arithmetic operation).run.bind fun _ => .done ())

abbrev World := Machine Store Command Reply

abbrev World.step (world : World) (event : Event Operation Answer) : World :=
  Machine.step (exec arithmetic) (start arithmetic) world event

def emptyStore (clock : ℤ) : Store where
  rows := []
  drawn := 0
  clock := clock
  byOwner := false
  trace := []

end Droplet.Recordings
