import Mathlib

/-! The consumers of the activity outbox (`services/pm/pm-outbox.ts`): the stored cursor, the
settled batch after it, and the sweep that hands on one row at a time, as replicas, writers and
crashes interleave with it.

Ids are ordered as the database's collation orders them, the empty one first. Instants are
rational milliseconds and no two steps share one; a clock reads whole milliseconds. -/

namespace Droplet.Pm.Outbox

variable {Id : Type} [LinearOrder Id] [OrderBot Id]

/-- The order of the outbox: `createdAt`, then `id`. -/
abbrev Key (Id : Type) := ℤ ×ₗ Id

/-- The columns of `PmActivity` a sweep reads. -/
structure OutboxRow (Id : Type) where
  id : Id
  createdAt : ℤ
  workItemId : Option String
  deletedWorkItemId : Option String
  deriving DecidableEq

def OutboxRow.key (row : OutboxRow Id) : Key Id := toLex (row.createdAt, row.id)

/-- A consumer, up to its handler and its batch size. -/
structure Consumer where
  name : String
  settleMs : ℤ := 6000
  poisonAfterMs : ℤ := 300000

def MAX_BATCHES_PER_SWEEP : ℕ := 50
def POISON_MIN_FAILURES : ℕ := 3

/-- Deletion tombstones are for `pm-live` alone. -/
def visible (consumer : Consumer) (row : OutboxRow Id) : Bool :=
  row.workItemId.isSome || (consumer.name = "pm-live" && row.deletedWorkItemId.isSome)

/-- The query of `readOutboxBatch`. -/
def readOutboxBatch (consumer : Consumer) (rows : List (OutboxRow Id)) (cursor : Key Id) (now : ℤ)
    (limit : ℕ) : List (OutboxRow Id) :=
  ((rows.filter (fun row => visible consumer row &&
    decide (cursor < row.key ∧ row.createdAt ≤ now - consumer.settleMs))).insertionSort
      (fun first second => first.key ≤ second.key)).take limit

/-- Where a sweep is: the calls it makes one after another. -/
inductive Phase (Id : Type) where
  | begun
  | loading (now : ℤ)
  | creating (now : ℤ)
  | rereading (now : ℤ)
  | reading (now : ℤ) (cursor : Key Id)
  | handling (rows : List (OutboxRow Id)) (full : Bool)
  | advancing (row : OutboxRow Id) (rest : List (OutboxRow Id)) (full : Bool)

structure Sweep (Id : Type) where
  replica : ℕ
  batchSize : ℕ
  batch : ℕ
  phase : Phase Id

/-- What the handler was seen to do. -/
inductive Outcome (Id : Type) where
  | handled (key : Key Id)
  | failed (replica : ℕ) (id : Id) (clock : ℤ)
  | deadLettered (key : Key Id)
  deriving DecidableEq

/-- `firstAt` and `count` of a row that failed. -/
structure Failure where
  firstAt : ℤ
  count : ℕ

/-- The tables, what each replica has in memory, and the log of outcomes. `initial` is the value
the cursor was created with. -/
structure State (Id : Type) where
  time : ℚ
  pending : List (OutboxRow Id)
  rows : List (OutboxRow Id)
  cursor : Option (Key Id)
  initial : Option (Key Id)
  tracked : ℕ → Id → Option Failure
  sweep : Option (Sweep Id)
  log : List (Outcome Id)

inductive Event (Id : Type) where
  | insert (row : OutboxRow Id)
  | commit (row : OutboxRow Id)
  | rollback (row : OutboxRow Id)
  | remove (id : Id)
  | rival (now : ℤ)
  | begin (replica batchSize : ℕ)
  | proceed
  | handle (success : Bool)
  | stop
  | crash (replica : ℕ)

/-- The insert of `loadCursor` that skips a row that is there. -/
def State.createCursor (state : State Id) (now : ℤ) : State Id :=
  match state.cursor with
  | some _ => state
  | none => { state with cursor := some (toLex (now, ⊥)), initial := some (toLex (now, ⊥)) }

def State.enter (state : State Id) (sweep : Sweep Id) (phase : Phase Id) : State Id :=
  { state with sweep := some { sweep with phase := phase } }

def State.endSweep (state : State Id) : State Id := { state with sweep := none }

def State.setTracked (state : State Id) (replica : ℕ) (id : Id) (failure : Option Failure) : State Id :=
  { state with
    tracked := Function.update state.tracked replica (Function.update (state.tracked replica) id failure) }

def State.note (state : State Id) (outcome : Outcome Id) : State Id :=
  { state with log := state.log ++ [outcome] }

def proceed (consumer : Consumer) (state : State Id) (t : ℚ) (sweep : Sweep Id) : Option (State Id) :=
  match sweep.phase with
  | .begun =>
    if sweep.batchSize < 1 then some state.endSweep
    else some (state.enter sweep (.loading ⌊t⌋))
  | .loading now =>
    match state.cursor with
    | some cursor => some (state.enter sweep (.reading now cursor))
    | none => some (state.enter sweep (.creating now))
  | .creating now => some ((state.createCursor now).enter sweep (.rereading now))
  | .rereading now =>
    match state.cursor with
    | some cursor => some (state.enter sweep (.reading now cursor))
    | none => some state.endSweep
  | .reading now cursor =>
    let rows := readOutboxBatch consumer state.rows cursor now sweep.batchSize
    some (state.enter sweep (.handling rows (!decide (rows.length < sweep.batchSize))))
  | .handling [] full =>
    if full ∧ sweep.batch + 1 < MAX_BATCHES_PER_SWEEP then
      some (state.enter { sweep with batch := sweep.batch + 1 } .begun)
    else some state.endSweep
  | .handling (_ :: _) _ => none
  | .advancing row rest full =>
    some ({ state with cursor := some row.key }.enter sweep (.handling rest full))

/-- The handler returns or throws, on the row at the head of the batch. -/
def handle (consumer : Consumer) (state : State Id) (t : ℚ) (success : Bool) (sweep : Sweep Id) :
    Option (State Id) :=
  match sweep.phase with
  | .handling (row :: rest) full =>
    if success then
      some (((state.note (.handled row.key)).setTracked sweep.replica row.id none).enter sweep
        (.advancing row rest full))
    else
      let before := state.tracked sweep.replica row.id
      let next : Failure :=
        ⟨(before.map Failure.firstAt).getD ⌊t⌋, (before.map Failure.count).getD 0 + 1⟩
      let failed := state.note (.failed sweep.replica row.id ⌊t⌋)
      if POISON_MIN_FAILURES ≤ next.count ∧ consumer.poisonAfterMs ≤ ⌊t⌋ - next.firstAt then
        some (((failed.note (.deadLettered row.key)).setTracked sweep.replica row.id none).enter sweep
          (.advancing row rest full))
      else some (failed.setTracked sweep.replica row.id (some next)).endSweep
  | _ => none

/-- One step at an instant, where it can be taken. A row commits no later than `settleMs` after its
`createdAt`, and a sweep begins when no other is under way. -/
def step (consumer : Consumer) (state : State Id) (t : ℚ) (event : Event Id) : Option (State Id) :=
  if t ≤ state.time then none
  else
    let now := { state with time := t }
    match event with
    | .insert row => some { now with pending := row :: state.pending }
    | .commit row =>
      if row ∈ state.pending ∧ t ≤ row.createdAt + consumer.settleMs ∧
          ∀ other ∈ state.rows, other.id ≠ row.id then
        some { now with pending := state.pending.erase row, rows := row :: state.rows }
      else none
    | .rollback row => some { now with pending := state.pending.erase row }
    | .remove id => some { now with rows := state.rows.filter (fun row => row.id ≠ id) }
    | .rival stamp => some (now.createCursor stamp)
    | .begin replica batchSize =>
      match state.sweep with
      | some _ => none
      | none => some { now with sweep := some ⟨replica, batchSize, 0, .begun⟩ }
    | .proceed => state.sweep.bind (proceed consumer now t)
    | .handle success => state.sweep.bind (handle consumer now t success)
    | .stop => some now.endSweep
    | .crash replica =>
      some { now with
        tracked := Function.update state.tracked replica (fun _ => none)
        sweep := state.sweep.filter (fun sweep => sweep.replica ≠ replica) }

/-- A run: steps at their instants, all of which can be taken. -/
def run (consumer : Consumer) (state : State Id) : List (ℚ × Event Id) → Option (State Id)
  | [] => some state
  | (t, event) :: events => (step consumer state t event).bind (fun next => run consumer next events)

end Droplet.Pm.Outbox
