import Mathlib

/-! Cycles of a project (`services/pm/pm-cycles.service.ts`, with `lockAttachableCycle` of
`pm-planning.ts`): starting, completing and deleting one, and planning items into it, as
transactions of many clients.

The database is Postgres: a row that is updated stays locked until its transaction ends. An attach,
a start and a delete run under `READ COMMITTED`, where a statement sees what is committed when it
gets its lock; completing runs under `SERIALIZABLE`, where every statement sees the snapshot of the
first one and an update of a row that was changed since then aborts. Any transaction can be aborted
at any time. -/

namespace Droplet.Pm.Cycles

inductive CycleStatus where
  | draft
  | active
  | completed
  deriving DecidableEq

/-- `version` stands for the version of the row: each update makes a later one. -/
structure CycleRow where
  id : String
  projectId : String
  status : CycleStatus
  startDate : Option ℤ
  endDate : Option ℤ
  carriedOverCount : ℕ
  version : ℕ
  deriving DecidableEq

structure ItemRow where
  id : String
  projectId : String
  cycleId : Option String
  isCompleted : Bool
  isArchived : Bool
  version : ℕ
  deriving DecidableEq

inductive ActivityVerb where
  | cycleAdded
  | cycleRemoved

/-- An activity row of the field `cycle`. -/
structure ActivityRow where
  workItemId : String
  actorId : Option String
  verb : ActivityVerb
  oldValue : Option String
  newValue : Option String

structure Database where
  serviceDesk : String → Bool
  cycles : List CycleRow
  items : List ItemRow
  activity : List ActivityRow

inductive PlanningError where
  | cycleNotFound
  | invalidCycle
  | cycleCompleted
  | cycleAlreadyActive
  | cycleNotDraft
  | cycleNotActive
  | cycleDatesRequired
  | concurrentMutation
  deriving DecidableEq

def Database.cycle (db : Database) (id : String) : Option CycleRow :=
  db.cycles.find? (fun row => row.id = id)

def loadCycleRow (db : Database) (id : String) : Except PlanningError CycleRow :=
  match db.cycle id with
  | some row => if db.serviceDesk row.projectId then .error .cycleNotFound else .ok row
  | none => .error .cycleNotFound

def Database.setCycle (db : Database) (id : String) (update : CycleRow → CycleRow) : Database :=
  { db with
    cycles := db.cycles.map (fun row =>
      if row.id = id then { update row with version := row.version + 1 } else row) }

def Database.setItems (db : Database) (ids : List String) (update : ItemRow → ItemRow) : Database :=
  { db with
    items := db.items.map (fun item =>
      if item.id ∈ ids then { update item with version := item.version + 1 } else item) }

def Database.log (db : Database) (rows : List ActivityRow) : Database :=
  { db with activity := db.activity ++ rows }

inductive RowKey where
  | cycle (id : String)
  | item (id : String)
  deriving DecidableEq

/-- An item planned into a cycle: a new one, or one that is there. Its state may change with it. -/
structure Attach where
  actorId : Option String
  itemId : String
  projectId : String
  cycleId : String
  isCompleted : Option Bool

structure Completion where
  actorId : Option String
  cycleId : String
  moveIncompleteTo : Option String
  deriving DecidableEq

/-- What a client is in the middle of. -/
inductive Tx where
  | attach (a : Attach)
  | attachLocked (a : Attach)
  | attachWritten (a : Attach)
  | start (cycleId : String)
  | complete (c : Completion) (snapshot : Database) (cycle : CycleRow)
  | completeClaimed (c : Completion) (snapshot : Database) (cycle : CycleRow)
  | completeMoving (c : Completion) (snapshot : Database) (cycle : CycleRow)
      (moved unfinished : List ItemRow)
  | delete (actorId : Option String) (cycleId : String)
  | deleteClaimed (actorId : Option String) (cycleId : String)
  | deleteRead (actorId : Option String) (cycleId : String) (members : List String)
  | deleteLocked (actorId : Option String) (cycleId : String) (members held : List String)

structure System where
  db : Database
  locks : RowKey → Option ℕ
  txs : ℕ → Option Tx

inductive Call where
  | attach (a : Attach)
  | start (cycleId : String)
  | complete (c : Completion)
  | delete (actorId : Option String) (cycleId : String)

/-- A client begins a call, goes on with it, or loses its transaction. -/
inductive Event where
  | begin (client : ℕ) (call : Call)
  | act (client : ℕ)
  | abort (client : ℕ)

def System.free (system : System) (client : ℕ) (key : RowKey) : Bool :=
  system.locks key = none || system.locks key = some client

def System.lock (system : System) (client : ℕ) (keys : List RowKey) : System :=
  { system with locks := fun key => if key ∈ keys then some client else system.locks key }

def System.setTx (system : System) (client : ℕ) (tx : Option Tx) : System :=
  { system with txs := Function.update system.txs client tx }

/-- The end of a transaction: its locks are gone. -/
def System.release (system : System) (client : ℕ) : System :=
  { system with
    locks := fun key => if system.locks key = some client then none else system.locks key
    txs := Function.update system.txs client none }

/-- A step and the error it answers, or `none` where it has to wait. -/
abbrev Outcome := Option (System × Option PlanningError)

def System.fail (system : System) (client : ℕ) (failure : PlanningError) : Outcome :=
  some (system.release client, some failure)

def System.go (system : System) (client : ℕ) (keys : List RowKey) (tx : Tx) : Outcome :=
  some ((system.lock client keys).setTx client (some tx), none)

def System.commit (system : System) (client : ℕ) (db : Database) : Outcome :=
  some ({ system with db := db }.release client, none)

/-- The statement of `lockAttachableCycle` on the row it sees: whether it touches it. -/
def attachable (projectId : String) (row : CycleRow) : Bool :=
  row.projectId = projectId && row.status ≠ .completed

/-- The error of `lockAttachableCycle` where no row was touched. -/
def attachError (db : Database) (cycleId projectId : String) : PlanningError :=
  match db.cycle cycleId with
  | none => .cycleNotFound
  | some row => if row.projectId ≠ projectId then .invalidCycle else .cycleCompleted

def attachItem (a : Attach) (item : ItemRow) : ItemRow :=
  { item with cycleId := some a.cycleId, isCompleted := a.isCompleted.getD item.isCompleted }

def newItem (a : Attach) : ItemRow :=
  ⟨a.itemId, a.projectId, some a.cycleId, a.isCompleted.getD false, false, 0⟩

/-- What an attach leaves: the cycle touched, the item in it, and the change logged. -/
def attachDone (db : Database) (a : Attach) : Database :=
  let touched := db.setCycle a.cycleId (fun row => row)
  match db.items.find? (fun item => item.id = a.itemId) with
  | some item =>
    (touched.setItems [a.itemId] (attachItem a)).log
      (if item.cycleId = some a.cycleId then []
        else [⟨a.itemId, a.actorId, .cycleAdded, item.cycleId, some a.cycleId⟩])
  | none =>
    { touched with items := touched.items ++ [newItem a] }.log
      [⟨a.itemId, a.actorId, .cycleAdded, none, some a.cycleId⟩]

def startChecks (db : Database) (cycleId : String) : Except PlanningError Unit :=
  match loadCycleRow db cycleId with
  | .error failure => .error failure
  | .ok cycle =>
    if cycle.status ≠ .draft then .error .cycleNotDraft
    else if cycle.startDate = none ∨ cycle.endDate = none then .error .cycleDatesRequired
    else if db.cycles.any (fun row =>
        row.projectId = cycle.projectId && row.status = .active && row.id ≠ cycleId) then
      .error .cycleAlreadyActive
    else .ok ()

def unfinishedItems (db : Database) (cycleId : String) : List ItemRow :=
  db.items.filter (fun item => item.cycleId = some cycleId && !item.isCompleted)

def movedActivity (c : Completion) (item : ItemRow) : ActivityRow :=
  ⟨item.id, c.actorId, if c.moveIncompleteTo = none then .cycleRemoved else .cycleAdded,
    some c.cycleId, c.moveIncompleteTo⟩

/-- What completing leaves: the cycle completed, its target touched, the unfinished items moved and
each move logged. -/
def completeDone (db : Database) (c : Completion) (unfinished : List ItemRow) : Database :=
  let claimed := db.setCycle c.cycleId (fun row =>
    { row with
      status := .completed
      carriedOverCount := (unfinished.filter (fun item => !item.isArchived)).length })
  let touched := match c.moveIncompleteTo with
    | none => claimed
    | some target => claimed.setCycle target (fun row => row)
  (touched.setItems (unfinished.map ItemRow.id) (fun item =>
    { item with cycleId := c.moveIncompleteTo })).log (unfinished.map (movedActivity c))

def removedActivity (actorId : Option String) (cycleId : String) (item : String) : ActivityRow :=
  ⟨item, actorId, .cycleRemoved, some cycleId, none⟩

/-- What deleting leaves: `ON DELETE SET NULL` on the items of the cycle. -/
def deleteDone (db : Database) (actorId : Option String) (cycleId : String) (members held : List String) :
    Database :=
  ({ db with cycles := db.cycles.filter (fun row => row.id ≠ cycleId) }.setItems held (fun item =>
    { item with cycleId := none })).log (members.map (removedActivity actorId cycleId))

def begin (system : System) (client : ℕ) : Call → Outcome
  | .attach a => system.go client [] (.attach a)
  | .start cycleId =>
    match startChecks system.db cycleId with
    | .error failure => some (system, some failure)
    | .ok _ => system.go client [] (.start cycleId)
  | .complete c =>
    match loadCycleRow system.db c.cycleId with
    | .error failure => some (system, some failure)
    | .ok cycle =>
      if cycle.status ≠ .active then some (system, some .cycleNotActive)
      else if c.moveIncompleteTo = some c.cycleId then some (system, some .invalidCycle)
      else system.go client [] (.complete c system.db cycle)
  | .delete actorId cycleId =>
    match loadCycleRow system.db cycleId with
    | .error failure => some (system, some failure)
    | .ok _ => system.go client [] (.delete actorId cycleId)

/-- A row of the snapshot that is still the committed one. -/
def unchangedCycle (db : Database) (row : CycleRow) : Bool := decide (row ∈ db.cycles)

def unchangedItem (db : Database) (item : ItemRow) : Bool := decide (item ∈ db.items)

def act (system : System) (client : ℕ) : Tx → Outcome
  | .attach a =>
    if system.free client (.cycle a.cycleId) then
      match system.db.cycle a.cycleId with
      | some row =>
        if attachable a.projectId row then
          system.go client [.cycle a.cycleId] (.attachLocked a)
        else system.fail client (attachError system.db a.cycleId a.projectId)
      | none => system.fail client .cycleNotFound
    else none
  | .attachLocked a =>
    if system.free client (.item a.itemId) then
      system.go client [.item a.itemId] (.attachWritten a)
    else none
  | .attachWritten a => system.commit client (attachDone system.db a)
  | .start cycleId =>
    -- one statement: the compare-and-set, then the partial unique index
    if system.free client (.cycle cycleId) then
      match system.db.cycle cycleId with
      | none => system.fail client .cycleNotFound
      | some row =>
        if row.status ≠ .draft then system.fail client .cycleNotDraft
        else
          match system.db.cycles.find? (fun other =>
              other.projectId = row.projectId && other.status = .active) with
          | some other =>
            if system.free client (.cycle other.id) then
              system.fail client .cycleAlreadyActive
            else none
          | none =>
            system.commit client (system.db.setCycle cycleId (fun row =>
              { row with status := .active }))
    else none
  | .complete c snapshot cycle =>
    if system.free client (.cycle c.cycleId) then
      if unchangedCycle system.db cycle then
        system.go client [.cycle c.cycleId] (.completeClaimed c snapshot cycle)
      else system.fail client .concurrentMutation
    else none
  | .completeClaimed c snapshot cycle =>
    match c.moveIncompleteTo with
    | none => system.go client [] (.completeMoving c snapshot cycle [] (unfinishedItems snapshot c.cycleId))
    | some target =>
      match snapshot.cycle target with
      | none => system.fail client .cycleNotFound
      | some row =>
        if attachable cycle.projectId row then
          if system.free client (.cycle target) then
            if unchangedCycle system.db row then
              system.go client [.cycle target]
                (.completeMoving c snapshot cycle [] (unfinishedItems snapshot c.cycleId))
            else system.fail client .concurrentMutation
          else none
        else system.fail client (attachError snapshot target cycle.projectId)
  | .completeMoving c snapshot cycle moved (item :: rest) =>
    if system.free client (.item item.id) then
      if unchangedItem system.db item then
        system.go client [.item item.id] (.completeMoving c snapshot cycle (moved ++ [item]) rest)
      else system.fail client .concurrentMutation
    else none
  | .completeMoving c _ _ moved [] => system.commit client (completeDone system.db c moved)
  | .delete actorId cycleId =>
    if system.free client (.cycle cycleId) then
      match system.db.cycle cycleId with
      | none => system.fail client .cycleNotFound
      | some _ => system.go client [.cycle cycleId] (.deleteClaimed actorId cycleId)
    else none
  | .deleteClaimed actorId cycleId =>
    system.go client [] (.deleteRead actorId cycleId
      ((system.db.items.filter (fun item => item.cycleId = some cycleId)).map ItemRow.id))
  | .deleteRead actorId cycleId members =>
    let held := (system.db.items.filter (fun item => item.cycleId = some cycleId)).map ItemRow.id
    if held.all (fun id => system.free client (.item id)) then
      system.go client (held.map RowKey.item) (.deleteLocked actorId cycleId members held)
    else none
  | .deleteLocked actorId cycleId members held =>
    system.commit client (deleteDone system.db actorId cycleId members held)

def step (system : System) : Event → Outcome
  | .begin client call =>
    match system.txs client with
    | some _ => none
    | none => begin system client call
  | .act client => (system.txs client).bind (act system client)
  | .abort client => some (system.release client, none)

def run (system : System) : List Event → Option System
  | [] => some system
  | event :: events => (step system event).bind (fun next => run next.1 events)

end Droplet.Pm.Cycles
