import Droplet.ErpSync.Cursor
import Droplet.Lib.Stepping

/-! Ticks, sweeps and disconnects at work on the same cursors (`erp-sync/erp-sync.service.ts`), cut where
they wait for the vendor or the database. A sweep takes one connection after the other, so it shows as
one execution for each. -/

namespace Droplet.ErpSync

open SyncPolicy

/-- What the cursors stand for. -/
structure Setting where
  dateParse : String → Option ℤ
  connectionOf : CursorId → ConnectionId
  /-- The entity is one of `ERP_SYNC_ENTITIES`. -/
  served : CursorId → Bool
  landsOnBox : CursorId → Bool

/-- What an execution waits for has come. -/
inductive Answer where
  | goes (now waitMs : ℤ)
  /-- The vendor's rows. -/
  | rows (page : List Row)
  /-- The connection is not there, or cannot be built. -/
  | absent
  /-- It throws; a write may have been applied, then. -/
  | fails (err : SyncFailureLike) (applied : Option (ℤ × ℤ))

/-- What a step writes. -/
inductive Change where
  | nothing
  | claims (id : CursorId)
  | lands (id : CursorId) (rows : List Row)
  | succeeds (cursor : ClaimedErpCursor) (watermark : Option String) (now : ℤ) (sweptAt : Option ℤ)
  | fails (cursor : ClaimedErpCursor) (err : SyncFailureLike) (now waitMs : ℤ)

inductive TickStage where
  | claiming
  | loading (cursor : ClaimedErpCursor)
  | connecting (cursor : ClaimedErpCursor)
  | reading (cursor : ClaimedErpCursor)
  | landing (cursor : ClaimedErpCursor) (rows : List Row)
  | releasing (cursor : ClaimedErpCursor) (next : Option String)
  /-- Released; the connection's health and the audit row are written. -/
  | settled (cursor : ClaimedErpCursor)
  /-- Its entity may have been read from the vendor, or not yet. -/
  | failing (cursor : ClaimedErpCursor) (err : SyncFailureLike) (read : Bool)
  /-- The failure of a cursor that was released already. -/
  | failingLate (cursor : ClaimedErpCursor) (err : SyncFailureLike)
  | noting
  | done

structure Tick where
  /-- The candidates that are still to be claimed. -/
  todo : List ClaimedErpCursor
  /-- The cursors that are claimed and still to be run. -/
  claimed : List ClaimedErpCursor := []
  stage : TickStage := .claiming

def syncTargetAbsent : SyncFailureLike where
  code := some "SYNC_TARGET_ABSENT"

namespace Tick

def goes (tick : Tick) (stage : TickStage) : Tick := { tick with stage }

/-- On to the next cursor. -/
def turn (tick : Tick) : Tick :=
  match tick.claimed with
  | [] => { tick with stage := .done }
  | cursor :: rest => { tick with claimed := rest, stage := .loading cursor }

/-- The claims are over when no candidate is left. -/
def ready (tick : Tick) : Tick :=
  match tick.todo with
  | [] => tick.turn
  | _ :: _ => tick

variable (setting : Setting)

/-- The position after a page; an empty one leaves it. -/
def next (cursor : ClaimedErpCursor) (rows : List Row) : Option String :=
  (highWaterMark setting.dateParse rows).or cursor.watermark

/-- One step of `runIncrementalTick`. -/
def react (cursors : CursorId → Cursor) (tick : Tick) (answer : Answer) : Tick × Change :=
  match tick.stage, answer with
  | .claiming, .goes _ _ =>
    match tick.todo with
    | [] => (tick.turn, .nothing)
    | cursor :: rest =>
      if (cursors cursor.id).claimable then
        (ready { tick with todo := rest, claimed := tick.claimed ++ [cursor] }, .claims cursor.id)
      else (ready { tick with todo := rest }, .nothing)
  | .claiming, .fails _ applied =>
    match tick.todo, applied with
    | cursor :: _, some _ =>
      (tick.goes .done, if (cursors cursor.id).claimable then .claims cursor.id else .nothing)
    | _, _ => (tick.goes .done, .nothing)
  | .loading cursor, .goes _ _ =>
    if setting.served cursor.id then (tick.goes (.connecting cursor), .nothing)
    else (tick.goes (.failing cursor syncTargetAbsent false), .nothing)
  | .loading cursor, .absent => (tick.goes (.failing cursor syncTargetAbsent false), .nothing)
  | .loading _, .fails _ _ => (tick.goes .done, .nothing)
  | .connecting cursor, .goes _ _ => (tick.goes (.reading cursor), .nothing)
  | .connecting cursor, .fails err _ => (tick.goes (.failing cursor err false), .nothing)
  | .reading cursor, .rows page =>
    if setting.landsOnBox cursor.id then (tick.goes (.landing cursor page), .nothing)
    else (tick.goes (.releasing cursor (next setting cursor page)), .nothing)
  | .reading cursor, .fails err _ => (tick.goes (.failing cursor err true), .nothing)
  | .landing cursor rows, .goes _ _ =>
    (tick.goes (.releasing cursor (next setting cursor rows)), .lands cursor.id rows)
  | .landing cursor _, .fails err _ => (tick.goes (.failing cursor err true), .nothing)
  | .releasing cursor next, .goes now _ => (tick.goes (.settled cursor), .succeeds cursor next now none)
  | .releasing cursor next, .fails err applied =>
    match applied with
    | some (now, _) => (tick.goes (.failingLate cursor err), .succeeds cursor next now none)
    | none => (tick.goes (.failing cursor err true), .nothing)
  | .settled _, .goes _ _ => (tick.turn, .nothing)
  | .settled cursor, .fails err _ => (tick.goes (.failingLate cursor err), .nothing)
  | .failing cursor err _, .goes now waitMs => (tick.goes .noting, .fails cursor err now waitMs)
  | .failing cursor err _, .fails _ applied =>
    match applied with
    | some (now, waitMs) => (tick.goes .done, .fails cursor err now waitMs)
    | none => (tick.goes .done, .nothing)
  | .failingLate cursor err, .goes now waitMs => (tick.goes .noting, .fails cursor err now waitMs)
  | .failingLate cursor err, .fails _ applied =>
    match applied with
    | some (now, waitMs) => (tick.goes .done, .fails cursor err now waitMs)
    | none => (tick.goes .done, .nothing)
  | .noting, .goes _ _ => (tick.turn, .nothing)
  | .noting, .fails _ _ => (tick.goes .done, .nothing)
  | _, _ => (tick, .nothing)

end Tick

inductive SweepStage where
  | connecting
  | incremental (cursor : ClaimedErpCursor)
  | full (cursor : ClaimedErpCursor)
  | landing (cursor : ClaimedErpCursor) (rows : List Row)
  /-- The drift is recorded. -/
  | recording (cursor : ClaimedErpCursor) (rows : List Row)
  | releasing (cursor : ClaimedErpCursor) (rows : List Row)
  /-- Maybe at a cursor it reads. -/
  | failing (reads : Option ClaimedErpCursor) (err : SyncFailureLike)
  | noting
  | done

structure Sweep where
  connection : ConnectionId
  at_ : ℤ
  due : List ClaimedErpCursor
  todo : List ClaimedErpCursor
  /-- How many entities have a drift, which is also where a failure is looked up. -/
  drifted : ℕ := 0
  stage : SweepStage := .connecting

namespace Sweep

def goes (sweep : Sweep) (stage : SweepStage) : Sweep := { sweep with stage }

variable (setting : Setting)

/-- On to the next row that is served. -/
def turn (sweep : Sweep) : Sweep :=
  match sweep.todo.dropWhile fun cursor => !setting.served cursor.id with
  | [] => { sweep with todo := [], stage := .noting }
  | cursor :: rest => { sweep with todo := rest, stage := .incremental cursor }

/-- Past the end it is the first one, as if it had not failed before. -/
def charged (sweep : Sweep) : Option ClaimedErpCursor :=
  sweep.due[sweep.drifted]?.or
    (sweep.due.head?.map fun cursor => { cursor with consecutiveFailures := 0 })

/-- One step of `runReconciliationSweep`, within a connection. -/
def react (sweep : Sweep) (answer : Answer) : Sweep × Change :=
  match sweep.stage, answer with
  | .connecting, .absent => (sweep.goes .done, .nothing)
  | .connecting, .goes _ _ => (sweep.turn setting, .nothing)
  | .connecting, .fails err _ => (sweep.goes (.failing none err), .nothing)
  | .incremental cursor, .rows _ => (sweep.goes (.full cursor), .nothing)
  | .incremental cursor, .fails err _ => (sweep.goes (.failing (some cursor) err), .nothing)
  | .full cursor, .rows page =>
    if setting.landsOnBox cursor.id then (sweep.goes (.landing cursor page), .nothing)
    else ({ sweep with drifted := sweep.drifted + 1, stage := .recording cursor page }, .nothing)
  | .full cursor, .fails err _ => (sweep.goes (.failing (some cursor) err), .nothing)
  | .landing cursor rows, .goes _ _ =>
    ({ sweep with drifted := sweep.drifted + 1, stage := .recording cursor rows },
      .lands cursor.id rows)
  | .landing cursor _, .fails err _ => (sweep.goes (.failing (some cursor) err), .nothing)
  | .recording cursor rows, .goes _ _ => (sweep.goes (.releasing cursor rows), .nothing)
  | .recording cursor _, .fails err _ => (sweep.goes (.failing (some cursor) err), .nothing)
  | .releasing cursor rows, .goes _ _ =>
    (sweep.turn setting,
      .succeeds cursor (Tick.next setting cursor rows) sweep.at_ (some sweep.at_))
  | .releasing cursor rows, .fails err applied =>
    match applied with
    | some _ =>
      (sweep.goes (.failing none err),
        .succeeds cursor (Tick.next setting cursor rows) sweep.at_ (some sweep.at_))
    | none => (sweep.goes (.failing (some cursor) err), .nothing)
  | .failing _ err, .goes _ waitMs =>
    match sweep.charged with
    | some cursor => (sweep.goes .noting, .fails cursor err sweep.at_ waitMs)
    | none => (sweep.goes .noting, .nothing)
  | .failing _ err, .fails _ applied =>
    match sweep.charged, applied with
    | some cursor, some (_, waitMs) => (sweep.goes .done, .fails cursor err sweep.at_ waitMs)
    | _, _ => (sweep.goes .done, .nothing)
  | .noting, .goes _ _ => (sweep.goes .done, .nothing)
  | .noting, .fails _ _ => (sweep.goes .done, .nothing)
  | _, _ => (sweep, .nothing)

end Sweep

inductive Execution where
  | tick (tick : Tick)
  | sweep (sweep : Sweep)

structure World where
  cursors : CursorId → Cursor
  executions : List Execution
  /-- The vendor's rows, in the order they became visible. -/
  data : CursorId → List Row
  /-- The rows that were passed to a `land` that completed. -/
  landed : CursorId → List Row

def World.start : World where
  cursors := fun _ => UNSTARTED_ERP_CURSOR
  executions := []
  data := fun _ => []
  landed := fun _ => []

inductive Event where
  /-- A tick reads its candidates. -/
  | tick (now : ℤ) (ids : List CursorId)
  /-- A sweep reads the due cursors of a connection. -/
  | sweep (now : ℤ) (connection : ConnectionId) (ids : List CursorId)
  | proceed (i : ℕ) (answer : Answer)
  | disconnect (connection : ConnectionId)
  | crash (i : ℕ)
  /-- A row becomes visible at the vendor's. -/
  | appears (id : CursorId) (row : Row)

section Vendor

variable (setting : Setting)

def after (since : Option String) (row : Row) : Bool :=
  match since.bind (isoInstant setting.dateParse), position setting.dateParse row with
  | some since, some at_ => since < at_
  | _, _ => true

/-- Every visible row after `since`, and others that are visible. -/
def answers (since : Option String) (visible page : List Row) : Bool :=
  page.all (fun row => visible.contains row) &&
    visible.all fun row => !after setting since row || page.contains row

def grows (visible : List Row) (row : Row) : Bool :=
  match position setting.dateParse row with
  | some at_ =>
    visible.all fun other => match position setting.dateParse other with
      | some before => before < at_
      | none => false
  | none => false

end Vendor

namespace Execution

variable (setting : Setting) (world : World)

/-- Is this page one the vendor may give? -/
def fits : Execution → Answer → Bool
  | .tick running, .rows page =>
    match running.stage with
    | .reading cursor => answers setting cursor.watermark (world.data cursor.id) page
    | _ => true
  | .sweep running, .rows page =>
    match running.stage with
    | .incremental cursor => answers setting cursor.watermark (world.data cursor.id) page
    | .full cursor => answers setting none (world.data cursor.id) page
    | _ => true
  | _, _ => true

def react : Execution → Answer → Execution × Change
  | .tick running, answer =>
    let (next, change) := running.react setting world.cursors answer
    (.tick next, change)
  | .sweep running, answer =>
    let (next, change) := running.react setting answer
    (.sweep next, change)

def crashed : Execution → Execution
  | .tick running => .tick (running.goes .done)
  | .sweep running => .sweep (running.goes .done)

end Execution

namespace World

variable (setting : Setting)

def setCursor (world : World) (id : CursorId) (cursor : Cursor) : World :=
  { world with cursors := Function.update world.cursors id cursor }

def apply (world : World) : Change → World
  | .nothing => world
  | .claims id => world.setCursor id ((world.cursors id).claim.getD (world.cursors id))
  | .lands id rows =>
    { world with landed := Function.update world.landed id (world.landed id ++ rows) }
  | .succeeds cursor watermark now sweptAt =>
    world.setCursor cursor.id ((world.cursors cursor.id).releaseSuccess watermark now sweptAt)
  | .fails cursor err now waitMs =>
    world.setCursor cursor.id
      ((world.cursors cursor.id).releaseFailure cursor.consecutiveFailures err now waitMs)

def proceed (world : World) (i : ℕ) (answer : Answer) : World :=
  match world.executions[i]? with
  | none => world
  | some execution =>
    if execution.fits setting world answer then
      let (next, change) := execution.react setting world answer
      { world.apply change with executions := world.executions.set i next }
    else world

def step (world : World) : Event → World
  | .tick now ids =>
    if decide ids.Nodup && ids.all fun id => (world.cursors id).due now then
      { world with executions := world.executions ++
          [.tick { todo := ids.map fun id => (world.cursors id).snapshot id }] }
    else world
  | .sweep now connection ids =>
    if decide ids.Nodup && ids.all (fun id => setting.connectionOf id = connection) && !ids.isEmpty then
      let due := ids.map fun id => (world.cursors id).snapshot id
      { world with executions := world.executions ++
          [.sweep { connection, at_ := now, due, todo := due }] }
    else world
  | .proceed i answer => world.proceed setting i answer
  | .disconnect connection =>
    { world with cursors := fun id =>
        if setting.connectionOf id = connection then (world.cursors id).reset
        else world.cursors id }
  | .crash i =>
    match world.executions[i]? with
    | none => world
    | some execution => { world with executions := world.executions.set i execution.crashed }
  | .appears id row =>
    if grows setting (world.data id) row then
      { world with data := Function.update world.data id (world.data id ++ [row]) }
    else world

def runs (world : World) (events : List Event) : World := Stepping.run (step setting) world events

end World

end Droplet.ErpSync
