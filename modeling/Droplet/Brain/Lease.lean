import Droplet.Lib.InsertionMap

/-! The lease a brain pass is held under while it runs, and the runs that claim, beat and release it
from several processes. -/

namespace Droplet.Brain

open Droplet.Lib

abbrev PassKey := String

/-- `WORKER_ID`: a UUID each process draws for itself, so it names the process. -/
abbrev WorkerId := ℕ

/-- A place in the list of `runWithLease` calls. -/
abbrev RunId := ℕ

def BRAIN_LEASE_MS : ℤ := 15 * 60000

inductive RunState where
  | idle
  | running
  deriving DecidableEq

/-- The row of a pass, as far as the lease reads or writes it. -/
structure BrainPass where
  enabled : Bool
  runState : RunState
  claimedBy : Option WorkerId
  claimedAt : Option ℤ
  heartbeatAt : Option ℤ
  lastRunAt : Option ℤ

/-- What the upsert at boot creates. -/
def BrainPass.seeded : BrainPass := ⟨true, .idle, none, none, none, none⟩

def BrainPass.claimable (now : ℤ) (row : BrainPass) : Bool :=
  row.enabled &&
    (row.runState == .idle ||
      row.runState == .running &&
        match row.heartbeatAt with
        | none => true
        | some heartbeatAt => decide (heartbeatAt < now - BRAIN_LEASE_MS))

/-- The fence of a heartbeat and of a release. -/
def BrainPass.heldBy (workerId : WorkerId) (row : BrainPass) : Bool :=
  row.runState == .running && row.claimedBy == some workerId

def BrainPass.claimed (workerId : WorkerId) (now : ℤ) (row : BrainPass) : BrainPass :=
  { row with
    runState := .running
    claimedBy := some workerId
    claimedAt := some now
    heartbeatAt := some now
    lastRunAt := some now }

def BrainPass.beaten (now : ℤ) (row : BrainPass) : BrainPass := { row with heartbeatAt := some now }

def BrainPass.released (row : BrainPass) : BrainPass :=
  { row with
    runState := .idle
    claimedBy := none
    claimedAt := none
    heartbeatAt := none }

inductive Statement where
  | claim (now : ℤ)
  /-- Why a claim was lost. -/
  | lookUp
  | beat (now : ℤ)
  | release
  deriving DecidableEq

inductive Answer where
  | count (rows : ℕ)
  | enabled (found : Option Bool)
  deriving DecidableEq

/-- `updateMany` on one key: the key names at most one row. -/
def updateMany (where_ : BrainPass → Bool) (data : BrainPass → BrainPass) (row : Option BrainPass) :
    Option BrainPass × Answer :=
  match row with
  | none => (none, .count 0)
  | some row => if where_ row then (some (data row), .count 1) else (some row, .count 0)

def Statement.execute (workerId : WorkerId) (row : Option BrainPass) :
    Statement → Option BrainPass × Answer
  | .claim now => updateMany (BrainPass.claimable now) (BrainPass.claimed workerId now) row
  | .lookUp => (row, .enabled (row.map BrainPass.enabled))
  | .beat now => updateMany (BrainPass.heldBy workerId) (BrainPass.beaten now) row
  | .release => updateMany (BrainPass.heldBy workerId) BrainPass.released row

inductive Refusal where
  | busy
  | disabled
  | missing
  | shuttingDown
  | threw
  deriving DecidableEq

/-- Where a call of `runWithLease` is. -/
inductive Stage where
  | claiming
  | asking
  /-- Won after the latch: waits for its release. -/
  | handingBack
  /-- The pass is at work and the timer is set. -/
  | running
  /-- The timer is cleared: waits for its release. -/
  | releasing
  | finished
  | refused (reason : Refusal)
  deriving DecidableEq

structure Run where
  workerId : WorkerId
  passKey : PassKey
  stage : Stage
  aborted : Bool

inductive Promise where
  | attempt (run : RunId)
  | done (run : RunId)
  deriving DecidableEq

inductive Shutdown where
  | notCalled
  | awaiting (promises : List Promise)
  | returned
  deriving DecidableEq

structure Process where
  pending : List RunId
  inFlight : InsertionMap PassKey RunId
  /-- The call of `releaseAllPasses`. -/
  shutdown : Shutdown

def Process.fresh : Process := ⟨[], .empty, .notCalled⟩

/-- The latch: `releaseAllPasses` sets it first, and nothing clears it. -/
def Process.shuttingDown (process : Process) : Bool := process.shutdown != .notCalled

/-- The loop of `releaseAllPasses`: return, or wait for all there is. -/
def Process.drain (process : Process) : Process :=
  { process with
    shutdown :=
      if process.pending.isEmpty && process.inFlight.entries.isEmpty then .returned
      else .awaiting (process.pending.map .attempt ++
        process.inFlight.entries.map fun entry => .done entry.2) }

/-- A statement on its way: the database runs it at most once, whenever it arrives. -/
structure Request where
  run : RunId
  statement : Statement
  answer : Option Answer
  awaited : Bool

/-- What the database did for a run, and what its heartbeats told it. -/
inductive Entry where
  | won (run : RunId) (passKey : PassKey)
  | beat (run : RunId) (passKey : PassKey) (held : Bool)
  | released (run : RunId) (passKey : PassKey) (held : Bool)
  | told (run : RunId) (held : Bool)
  deriving DecidableEq

structure World where
  passes : PassKey → Option BrainPass
  runs : List Run
  processes : WorkerId → Process
  requests : List Request
  log : List Entry

def emptyWorld : World := ⟨fun _ => none, [], fun _ => .fresh, [], []⟩

def World.send (world : World) (run : RunId) (statement : Statement) : World :=
  { world with requests := world.requests ++ [⟨run, statement, none, true⟩] }

def World.setStage (world : World) (id : RunId) (stage : Stage) : World :=
  { world with runs := world.runs.modify id fun run => { run with stage := stage } }

def World.abort (world : World) (id : RunId) : World :=
  { world with runs := world.runs.modify id fun run => { run with aborted := true } }

def World.note (world : World) (entry : Entry) : World := { world with log := world.log ++ [entry] }

def World.onProcess (world : World) (workerId : WorkerId) (change : Process → Process) : World :=
  { world with
    processes := Function.update world.processes workerId (change (world.processes workerId)) }

@[simp] theorem World.onProcess_self (world : World) (workerId : WorkerId) (change : Process → Process) :
    (world.onProcess workerId change).processes workerId = change (world.processes workerId) := by
  simp [onProcess]

theorem World.onProcess_other (world : World) {workerId other : WorkerId} (differs : other ≠ workerId)
    (change : Process → Process) : (world.onProcess workerId change).processes other = world.processes other := by
  simp [onProcess, differs]

/-- The `finally` of `runWithLease`. -/
def World.settleAttempt (world : World) (id : RunId) (run : Run) : World :=
  world.onProcess run.workerId fun process => { process with pending := process.pending.erase id }

def World.refuse (world : World) (id : RunId) (run : Run) (reason : Refusal) : World :=
  (world.setStage id (.refused reason)).settleAttempt id run

/-- `runWithLease` up to its first await. -/
def World.runWithLease (world : World) (workerId : WorkerId) (passKey : PassKey) (now : ℤ) : World :=
  if (world.processes workerId).shuttingDown then
    { world with
      runs := world.runs ++ [⟨workerId, passKey, .refused .shuttingDown, false⟩] }
  else
    let called : World :=
      { world with
        runs := world.runs ++ [⟨workerId, passKey, .claiming, false⟩] }
    (called.onProcess workerId fun process =>
      { process with
        pending := process.pending ++ [world.runs.length] }).send world.runs.length (.claim now)

/-- The claim is won: hand it back after the latch, else start the pass and its timer. -/
def World.startPass (world : World) (id : RunId) (run : Run) : World :=
  if (world.processes run.workerId).shuttingDown then
    (world.setStage id .handingBack).send id .release
  else
    (((world.setStage id .running).onProcess run.workerId
      fun process => { process with inFlight := process.inFlight.set run.passKey id })).settleAttempt
        id run

def World.afterClaim (world : World) (id : RunId) (run : Run) : Option Answer → World
  | some (.count 1) => world.startPass id run
  | some _ => (world.setStage id .asking).send id .lookUp
  | none => world.refuse id run .threw

def World.afterLookUp (world : World) (id : RunId) (run : Run) : Option Answer → World
  | some (.enabled (some true)) => world.refuse id run .busy
  | some (.enabled (some false)) => world.refuse id run .disabled
  | some _ => world.refuse id run .missing
  | none => world.refuse id run .threw

/-- The pass has released or failed to: the end of `done`. -/
def World.finish (world : World) (id : RunId) (run : Run) : World :=
  (world.setStage id .finished).onProcess run.workerId
    fun process => { process with inFlight := process.inFlight.delete run.passKey }

def World.afterBeat (world : World) (id : RunId) : Option Answer → World
  | some (.count 1) => world.note (.told id true)
  | some _ => (world.abort id).note (.told id false)
  | none => world

/-- The outcome of a statement comes back: `none` is a rejection. -/
def World.react (world : World) (id : RunId) (run : Run) (statement : Statement)
    (outcome : Option Answer) : World :=
  match statement, run.stage with
  | .claim _, .claiming => world.afterClaim id run outcome
  | .lookUp, .asking => world.afterLookUp id run outcome
  | .release, .handingBack => world.refuse id run .shuttingDown
  | .release, .releasing => world.finish id run
  | .beat _, _ => world.afterBeat id outcome
  | _, _ => world

def Entry.of (id : RunId) (passKey : PassKey) : Statement → Answer → List Entry
  | .claim _, .count 1 => [.won id passKey]
  | .beat _, answer => [.beat id passKey (answer == .count 1)]
  | .release, answer => [.released id passKey (answer == .count 1)]
  | _, _ => []

def World.execute (world : World) (place : ℕ) (request : Request) (run : Run) : World :=
  let (row, answer) := request.statement.execute run.workerId (world.passes run.passKey)
  { world with
    passes := Function.update world.passes run.passKey row
    requests := world.requests.set place { request with answer := some answer }
    log := world.log ++ Entry.of request.run run.passKey request.statement answer }

def World.hear (world : World) (place : ℕ) (request : Request) : World :=
  { world with requests := world.requests.set place { request with awaited := false } }

def Promise.settled (runs : List Run) : Promise → Bool
  | .attempt id =>
    match runs[id]? with
    | none => true
    | some run => run.stage != .claiming && run.stage != .asking && run.stage != .handingBack
  | .done id =>
    match runs[id]? with
    | none => true
    | some run => run.stage == .finished

inductive Event where
  /-- The upsert at boot. -/
  | seed (passKey : PassKey)
  /-- The switch an operator throws. -/
  | enable (passKey : PassKey) (enabled : Bool)
  | call (workerId : WorkerId) (passKey : PassKey) (now : ℤ)
  /-- The timer of a running pass fires. -/
  | timer (run : RunId) (now : ℤ)
  /-- The pass resolves or rejects. -/
  | passEnds (run : RunId)
  | execute (request : ℕ)
  | deliver (request : ℕ)
  /-- The client sees an error, whatever becomes of the statement. -/
  | reject (request : ℕ)
  | releaseAllPasses (workerId : WorkerId)
  /-- All the promises a shutdown waits for have settled. -/
  | wake (workerId : WorkerId)

def World.seed (world : World) (passKey : PassKey) : World :=
  { world with
    passes := Function.update world.passes passKey
      (some ((world.passes passKey).getD .seeded)) }

def World.enable (world : World) (passKey : PassKey) (enabled : Bool) : World :=
  { world with
    passes := Function.update world.passes passKey
      ((world.passes passKey).map fun row => { row with enabled := enabled }) }

def World.timer (world : World) (id : RunId) (now : ℤ) : World :=
  match world.runs[id]? with
  | some run => if run.stage = .running then world.send id (.beat now) else world
  | none => world

def World.passEnds (world : World) (id : RunId) : World :=
  match world.runs[id]? with
  | some run =>
    if run.stage = .running then (world.setStage id .releasing).send id .release else world
  | none => world

def World.executeAt (world : World) (place : ℕ) : World :=
  match world.requests[place]? with
  | some request =>
    match request.answer, world.runs[request.run]? with
    | none, some run => world.execute place request run
    | _, _ => world
  | none => world

def World.settleAt (world : World) (place : ℕ) (request : Request) (outcome : Option Answer) : World :=
  match world.runs[request.run]? with
  | some run =>
    if request.awaited then
      (world.hear place request).react request.run run request.statement outcome
    else world
  | none => world

def World.deliverAt (world : World) (place : ℕ) : World :=
  match world.requests[place]? with
  | some request =>
    match request.answer with
    | some answer => world.settleAt place request (some answer)
    | none => world
  | none => world

def World.rejectAt (world : World) (place : ℕ) : World :=
  match world.requests[place]? with
  | some request => world.settleAt place request none
  | none => world

def World.releaseAllPasses (world : World) (workerId : WorkerId) : World :=
  if (world.processes workerId).shutdown = .notCalled then
    world.onProcess workerId Process.drain
  else world

def World.wake (world : World) (workerId : WorkerId) : World :=
  match (world.processes workerId).shutdown with
  | .awaiting promises =>
    if promises.all (Promise.settled world.runs) then world.onProcess workerId Process.drain
    else world
  | _ => world

def World.step (world : World) : Event → World
  | .seed passKey => world.seed passKey
  | .enable passKey enabled => world.enable passKey enabled
  | .call workerId passKey now => world.runWithLease workerId passKey now
  | .timer run now => world.timer run now
  | .passEnds run => world.passEnds run
  | .execute request => world.executeAt request
  | .deliver request => world.deliverAt request
  | .reject request => world.rejectAt request
  | .releaseAllPasses workerId => world.releaseAllPasses workerId
  | .wake workerId => world.wake workerId

end Droplet.Brain
