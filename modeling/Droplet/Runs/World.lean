import Droplet.Runs.Execution

/-! One background run and every process that works on it: ticks, heartbeats, executions, releases and
crashes of any number of workers, and what its owner does. Other runs only take time and capacity, so
they show as steps that do not come. -/

namespace Droplet.Runs

/-- Where `tickOnce` waits. -/
inductive Tick where
  | idle
  | reading (now : ℤ)
  /-- The run is among the stale ones. -/
  | reclaiming (now : ℤ) (stale : AgentRun.Stale)
  | choosing (now : ℤ)
  /-- The run is a candidate. -/
  | claiming (now : ℤ)
  | won (now : ℤ)
  /-- The other candidates. -/
  | leaving

/-- Where `heartbeatOnce` waits. -/
inductive Beat where
  | idle
  | beating (now : ℤ)

/-- Where `releaseAll` waits. -/
inductive Shutdown where
  | idle
  | settling (held : Option ℤ)

/-- The memory of a worker, as far as it is about this run. -/
structure Worker where
  inFlight : Bool := false
  lease : Option ℤ := none
  stopReason : Option StopReason := none
  tick : Tick := .idle
  beat : Beat := .idle
  shutdown : Shutdown := .idle

/-- `stop`: the first reason is kept. -/
def Worker.stop (worker : Worker) (reason : Option StopReason) : Worker :=
  { worker with stopReason := worker.stopReason.or reason }

def Worker.fence (worker : Worker) (id : WorkerId) : AgentRun.Fence := ⟨id, worker.lease⟩

/-- A decision whose checks have been passed, on the row as it was then. -/
structure Decider where
  decision : AgentRunDecision
  parkedAt : Option ℤ
  deadlineAt : Option ℤ

structure World where
  run : AgentRun
  workers : WorkerId → Worker
  executions : List Execution
  deciders : List Decider
  log : List Happening

def World.start (run : AgentRun) : World where
  run := run
  workers := fun _ => {}
  executions := []
  deciders := []
  log := []

inductive TickMove where
  | start (now : ℤ)
  /-- The stale rows are read; the run may be left out of them. -/
  | stale (listed : Bool)
  | reclaim
  /-- The candidates are read; there may be no room for the run. -/
  | choose (listed : Bool)
  /-- The claim's answer may be lost. -/
  | claim (lost : Bool)
  | launch
  | leave
  /-- A statement throws before it is applied. -/
  | fails

inductive BeatMove where
  | look (now : ℤ)
  | beat
  | fails

inductive ShutdownMove where
  | start
  | release (now : ℤ)

inductive Event where
  | execute (i : ℕ) (answer : Answer)
  | tick (worker : WorkerId) (move : TickMove)
  | heartbeat (worker : WorkerId) (move : BeatMove)
  | release (worker : WorkerId) (move : ShutdownMove)
  | crash (worker : WorkerId)
  | cancel
  /-- `decideAgentRun` reads the row and checks who decides, and an approval against the reach. -/
  | decide (decision : AgentRunDecision) (allowed : Bool)
  /-- It writes the decision. -/
  | decided (i : ℕ) (now : ℤ)

namespace World

variable (setting : Setting)

def setWorker (world : World) (id : WorkerId) (worker : Worker) : World :=
  { world with workers := Function.update world.workers id worker }

def note (world : World) (happened : List Happening) : World :=
  { world with log := world.log ++ happened }

def tickTo (world : World) (id : WorkerId) (tick : Tick) : World :=
  world.setWorker id { world.workers id with tick }

def leave (world : World) (id : WorkerId) : World := world.tickTo id .idle

def isStale (run : AgentRun) (now : ℤ) : Bool :=
  run.status = .running &&
    match run.heartbeatAt with
    | some beat => beat < now - setting.reclaimAfterMs
    | none => false

/-- One row of `reclaimStale`. -/
def reclaim (world : World) (now : ℤ) (stale : AgentRun.Stale) : World :=
  if setting.maxAttempts ≤ stale.attempts then
    { world with run := (world.run.giveUp stale).getD world.run }
  else
    match world.run.requeue stale now with
    | some run => { world with run }.note [.requeued]
    | none => world

/-- `tickOnce`, at most once at a time in a process. The advisory lock may be lost, so ticks of several
processes overlap. -/
def tickStep (world : World) (id : WorkerId) (move : TickMove) : World :=
  match (world.workers id).tick, move with
  | .idle, .start now => world.tickTo id (.reading now)
  | .reading now, .stale listed =>
    if listed && isStale setting world.run now then
      world.tickTo id (.reclaiming now ⟨world.run.attempts, world.run.claimedBy⟩)
    else world.tickTo id (.choosing now)
  | .reclaiming now stale, .reclaim => (world.reclaim setting now stale).tickTo id (.choosing now)
  | .choosing now, .choose listed =>
    if listed && world.run.status = .queued && world.run.runAfter ≤ now && !(world.workers id).inFlight then
      world.tickTo id (.claiming now)
    else world.tickTo id .leaving
  | .claiming now, .claim lost =>
    match world.run.claim setting.maxWallMs id now with
    | none => world.tickTo id .leaving
    | some run =>
      let claimed := { world with run }.note [.claimed id now]
      if lost then claimed.leave id else claimed.tickTo id (.won now)
  | .won now, .launch =>
    { world.setWorker id
        { world.workers id with inFlight := true, lease := some now, tick := .leaving } with
      executions := world.executions ++ [{ worker := id, claimedAt := now }] }
  | .leaving, .leave => world.leave id
  | .idle, .fails => world
  | .won _, .fails => world
  | _, .fails => world.leave id
  | _, _ => world

/-- `heartbeatOnce`, for a run in flight. -/
def beatStep (world : World) (id : WorkerId) (move : BeatMove) : World :=
  match (world.workers id).beat, move with
  | .idle, .look now =>
    if (world.workers id).inFlight then
      match observe ((world.workers id).fence id) now world.run with
      | some reason => world.setWorker id ((world.workers id).stop (some reason))
      | none => world.setWorker id { world.workers id with beat := .beating now }
    else world
  | .beating now, .beat =>
    match world.run.beat ((world.workers id).fence id) now with
    | some run => { world.setWorker id { world.workers id with beat := .idle } with run }
    | none => world.setWorker id ({ world.workers id with beat := .idle }.stop (some .fenced))
  | .beating _, .fails => world.setWorker id { world.workers id with beat := .idle }
  | _, _ => world

/-- `releaseAll`: the row is handed back once the execution has settled. -/
def releaseStep (world : World) (id : WorkerId) (move : ShutdownMove) : World :=
  match (world.workers id).shutdown, move with
  | .idle, .start =>
    if (world.workers id).inFlight then
      world.setWorker id
        ({ world.workers id with shutdown := .settling (world.workers id).lease }.stop (some .fenced))
    else world
  | .settling held, .release now =>
    if (world.workers id).inFlight && (world.workers id).lease = held then world
    else
      { world.setWorker id { world.workers id with shutdown := .idle } with
        run := (world.run.release ⟨id, held⟩ now).getD world.run }
  | _, _ => world

/-- `launch`'s `finally`, which runs when the execution has ended. -/
def settle (worker : Worker) : Worker :=
  { worker with inFlight := false, lease := none, stopReason := none }

def isEnded : Stage → Bool
  | .ended => true
  | _ => false

def executeStep (world : World) (i : ℕ) (answer : Answer) : World :=
  match world.executions[i]? with
  | none => world
  | some execution =>
    if isEnded execution.stage then world
    else
      let id := execution.worker
      let worker := world.workers id
      let reaction := execution.react setting (worker.fence id) worker.stopReason world.run answer
      let kept := if isEnded reaction.execution.stage then settle worker
        else worker.stop reaction.stop
      { world.setWorker id kept with
        run := reaction.run
        executions := world.executions.set i reaction.execution
        log := world.log ++ reaction.happened }

/-- The process is gone, with its memory and everything it was executing. -/
def crash (world : World) (id : WorkerId) : World :=
  { world.setWorker id {} with
    executions := world.executions.map fun execution =>
      if execution.worker = id then execution.goes .ended else execution }

/-- `decideAgentRun`, up to its write. -/
def decideStep (world : World) (decision : AgentRunDecision) (allowed : Bool) : World :=
  if world.run.status = .awaiting_confirmation && world.run.pending.isSome && allowed then
    { world with
      deciders := world.deciders ++ [⟨decision, world.run.parkedAt, world.run.deadlineAt⟩] }
  else world

/-- The time it was parked is not charged. -/
def Decider.deadline (decider : Decider) (now : ℤ) : Option ℤ :=
  decider.deadlineAt.map fun deadline =>
    deadline + match decider.parkedAt with
      | some parkedAt => max 0 (now - parkedAt)
      | none => 0

def decidedStep (world : World) (i : ℕ) (now : ℤ) : World :=
  match world.deciders[i]? with
  | none => world
  | some decider =>
    let rest := { world with deciders := world.deciders.eraseIdx i }
    match world.run.decide decider.decision now (Decider.deadline decider now) with
    | some run => { rest with run }.note [.decided run.parks decider.decision]
    | none => rest

def step (world : World) : Event → World
  | .execute i answer => world.executeStep setting i answer
  | .tick id move => world.tickStep setting id move
  | .heartbeat id move => world.beatStep id move
  | .release id move => world.releaseStep id move
  | .crash id => world.crash id
  | .cancel => { world with run := world.run.cancel.getD world.run }
  | .decide decision allowed => world.decideStep decision allowed
  | .decided i now => world.decidedStep i now

def runs (world : World) (events : List Event) : World := events.foldl (step setting) world

end World

end Droplet.Runs
