import Droplet.Runs.Calls

/-! The row of a background run, and every statement that changes it. The columns nothing here reads
(the goal, the conversation, results and the marks of the result delivery) are left out. -/

namespace Droplet.Runs

open Confirm

/-- One dispatched tool call, as persisted in the trace. -/
structure AgentRunTraceEntry where
  tool_call_id : String
  tool : String
  args : Args
  /-- Absolute iteration within the run. -/
  iteration : ℕ
  /-- Absent while no outcome has been recorded. -/
  text : Option String := none
  isError : Option Bool := none
  replayOf : Option String := none
  confirmation : Option Confirmation := none
  unknownOutcome : Bool := false

def AgentRunTraceEntry.key (entry : AgentRunTraceEntry) : List Char := canonical entry.args

inductive AgentRunStatus where
  | queued
  | running
  | awaiting_confirmation
  | succeeded
  | failed
  | cancelled
  deriving DecidableEq

def AgentRunStatus.final : AgentRunStatus → Bool
  | .succeeded => true
  | .failed => true
  | .cancelled => true
  | _ => false

inductive AgentRunDecision where
  | approved
  | denied

/-- The columns of a parked call, which are written and cleared together. -/
structure PendingCall where
  tool : String
  bindingHash : Option String
  args : Option Args
  toolCallId : Option String

abbrev WorkerId := ℕ

structure AgentRun where
  status : AgentRunStatus
  runAfter : ℤ
  claimedBy : Option WorkerId
  claimedAt : Option ℤ
  heartbeatAt : Option ℤ
  startedAt : Option ℤ
  deadlineAt : Option ℤ
  attempts : ℕ
  maxIter : ℕ
  iteration : ℕ
  trace : List AgentRunTraceEntry
  pending : Option PendingCall
  pendingDecision : Option AgentRunDecision
  parkedAt : Option ℤ
  /-- How often the run was parked. No column: nothing reads it but what is proved. -/
  parks : ℕ

/-- The row as `enqueueAgentRun` creates it. -/
def enqueued (maxIter : ℕ) (runAfter : ℤ) : AgentRun where
  status := .queued
  runAfter := runAfter
  claimedBy := none
  claimedAt := none
  heartbeatAt := none
  startedAt := none
  deadlineAt := none
  attempts := 0
  maxIter := maxIter
  iteration := 0
  trace := []
  pending := none
  pendingDecision := none
  parkedAt := none
  parks := 0

def ACTIVE_AGENT_RUN_STATUSES : List AgentRunStatus := [.queued, .running, .awaiting_confirmation]

namespace AgentRun

/-! ### Statements

Each one is a conditional update of the one row: `none` where its count is 0. -/

def clearPending (run : AgentRun) : AgentRun :=
  { run with pending := none, pendingDecision := none, parkedAt := none }

/-- The transaction of `claim`. -/
def claim (maxWallMs : ℤ) (worker : WorkerId) (now : ℤ) (run : AgentRun) : Option AgentRun :=
  if run.status = .queued then
    some { run with
      status := .running
      claimedBy := some worker
      claimedAt := some now
      heartbeatAt := some now
      startedAt := some (run.startedAt.getD now)
      deadlineAt := if run.startedAt = none then some (now + maxWallMs) else run.deadlineAt }
  else none

/-- Back to the queue, without the lease. -/
def unclaimed (runAfter : ℤ) (run : AgentRun) : AgentRun :=
  { run with
    status := .queued
    claimedBy := none
    claimedAt := none
    heartbeatAt := none
    runAfter := runAfter }

/-- What `reclaimStale` read of a stale row. -/
structure Stale where
  attempts : ℕ
  claimedBy : Option WorkerId

/-- Conditioned on the same `claimedBy` that was read. -/
def Stale.fence (stale : Stale) (run : AgentRun) : Bool :=
  run.status = .running && run.claimedBy = stale.claimedBy

def giveUp (stale : Stale) (run : AgentRun) : Option AgentRun :=
  if stale.fence run then some { run.clearPending with status := .failed } else none

def requeue (stale : Stale) (now : ℤ) (run : AgentRun) : Option AgentRun :=
  if stale.fence run then some { run.unclaimed now with attempts := run.attempts + 1 } else none

def cancel (run : AgentRun) : Option AgentRun :=
  if run.status ∈ ACTIVE_AGENT_RUN_STATUSES then
    some { run.clearPending with status := .cancelled }
  else none

def decide (decision : AgentRunDecision) (now : ℤ) (deadlineAt : Option ℤ) (run : AgentRun) :
    Option AgentRun :=
  if run.status = .awaiting_confirmation then
    some { run with
      status := .queued
      runAfter := now
      pendingDecision := some decision
      deadlineAt := deadlineAt }
  else none

/-- The condition every statement of an executor carries. Without a lease in the worker's memory the
claim's instant is not asked for. -/
structure Fence where
  worker : WorkerId
  lease : Option ℤ

def Fence.owns (fence : Fence) (run : AgentRun) : Bool :=
  run.claimedBy = some fence.worker && (fence.lease = none || run.claimedAt = fence.lease)

def beat (fence : Fence) (now : ℤ) (run : AgentRun) : Option AgentRun :=
  if fence.owns run && run.status = .running then some { run with heartbeatAt := some now } else none

/-- The statement of `releaseAll`. -/
def release (fence : Fence) (now : ℤ) (run : AgentRun) : Option AgentRun :=
  if fence.owns run && run.status = .running then some (run.unclaimed now) else none

/-- What an execution writes to its row. -/
inductive Patch where
  /-- The verdict of the cloud gate. -/
  | gate
  | checkpoint (iteration : ℕ) (now : ℤ)
  | trace (entries : List AgentRunTraceEntry) (now : ℤ)
  /-- The trace, and no more pending call. -/
  | consume (entries : List AgentRunTraceEntry) (now : ℤ)
  | complete (entries : List AgentRunTraceEntry) (iteration : ℕ) (now : ℤ)
  | park (entries : List AgentRunTraceEntry) (request : PendingCall) (now : ℤ)
  /-- Handed back to the queue, at the same checkpoint. -/
  | giveWay (runAfter : ℤ)
  /-- A terminal write. -/
  | finish (success : Bool) (iteration : Option ℕ)
  /-- Where the loop of a cancelled run got to. -/
  | note (iteration : ℕ)

def Patch.apply (run : AgentRun) : Patch → AgentRun
  | .gate => run
  | .checkpoint iteration now => { run with iteration, heartbeatAt := some now }
  | .trace entries now => { run with trace := entries, heartbeatAt := some now }
  | .consume entries now => { run.clearPending with trace := entries, heartbeatAt := some now }
  | .complete entries iteration now =>
    { run.clearPending with trace := entries, iteration, heartbeatAt := some now }
  | .park entries request now =>
    { run with
      status := .awaiting_confirmation
      trace := entries
      claimedBy := none
      claimedAt := none
      heartbeatAt := none
      parkedAt := some now
      pending := some request
      pendingDecision := none
      parks := run.parks + 1 }
  | .giveWay runAfter => run.unclaimed runAfter
  | .finish success iteration =>
    { run.clearPending with
      status := if success then .succeeded else .failed
      iteration := iteration.getD run.iteration }
  | .note iteration => { run.clearPending with iteration }

/-- The status a row must have for the write; only a cancelled run's note is about one that ended. -/
def Patch.on : Patch → AgentRunStatus
  | .note _ => .cancelled
  | _ => .running

/-- `finish`, which every write of an execution goes through. -/
def finish (fence : Fence) (patch : Patch) (run : AgentRun) : Option AgentRun :=
  if fence.owns run && run.status = patch.on then some (patch.apply run) else none

end AgentRun

end Droplet.Runs
