import Droplet.Runs.Row

/-! One execution of a claimed run (`execute` and the loop it drives), cut where it waits for the
database, a tool or the model. -/

namespace Droplet.Runs

open Confirm

/-- Why an execution stopped before the loop finished on its own. -/
inductive StopReason where
  | cancelled
  | deadline
  | fenced
  | parked
  | unknown_outcome
  | proposed

/-- What the loop came to. -/
inductive Ending where
  /-- `AgentRunStopped` was thrown. -/
  | stopped (reason : StopReason)
  /-- Another error was thrown; with a delay, where chat took the slot or the gateway was busy. -/
  | threw (yieldMs : Option ℤ)
  /-- The decided call was parked again, and the loop not entered. -/
  | reparked
  | returned (success : Bool) (iterations : ℕ)
  /-- The loop reports `ai-gateway 429`. -/
  | busy (iterations : ℕ) (yieldMs : ℤ)

/-- The loop's own count, where it has returned. -/
def Ending.iterations : Ending → Option ℕ
  | .returned _ iterations => some iterations
  | .busy iterations _ => some iterations
  | _ => none

inductive Stage where
  | reading
  | resolving
  | refusing
  | gating
  | capping
  | deciding
  | consuming (args : Args)
  | asking (args : Args)
  | asked (args : Args)
  | redeeming (args : Args)
  | redeemed (args : Args)
  | completing (tool text : String)
  | top (iter : ℕ)
  | saving (iter : ℕ)
  | thinking (iter : ℕ)
  | checking (iter : ℕ) (call : Call)
  /-- The trace has the answer; it is a replayed result, or that of a decided call. -/
  | serving (iter : ℕ) (call : Call) (text : String) (isError replay : Bool)
  | marking (iter : ℕ) (call : Call) (confirmed : Bool)
  | intending (iter : ℕ) (call : Call)
  | calling (iter : ℕ) (call : Call)
  | waiting (iter : ℕ) (call : Call)
  | recording (iter : ℕ) (call : Call) (text : String) (isError : Bool)
  | ending (ending : Ending)
  /-- Only audits and notifications are left. -/
  | closing
  | ended

structure Reach where
  /-- `toolDispatchDenial`, as the text of the refusal. -/
  denial : String → Args → Option String
  allowedTools : List String

structure DecidedCall where
  call : PendingCall
  decision : AgentRunDecision

structure Execution where
  worker : WorkerId
  /-- The instant of the claim it was launched for. -/
  claimedAt : ℤ
  stage : Stage := .reading
  reach : Reach := ⟨fun _ _ => none, []⟩
  base : ℕ := 0
  maxIter : ℕ := 0
  trace : List AgentRunTraceEntry := []
  replayed : List String := []
  decided : Option DecidedCall := none
  /-- The call to park. -/
  request : Option PendingCall := none
  /-- The calls the loop has made, by their canonical texts. -/
  executed : List (String × List Char) := []
  /-- The number of the park it read, and whether it has spent the approval of it. -/
  park : ℕ := 0
  consumed : Bool := false

/-- What an execution waits for has come. -/
inductive Answer where
  /-- The database has done what it was asked. -/
  | row (now : ℤ)
  /-- It throws; a write may have been applied, then. -/
  | fails (applied : Option ℤ)
  /-- The principal is resolved, and the cloud gate asked; `none` where the run is refused. -/
  | access (reach : Option Reach)
  /-- The call goes out. -/
  | dispatches
  | replies (text : String) (isError : Bool)
  /-- The model asks for a call. -/
  | asks (call : Call)
  /-- The iteration is over. -/
  | turns
  | returns (ending : Ending)
  | closes

inductive Happening where
  | claimed (worker : WorkerId) (now : ℤ)
  /-- Back in the queue because its lease was lost. -/
  | requeued
  | parked (park : ℕ) (call : PendingCall)
  | decided (park : ℕ) (decision : AgentRunDecision)
  /-- The first leg of the redemption, without a token. -/
  | asked (park iteration : ℕ) (tool : String) (args : Args)
  /-- The second leg, with the token. -/
  | redeemed (park iteration : ℕ) (tool : String) (args : Args) (reach : Reach)
  /-- A tool call of the loop begins. -/
  | began (iteration : ℕ) (call : Call)
  /-- It is dispatched. -/
  | dispatched (iteration : ℕ) (call : Call)
  | answered (iteration : ℕ) (call : Call) (text : String) (isError : Bool)
  | replayed (iteration : ℕ) (call : Call) (text : String) (isError : Bool)

/-- What one step of an execution does. -/
structure Reaction where
  execution : Execution
  run : AgentRun
  /-- The first reason is kept. -/
  stop : Option StopReason := none
  happened : List Happening := []

/-- The row's liveness as its executor sees it. -/
def observe (fence : AgentRun.Fence) (now : ℤ) (run : AgentRun) : Option StopReason :=
  if !fence.owns run || run.status ≠ .running then
    some (if run.status = .cancelled then .cancelled else .fenced)
  else
    match run.deadlineAt with
    | some deadline => if deadline ≤ now then some .deadline else none
    | none => none

namespace Execution

variable (setting : Setting)

/-- The loop's two dispatch-time predicates, applied to the stored call. -/
def reachRefusal (execution : Execution) (tool : String) (args : Args) : Option String :=
  match execution.reach.denial tool args with
  | some text => some text
  | none =>
    if execution.reach.allowedTools.contains tool then none else some (unavailableText tool)

def isLost (base : ℕ) (entry : AgentRunTraceEntry) : Bool :=
  entry.iteration = base && entry.confirmation = some .confirmed && entry.text.isNone &&
    !entry.unknownOutcome

def markFirst (kind : AgentRunTraceEntry → Bool) (mark : AgentRunTraceEntry → AgentRunTraceEntry) :
    List AgentRunTraceEntry → List AgentRunTraceEntry
  | [] => []
  | entry :: rest => if kind entry then mark entry :: rest else entry :: markFirst kind mark rest

def lose (entry : AgentRunTraceEntry) : AgentRunTraceEntry := { entry with unknownOutcome := true }

def requestOf (lost : AgentRunTraceEntry) : PendingCall where
  tool := lost.tool
  bindingHash := some (confirmationBindingHash setting.sha256 lost.tool lost.args)
  args := some lost.args
  toolCallId := some lost.tool_call_id

/-- Where `resumeDecidedCall` begins. -/
def resume (execution : Execution) : Execution × Option StopReason :=
  match execution.decided with
  | some _ => ({ execution with stage := .deciding }, none)
  | none =>
    match execution.trace.find? (isLost execution.base) with
    | none => ({ execution with stage := .top 0 }, none)
    | some lost =>
      ({ execution with
          trace := markFirst (isLost execution.base) lose execution.trace
          request := some (requestOf setting lost)
          stage := .ending .reparked }, some .parked)

def decidedId (execution : Execution) (call : PendingCall) : String :=
  call.toolCallId.getD (toString execution.base ++ ":decided")

def decidedEntry (execution : Execution) (decided : DecidedCall) : AgentRunTraceEntry where
  tool_call_id := execution.decidedId decided.call
  tool := decided.call.tool
  args := decided.call.args.getD []
  iteration := execution.base
  confirmation := some (match decided.decision with | .approved => .confirmed | .denied => .denied)

/-- The stored arguments, where they still carry the binding the park computed. -/
def verifiedArgs (call : PendingCall) : Option Args :=
  match call.args, call.bindingHash with
  | some args, some hash =>
    if confirmationBindingHash setting.sha256 call.tool args = hash then some args else none
  | _, _ => none

/-- The outcome goes into the last entry, which is the decided call's, and completes its iteration. -/
def settleDecided (execution : Execution) (tool text : String) (isError : Bool) : Execution :=
  { execution with
    trace := execution.trace.dropLast ++ (execution.trace.getLast?.map fun entry =>
      { entry with
        text := some (scrubInterceptorToken text)
        isError := some (isError || setting.malformed tool text) }).toList
    base := execution.base + 1
    stage := .completing tool text }

def decide (execution : Execution) (decided : DecidedCall) : Execution :=
  let pushed := { execution with trace := execution.trace ++ [execution.decidedEntry decided] }
  let tool := decided.call.tool
  match decided.decision with
  | .denied => pushed.settleDecided setting tool (deniedResultText tool) true
  | .approved =>
    match verifiedArgs setting decided.call with
    | none => pushed.settleDecided setting tool (mismatchText tool) true
    | some args =>
      match execution.reachRefusal tool args with
      | some refusal => pushed.settleDecided setting tool refusal true
      | none => { pushed with stage := .consuming args }

def enterLoop (execution : Execution) : Execution :=
  if execution.base < execution.maxIter then { execution with stage := .top 0 }
  else { execution with stage := .ending (.returned false 0) }

def PROPOSE_TOOL : String := "workspace_propose"

def endsOnProposal (tool text : String) (isError : Bool) : Bool :=
  tool = PROPOSE_TOOL && !isError && !isConfirmationEnvelope text

def decidedBefore (tool : String) (binding : String) (entry : AgentRunTraceEntry) : Bool :=
  entry.tool = tool && entry.text.isSome &&
    (entry.confirmation = some .denied ||
      (entry.confirmation = some .confirmed && entry.isError = some false)) &&
    confirmationBindingHash setting.sha256 entry.tool entry.args = binding

/-- A completed entry of this iteration, same tool, same args, not yet served. -/
def replayable (replayed : List String) (abs : ℕ) (tool : String) (key : List Char)
    (entry : AgentRunTraceEntry) : Bool :=
  entry.iteration = abs &&
    (match entry.text with
      | some text => !isConfirmationEnvelope text
      | none => false) &&
    entry.tool = tool && !replayed.contains entry.tool_call_id && entry.key = key

def outcomeUnknown (abs : ℕ) (tool : String) (key : List Char) (entry : AgentRunTraceEntry) : Bool :=
  entry.iteration = abs && entry.text.isNone && entry.tool = tool && entry.key = key

def intent (abs : ℕ) (call : Call) : AgentRunTraceEntry where
  tool_call_id := call.id
  tool := call.tool
  args := call.args
  iteration := abs

def push (execution : Execution) (entry : AgentRunTraceEntry) (stage : Stage) : Execution :=
  { execution with trace := execution.trace ++ [entry], stage }

/-- `beforeToolCall`, once the row was found in order. -/
def beforeToolCall (execution : Execution) (iter : ℕ) (call : Call) : Execution :=
  let abs := execution.base + iter
  let key := canonical call.args
  let binding := confirmationBindingHash setting.sha256 call.tool call.args
  match execution.trace.find? (decidedBefore setting call.tool binding) with
  | some before =>
    let text := if before.confirmation = some .denied then before.text.getD ""
      else alreadyRunText call.tool
    execution.push { intent abs call with
      text := some text, isError := some true, replayOf := some before.tool_call_id }
      (.serving iter call text true false)
  | none =>
    match execution.trace.find? (replayable execution.replayed abs call.tool key) with
    | some hit =>
      let served := { execution with replayed := execution.replayed ++ [hit.tool_call_id] }
      served.push { intent abs call with
        text := hit.text, isError := hit.isError, replayOf := some hit.tool_call_id }
        (.serving iter call (hit.text.getD "") (hit.isError.getD false) true)
    | none =>
      match execution.trace.find? (outcomeUnknown abs call.tool key) with
      | some prior =>
        if redispatchSafe setting call.tool prior.confirmation then
          execution.push (intent abs call) (.intending iter call)
        else
          { execution with
            trace := markFirst (outcomeUnknown abs call.tool key) lose execution.trace
            stage := .marking iter call (prior.confirmation = some .confirmed) }
      | none => execution.push (intent abs call) (.intending iter call)

def isEntryOf (abs : ℕ) (id : String) (entry : AgentRunTraceEntry) : Bool :=
  entry.tool_call_id = id && entry.iteration = abs

/-- `afterToolCall`: the outcome goes into the entry of the call. -/
def afterToolCall (execution : Execution) (iter : ℕ) (call : Call) (text : String)
    (isError : Bool) : Execution :=
  { execution with
    trace := markFirst (isEntryOf (execution.base + iter) call.id) (fun entry =>
      { entry with text := some (scrubInterceptorToken text), isError := some isError })
      execution.trace
    stage := .recording iter call text isError }

/-- `register`: the last dispatch is this call, and its token is dropped. -/
def register (execution : Execution) (call : Call) : Execution :=
  { execution with
    request := some
      { tool := call.tool
        bindingHash := some (confirmationBindingHash setting.sha256 call.tool call.args)
        args := some call.args
        toolCallId := some call.id } }

/-- What the loop can come to in this iteration: it is not counted where the gateway has not answered,
and after a blank answer one more is made without a checkpoint. -/
def reports (execution : Execution) (iter : ℕ) : Ending → Bool
  | .returned success iterations =>
    let made := if success then iter + 1 else iter
    made ≤ iterations && iterations ≤ made + 1 && execution.base + iterations ≤ execution.maxIter
  | .busy iterations _ =>
    iter ≤ iterations && iterations ≤ iter + 1 && execution.base + iterations < execution.maxIter
  | .threw _ => true
  | _ => false

/-- The loop's own guard: a write is not made twice, and a tool out of reach not at all. -/
def admits (execution : Execution) (call : Call) : Bool :=
  (execution.reachRefusal call.tool call.args).isNone &&
    (isCatalogRead setting call.tool ||
      !execution.executed.contains (call.tool, canonical call.args))

def stoppedBy (stop : Option StopReason) : Ending → Option StopReason
  | .stopped reason => stop.or (some reason)
  | _ => stop

def markParked (request : PendingCall) (entry : AgentRunTraceEntry) : AgentRunTraceEntry :=
  if some entry.tool_call_id = request.toolCallId ∧ entry.confirmation = none then
    { entry with confirmation := some .parked }
  else entry

def lastPatch (execution : Execution) (stop : Option StopReason) (ending : Ending) (now : ℤ) :
    Option AgentRun.Patch :=
  let iterations := ending.iterations.getD 0
  match stoppedBy stop ending, execution.request with
  | some .fenced, _ => none
  | some .cancelled, _ => some (.note (execution.base + iterations))
  | some .parked, some request =>
    some (.park (execution.trace.map (markParked request)) request now)
  | some .proposed, _ => some (.finish true (some (execution.base + iterations)))
  | some .unknown_outcome, _ => some (.finish false (some (execution.base + iterations)))
  | some .deadline, _ => some (.finish false (some (execution.base + iterations)))
  | _, _ =>
    match ending with
    | .threw (some yieldMs) => some (.giveWay (now + yieldMs))
    | .busy _ yieldMs => some (.giveWay (now + yieldMs))
    | .returned success iterations => some (.finish success (some (execution.base + iterations)))
    | _ => some (.finish false none)

def patch (execution : Execution) (stop : Option StopReason) (now : ℤ) : Option AgentRun.Patch :=
  match execution.stage with
  | .refusing => some (.finish false none)
  | .gating => some .gate
  | .capping => some (.finish false none)
  | .consuming _ => some (.consume execution.trace now)
  | .completing _ _ => some (.complete execution.trace execution.base now)
  | .saving iter => some (.checkpoint (execution.base + iter) now)
  | .serving .. => some (.trace execution.trace now)
  | .marking .. => some (.trace execution.trace now)
  | .intending .. => some (.trace execution.trace now)
  | .recording .. => some (.trace execution.trace now)
  | .ending ending => execution.lastPatch stop ending now
  | _ => none

def goes (execution : Execution) (stage : Stage) : Execution := { execution with stage }

def written (execution : Execution) : Execution × Option StopReason × List Happening :=
  match execution.stage with
  | .gating =>
    if execution.maxIter ≤ execution.base then (execution.goes .capping, none, [])
    else
      let (next, stop) := execution.resume setting
      (next, stop, [])
  | .consuming args => ({ execution with stage := .asking args, consumed := true }, none, [])
  | .completing tool text =>
    let failed := (execution.trace.getLast?.bind fun entry => entry.isError).getD true
    if endsOnProposal tool text failed then
      (execution.goes (.ending (.stopped .proposed)), some .proposed, [])
    else (execution.enterLoop, none, [])
  | .saving iter => (execution.goes (.thinking iter), none, [])
  | .serving iter call text isError replay =>
    (execution.goes (.thinking iter), none,
      if replay then [.replayed (execution.base + iter) call text isError] else [])
  | .marking iter call confirmed =>
    if confirmed then
      (execution.push (intent (execution.base + iter) call) (.intending iter call), none, [])
    else (execution.goes (.ending (.stopped .unknown_outcome)), some .unknown_outcome, [])
  | .intending iter call => (execution.goes (.calling iter call), none, [])
  | .recording iter call text isError =>
    if endsOnProposal call.tool text isError then
      (execution.goes (.ending (.stopped .proposed)), some .proposed, [])
    else if (interceptorTokenOf text).isSome then
      ((execution.register setting call).goes (.thinking iter), some .parked, [])
    else (execution.goes (.thinking iter), none, [])
  | _ => (execution.goes .closing, none, [])

/-- Inside the loop a write that meets no row stops it; elsewhere the execution just returns. -/
def turnedAway (execution : Execution) : Execution × Option StopReason :=
  match execution.stage with
  | .refusing => (execution.goes .closing, none)
  | .gating => (execution.goes .closing, none)
  | .capping => (execution.goes .closing, none)
  | .ending _ => (execution.goes .closing, none)
  | _ => (execution.goes (.ending (.stopped .fenced)), some .fenced)

/-- An error inside the loop ends the run; elsewhere it ends the execution. -/
def thrown (execution : Execution) : Execution :=
  match execution.stage with
  | .reading => execution.goes .closing
  | .resolving => execution.goes .closing
  | .refusing => execution.goes .closing
  | .gating => execution.goes .closing
  | .capping => execution.goes .closing
  | .ending _ => execution.goes .closing
  | _ => execution.goes (.ending (.threw none))

def read (execution : Execution) (run : AgentRun) : Execution :=
  { execution with
    stage := .resolving
    base := run.iteration
    maxIter := min run.maxIter setting.maxIterCap
    trace := run.trace
    decided := match run.pending, run.pendingDecision with
      | some call, some decision => some ⟨call, decision⟩
      | _, _ => none
    park := run.parks }

/-- A step that waits for no database. -/
def turn (execution : Execution) (stop : Option StopReason) (answer : Answer) :
    Execution × List Happening :=
  match execution.stage, answer with
  | .resolving, .access none => (execution.goes .refusing, [])
  | .resolving, .access (some reach) => ({ execution with reach, stage := .gating }, [])
  | .asking args, .dispatches =>
    match execution.decided with
    | some decided =>
      (execution.goes (.asked args),
        [.asked execution.park execution.base decided.call.tool args])
    | none => (execution, [])
  | .asked args, .replies text isError =>
    match execution.decided with
    | some decided =>
      if !isError && (interceptorTokenOf text).isSome then
        (execution.goes (.redeeming args), [])
      else
        (execution.settleDecided setting decided.call.tool text
          (isError || isConfirmationEnvelope text), [])
    | none => (execution, [])
  | .redeeming args, .dispatches =>
    match execution.decided with
    | some decided =>
      (execution.goes (.redeemed args),
        [.redeemed execution.park execution.base decided.call.tool args execution.reach])
    | none => (execution, [])
  | .redeemed _, .replies text isError =>
    match execution.decided with
    | some decided =>
      (execution.settleDecided setting decided.call.tool text
        (isError || isConfirmationEnvelope text), [])
    | none => (execution, [])
  | .thinking iter, .asks call =>
    if stop.isSome then (execution.goes (.ending (.returned false (iter + 1))), [])
    else if execution.admits setting call then
      ({ execution with
          executed := execution.executed ++ [(call.tool, canonical call.args)]
          stage := .checking iter call }, [.began (execution.base + iter) call])
    else (execution, [])
  | .thinking iter, .turns =>
    if execution.base + iter + 1 < execution.maxIter then (execution.goes (.top (iter + 1)), [])
    else (execution.goes (.ending (.returned false (iter + 1))), [])
  | .thinking iter, .returns ending =>
    if execution.reports iter ending then (execution.goes (.ending ending), [])
    else (execution, [])
  | .calling iter call, .dispatches =>
    (execution.goes (.waiting iter call), [.dispatched (execution.base + iter) call])
  | .waiting iter call, .replies text isError =>
    let failed := isError || setting.malformed call.tool text
    (execution.afterToolCall iter call text failed,
      [.answered (execution.base + iter) call text failed])
  | .closing, .closes => (execution.goes .ended, [])
  | _, _ => (execution, [])

/-- `observe`, before the execution goes on. -/
def onwards (execution : Execution) (fence : AgentRun.Fence) (now : ℤ) (run : AgentRun)
    (next : Execution) : Execution × Option StopReason :=
  match observe fence now run with
  | some reason => (execution.goes (.ending (.stopped reason)), some reason)
  | none => (next, none)

/-- What a stage does with the row it has read, where it is one that reads. -/
def look (execution : Execution) (fence : AgentRun.Fence) (stop : Option StopReason) (now : ℤ)
    (run : AgentRun) : Option (Execution × Option StopReason) :=
  match execution.stage with
  | .reading =>
    if fence.owns run && run.status = .running then some (execution.read setting run, none)
    else some (execution.goes .closing, none)
  | .deciding =>
    match execution.decided with
    | some decided => some (execution.onwards fence now run (execution.decide setting decided))
    | none => none
  | .top iter =>
    if stop.isSome then some (execution.goes (.ending (.returned false iter)), none)
    else some (execution.onwards fence now run (execution.goes (.saving iter)))
  | .checking iter call =>
    some (execution.onwards fence now run (execution.beforeToolCall setting iter call))
  | _ => none

def parkedBy (patch : AgentRun.Patch) (run : AgentRun) : List Happening :=
  match patch with
  | .park _ request _ => [.parked run.parks request]
  | _ => []

def react (execution : Execution) (fence : AgentRun.Fence) (stop : Option StopReason)
    (run : AgentRun) (answer : Answer) : Reaction :=
  match answer with
  | .row now =>
    match execution.look setting fence stop now run with
    | some (next, stop) => { execution := next, run, stop }
    | none =>
      match execution.patch stop now with
      | some patch =>
        match run.finish fence patch with
        | some run' =>
          let (next, stop, happened) := execution.written setting
          { execution := next, run := run', stop, happened := parkedBy patch run' ++ happened }
        | none =>
          let (next, stop) := execution.turnedAway
          { execution := next, run, stop }
      | none =>
        match execution.stage with
        | .ending _ => { execution := execution.goes .closing, run }
        | _ => { execution, run }
  | .fails applied =>
    match execution.stage with
    | .closing => { execution, run }
    | .ended => { execution, run }
    | _ =>
      match applied.bind (execution.patch stop) with
      | some patch =>
        match run.finish fence patch with
        | some run' =>
          { execution := execution.thrown, run := run', happened := parkedBy patch run' }
        | none => { execution := execution.thrown, run }
      | none => { execution := execution.thrown, run }
  | _ =>
    let (next, happened) := execution.turn setting stop answer
    { execution := next, run, happened }

end Execution

end Droplet.Runs
