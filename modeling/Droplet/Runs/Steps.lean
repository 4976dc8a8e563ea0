import Droplet.Runs.World

/-! What one step can do, to an execution and to the world. -/

namespace Droplet.Runs

open Confirm

/-- Nothing is dispatched and nothing more is put into the trace from here. -/
def Stage.quiet : Stage → Bool
  | .refusing => true
  | .capping => true
  | .ending _ => true
  | .closing => true
  | .ended => true
  | _ => false

def Stage.iter : Stage → Option ℕ
  | .top iter => some iter
  | .saving iter => some iter
  | .thinking iter => some iter
  | .checking iter _ => some iter
  | .serving iter .. => some iter
  | .marking iter .. => some iter
  | .intending iter _ => some iter
  | .calling iter _ => some iter
  | .waiting iter _ => some iter
  | .recording iter .. => some iter
  | _ => none

def Stage.counted : Stage → Option ℕ
  | .ending came => came.iterations
  | _ => none

namespace Execution

variable (setting : Setting)

/-- A count comes from an iteration of the loop, and from none past the cap. -/
def Comes (execution : Execution) (stage : Stage) : Prop :=
  ∀ iterations, stage.counted = some iterations → ∃ iter, execution.stage.iter = some iter ∧
    iter ≤ iterations ∧ (execution.base + iter < execution.maxIter →
      execution.base + iterations ≤ execution.maxIter)

/-- The row was found in order. -/
def Sees (fence : AgentRun.Fence) (run : AgentRun) : Prop :=
  fence.owns run = true ∧ run.status = .running

theorem observe_none {fence : AgentRun.Fence} {now : ℤ} {run : AgentRun}
    (fine : observe fence now run = none) : Sees fence run := by
  unfold observe at fine
  split at fine
  · cases fine
  · rename_i alive
    simpa [Sees] using alive

inductive Did (execution : Execution) (fence : AgentRun.Fence) (stop : Option StopReason)
    (run : AgentRun) : Reaction → Prop
  | rests (reason : Option StopReason) :
      Did execution fence stop run ⟨execution, run, reason, []⟩
  | goes (stage : Stage) (quiet : stage.quiet) (comes : execution.Comes stage)
      (reason : Option StopReason) :
      Did execution fence stop run ⟨execution.goes stage, run, reason, []⟩
  | reads (stage : execution.stage = .reading) (sees : Sees fence run) :
      Did execution fence stop run ⟨execution.read setting run, run, none, []⟩
  | reaches (reach : Reach) (stage : execution.stage = .resolving) :
      Did execution fence stop run ⟨{ execution with reach, stage := .gating }, run, none, []⟩
  | decides (decided : DecidedCall) (stage : execution.stage = .deciding)
      (found : execution.decided = some decided) (sees : Sees fence run) :
      Did execution fence stop run ⟨execution.decide setting decided, run, none, []⟩
  | begins (iter : ℕ) (stage : execution.stage = .top iter) (sees : Sees fence run) :
      Did execution fence stop run ⟨execution.goes (.saving iter), run, none, []⟩
  | turns (iter : ℕ) (stage : execution.stage = .thinking iter)
      (left : execution.base + iter + 1 < execution.maxIter) :
      Did execution fence stop run ⟨execution.goes (.top (iter + 1)), run, none, []⟩
  | asks (iter : ℕ) (call : Call) (stage : execution.stage = .thinking iter) (going : stop = none)
      (admits : execution.admits setting call) :
      Did execution fence stop run
        ⟨{ execution with
            executed := execution.executed ++ [(call.tool, canonical call.args)]
            stage := .checking iter call }, run, none, [.began (execution.base + iter) call]⟩
  | checks (iter : ℕ) (call : Call) (stage : execution.stage = .checking iter call)
      (sees : Sees fence run) :
      Did execution fence stop run ⟨execution.beforeToolCall setting iter call, run, none, []⟩
  | dispatches (iter : ℕ) (call : Call) (stage : execution.stage = .calling iter call) :
      Did execution fence stop run
        ⟨execution.goes (.waiting iter call), run, none, [.dispatched (execution.base + iter) call]⟩
  | answers (iter : ℕ) (call : Call) (text : String) (isError : Bool)
      (stage : execution.stage = .waiting iter call) :
      Did execution fence stop run
        ⟨execution.afterToolCall iter call text isError, run, none,
          [.answered (execution.base + iter) call text isError]⟩
  | challenges (args : Args) (decided : DecidedCall) (stage : execution.stage = .asking args)
      (found : execution.decided = some decided) :
      Did execution fence stop run
        ⟨execution.goes (.asked args), run, none,
          [.asked execution.park execution.base decided.call.tool args]⟩
  | challenged (args : Args) (stage : execution.stage = .asked args) :
      Did execution fence stop run ⟨execution.goes (.redeeming args), run, none, []⟩
  | redeems (args : Args) (decided : DecidedCall) (stage : execution.stage = .redeeming args)
      (found : execution.decided = some decided) :
      Did execution fence stop run
        ⟨execution.goes (.redeemed args), run, none,
          [.redeemed execution.park execution.base decided.call.tool args execution.reach]⟩
  | settles (args : Args) (decided : DecidedCall) (text : String) (isError : Bool)
      (stage : execution.stage = .asked args ∨ execution.stage = .redeemed args)
      (found : execution.decided = some decided) :
      Did execution fence stop run
        ⟨execution.settleDecided setting decided.call.tool text isError, run, none, []⟩
  | writes (patch : AgentRun.Patch) (now : ℤ) (run' : AgentRun)
      (at_write : execution.patch stop now = some patch)
      (applied : run.finish fence patch = some run') :
      Did execution fence stop run
        ⟨(execution.written setting).1, run', (execution.written setting).2.1,
          parkedBy patch run' ++ (execution.written setting).2.2⟩
  | breaks (patch : AgentRun.Patch) (now : ℤ) (run' : AgentRun) (stage : Stage)
      (quiet : stage.quiet) (plain : stage.counted = none)
      (at_write : execution.patch stop now = some patch)
      (applied : run.finish fence patch = some run') :
      Did execution fence stop run ⟨execution.goes stage, run', none, parkedBy patch run'⟩

variable {setting} {execution : Execution} {fence : AgentRun.Fence} {stop : Option StopReason}
  {run : AgentRun}

theorem comes_plain {stage : Stage} (plain : stage.counted = none) : execution.Comes stage := by
  intro iterations counted
  rw [plain] at counted
  cases counted

theorem reports_comes {iter : ℕ} {ending : Ending} (stage : execution.stage = .thinking iter)
    (reports : execution.reports iter ending = true) : execution.Comes (.ending ending) := by
  intro iterations counted
  refine ⟨iter, by rw [stage, Stage.iter], ?_⟩
  cases ending with
  | returned success n =>
    cases counted
    cases success <;> simp [Execution.reports] at reports <;> omega
  | busy n yieldMs =>
    cases counted
    simp [Execution.reports] at reports
    omega
  | _ => cases counted

theorem turnedAway_quiet : ∃ stage reason, Stage.quiet stage ∧ stage.counted = none ∧
    execution.turnedAway = (execution.goes stage, reason) := by
  unfold turnedAway
  split <;> exact ⟨_, _, rfl, rfl, rfl⟩

theorem thrown_quiet : ∃ stage, Stage.quiet stage ∧ stage.counted = none ∧
    execution.thrown = execution.goes stage := by
  unfold thrown
  split <;> exact ⟨_, rfl, rfl, rfl⟩

theorem onwards_did {now : ℤ} {found next : Execution} {reason : Option StopReason}
    (same : execution.onwards fence now run found = (next, reason)) :
    (∃ stage, Stage.quiet stage ∧ stage.counted = none ∧ next = execution.goes stage) ∨
      Sees fence run ∧ next = found ∧ reason = none := by
  unfold onwards at same
  cases observed : observe fence now run with
  | some stopped =>
    rw [observed] at same
    cases same
    exact .inl ⟨_, rfl, rfl, rfl⟩
  | none =>
    rw [observed] at same
    cases same
    exact .inr ⟨observe_none observed, rfl, rfl⟩

theorem look_did {now : ℤ} {next : Execution} {reason : Option StopReason}
    (looked : execution.look setting fence stop now run = some (next, reason)) :
    Did setting execution fence stop run ⟨next, run, reason, []⟩ := by
  unfold look at looked
  split at looked
  · rename_i stage
    split at looked
    · rename_i alive
      simp only [Option.some.injEq, Prod.mk.injEq] at looked
      obtain ⟨rfl, rfl⟩ := looked
      exact .reads stage (by simpa [Sees] using alive)
    · simp only [Option.some.injEq, Prod.mk.injEq] at looked
      obtain ⟨rfl, rfl⟩ := looked
      exact .goes .closing rfl (comes_plain rfl) none
  · rename_i stage
    split at looked
    · rename_i decided found
      rcases onwards_did (Option.some.inj looked) with ⟨stage, quiet, plain, rfl⟩ | ⟨sees, rfl, rfl⟩
      · exact .goes stage quiet (comes_plain plain) reason
      · exact .decides decided stage found sees
    · cases looked
  · rename_i iter stage
    split at looked
    · simp only [Option.some.injEq, Prod.mk.injEq] at looked
      obtain ⟨rfl, rfl⟩ := looked
      refine .goes _ rfl ?_ none
      intro iterations counted
      cases counted
      exact ⟨iter, by rw [stage, Stage.iter], le_refl iter, by omega⟩
    · rcases onwards_did (Option.some.inj looked) with ⟨stage, quiet, plain, rfl⟩ | ⟨sees, rfl, rfl⟩
      · exact .goes stage quiet (comes_plain plain) reason
      · exact .begins iter stage sees
  · rename_i iter call stage
    rcases onwards_did (Option.some.inj looked) with ⟨stage, quiet, plain, rfl⟩ | ⟨sees, rfl, rfl⟩
    · exact .goes stage quiet (comes_plain plain) reason
    · exact .checks iter call stage sees
  · cases looked

theorem turn_did (answer : Answer) :
    Did setting execution fence stop run
      ⟨(execution.turn setting stop answer).1, run, none, (execution.turn setting stop answer).2⟩ := by
  unfold turn
  have over_now : ∀ iter, execution.stage = .thinking iter →
      execution.Comes (.ending (.returned false (iter + 1))) := by
    intro iter stage iterations counted
    cases counted
    exact ⟨iter, by rw [stage, Stage.iter], by omega, by omega⟩
  split
  · exact .goes .refusing rfl (comes_plain rfl) none
  · rename_i stage
    exact .reaches _ stage
  · rename_i stage
    split
    · rename_i found
      exact .challenges _ _ stage found
    · exact .rests none
  · rename_i stage
    split
    · rename_i found
      split
      · exact .challenged _ stage
      · exact .settles _ _ _ _ (.inl stage) found
    · exact .rests none
  · rename_i stage
    split
    · rename_i found
      exact .redeems _ _ stage found
    · exact .rests none
  · rename_i stage
    split
    · rename_i found
      exact .settles _ _ _ _ (.inr stage) found
    · exact .rests none
  · rename_i stage
    split
    · exact .goes _ rfl (over_now _ stage) none
    · rename_i going
      split
      · rename_i admits
        exact .asks _ _ stage (by simpa using going) admits
      · exact .rests none
  · rename_i stage
    split
    · rename_i left
      exact .turns _ stage left
    · exact .goes _ rfl (over_now _ stage) none
  · rename_i stage
    split
    · rename_i reports
      exact .goes _ rfl (reports_comes stage reports) none
    · exact .rests none
  · rename_i stage
    exact .dispatches _ _ stage
  · rename_i stage
    exact .answers _ _ _ _ stage
  · exact .goes .ended rfl (comes_plain rfl) none
  · exact .rests none

theorem react_did (answer : Answer) :
    Did setting execution fence stop run (execution.react setting fence stop run answer) := by
  unfold react
  split
  · split
    · rename_i looked
      exact look_did looked
    · split
      · rename_i patch at_write
        split
        · rename_i run' applied
          exact .writes patch _ run' at_write applied
        · obtain ⟨stage, reason, quiet, plain, same⟩ := @turnedAway_quiet execution
          rw [same]
          exact .goes stage quiet (comes_plain plain) reason
      · split
        · exact .goes .closing rfl (comes_plain rfl) none
        · exact .rests none
  · split
    · exact .rests none
    · exact .rests none
    · obtain ⟨stage, quiet, plain, same⟩ := @thrown_quiet execution
      rw [same]
      split
      · rename_i patch tried
        obtain ⟨now, -, at_write⟩ := Option.bind_eq_some_iff.mp tried
        split
        · rename_i run' applied
          exact .breaks patch now run' stage quiet plain at_write applied
        · exact .goes stage quiet (comes_plain plain) none
      · exact .goes stage quiet (comes_plain plain) none
  · exact turn_did answer

end Execution

namespace World

variable (setting : Setting)

/-- What a step of the world can do to the row, the executions and the log. -/
inductive Passed (world : World) : Event → AgentRun → List Execution → List Happening → Prop
  | rests (event : Event) : Passed world event world.run world.executions []
  | claimed (id : WorkerId) (now : ℤ) (lost : Bool) (run : AgentRun)
      (tick : (world.workers id).tick = .claiming now)
      (claim : world.run.claim setting.maxWallMs id now = some run) :
      Passed world (.tick id (.claim lost)) run world.executions [.claimed id now]
  | launched (id : WorkerId) (now : ℤ) (tick : (world.workers id).tick = .won now) :
      Passed world (.tick id .launch) world.run
        (world.executions ++ [{ worker := id, claimedAt := now }]) []
  | requeued (id : WorkerId) (now : ℤ) (stale : AgentRun.Stale) (run : AgentRun)
      (tick : (world.workers id).tick = .reclaiming now stale)
      (below : stale.attempts < setting.maxAttempts) (requeue : world.run.requeue stale now = some run) :
      Passed world (.tick id .reclaim) run world.executions [.requeued]
  | gaveUp (id : WorkerId) (stale : AgentRun.Stale) (run : AgentRun)
      (giveUp : world.run.giveUp stale = some run) :
      Passed world (.tick id .reclaim) run world.executions []
  | beaten (id : WorkerId) (now : ℤ) (run : AgentRun)
      (beat : world.run.beat ((world.workers id).fence id) now = some run) :
      Passed world (.heartbeat id .beat) run world.executions []
  | released (id : WorkerId) (held : Option ℤ) (now : ℤ) (run : AgentRun)
      (release : world.run.release ⟨id, held⟩ now = some run) :
      Passed world (.release id (.release now)) run world.executions []
  | crashed (id : WorkerId) :
      Passed world (.crash id) world.run (world.executions.map fun execution =>
        if execution.worker = id then execution.goes .ended else execution) []
  | cancelled (run : AgentRun) (cancel : world.run.cancel = some run) :
      Passed world .cancel run world.executions []
  | decided (i : ℕ) (decision : AgentRunDecision) (now : ℤ) (deadlineAt : Option ℤ) (run : AgentRun)
      (decide : world.run.decide decision now deadlineAt = some run) :
      Passed world (.decided i now) run world.executions [.decided run.parks decision]
  | executed (i : ℕ) (answer : Answer) (execution : Execution) (reaction : Reaction)
      (found : world.executions[i]? = some execution) (live : isEnded execution.stage = false)
      (did : execution.Did setting ((world.workers execution.worker).fence execution.worker)
        (world.workers execution.worker).stopReason world.run reaction) :
      Passed world (.execute i answer) reaction.run (world.executions.set i reaction.execution)
        reaction.happened

variable {setting} {world : World}

theorem getD_cases {found : Option AgentRun} {run : AgentRun} :
    found.getD run = run ∨ found = some (found.getD run) := by
  cases found <;> simp

/-- A step leads to the next world, and what happened is logged. -/
def Passes (setting : Setting) (world : World) (event : Event) (next : World) : Prop :=
  ∃ happened, Passed setting world event next.run next.executions happened ∧ next.log = world.log ++ happened

variable {event : Event} {next : World}

theorem Passed.silently (passed : Passed setting world event next.run next.executions [])
    (log : next.log = world.log) : Passes setting world event next :=
  ⟨[], passed, by rw [log, List.append_nil]⟩

theorem Passes.still (run : next.run = world.run) (executions : next.executions = world.executions)
    (log : next.log = world.log) : Passes setting world event next := by
  refine Passed.silently ?_ log
  rw [run, executions]
  exact .rests event

theorem tickStep_passed (id : WorkerId) (move : TickMove) :
    Passes setting world (.tick id move) (world.tickStep setting id move) := by
  generalize moved : world.tickStep setting id move = next
  unfold tickStep at moved
  split at moved
  · subst moved
    exact .still rfl rfl rfl
  · split at moved <;> subst moved <;> exact .still rfl rfl rfl
  · rename_i now stale tick
    unfold reclaim at moved
    split at moved
    · subst moved
      rcases @getD_cases (world.run.giveUp stale) world.run with same | gaveUp
      · exact .still same rfl rfl
      · exact Passed.silently (.gaveUp id stale _ gaveUp) rfl
    · rename_i below
      split at moved
      · rename_i run requeued
        subst moved
        exact ⟨[.requeued], .requeued id now stale run tick (by omega) requeued, rfl⟩
      · subst moved
        exact .still rfl rfl rfl
  · split at moved <;> subst moved <;> exact .still rfl rfl rfl
  · rename_i now lost tick
    split at moved
    · subst moved
      exact .still rfl rfl rfl
    · rename_i run claimed
      cases lost <;> subst moved <;> exact ⟨[.claimed id now], .claimed id now _ run tick claimed, rfl⟩
  · rename_i now tick
    subst moved
    exact Passed.silently (.launched id now tick) rfl
  all_goals
    subst moved
    exact .still rfl rfl rfl

theorem beatStep_passed (id : WorkerId) (move : BeatMove) :
    Passes setting world (.heartbeat id move) (world.beatStep id move) := by
  unfold beatStep
  split
  · split
    · split <;> exact .still rfl rfl rfl
    · exact .still rfl rfl rfl
  · split
    · rename_i run beat
      exact Passed.silently (.beaten id _ run beat) rfl
    · exact .still rfl rfl rfl
  all_goals exact .still rfl rfl rfl

theorem releaseStep_passed (id : WorkerId) (move : ShutdownMove) :
    Passes setting world (.release id move) (world.releaseStep id move) := by
  unfold releaseStep
  split
  · split <;> exact .still rfl rfl rfl
  · rename_i held now settling
    split
    · exact .still rfl rfl rfl
    · rcases @getD_cases (world.run.release ⟨id, held⟩ now) world.run with same | released
      · exact .still same rfl rfl
      · exact Passed.silently (.released id held now _ released) rfl
  · exact .still rfl rfl rfl

theorem executeStep_passed (i : ℕ) (answer : Answer) :
    Passes setting world (.execute i answer) (world.executeStep setting i answer) := by
  unfold executeStep
  split
  · exact .still rfl rfl rfl
  · rename_i execution found
    split
    · exact .still rfl rfl rfl
    · rename_i live
      exact ⟨_, .executed i answer execution _ found (by simpa using live) (Execution.react_did answer), rfl⟩

theorem step_passed (event : Event) : Passes setting world event (world.step setting event) := by
  cases event with
  | execute i answer => exact executeStep_passed i answer
  | tick id move => exact tickStep_passed id move
  | heartbeat id move => exact beatStep_passed id move
  | release id move => exact releaseStep_passed id move
  | crash id => exact Passed.silently (.crashed id) rfl
  | cancel =>
    rcases @getD_cases world.run.cancel world.run with same | cancelled
    · exact .still same rfl rfl
    · exact Passed.silently (.cancelled _ cancelled) rfl
  | decide decision allowed =>
    simp only [step, decideStep]
    split <;> exact .still rfl rfl rfl
  | decided i now =>
    simp only [step, decidedStep]
    split
    · exact .still rfl rfl rfl
    · rename_i decider found
      split
      · rename_i run decided
        exact ⟨_, .decided i decider.decision now _ run decided, rfl⟩
      · exact .still rfl rfl rfl

end World

end Droplet.Runs
