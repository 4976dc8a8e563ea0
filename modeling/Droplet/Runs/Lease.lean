import Droplet.Lib.Histories
import Droplet.Runs.Steps

/-! Who owns a run: the execution whose worker and instant are on the row, and nobody else. -/

namespace Droplet.Runs

open Places Confirm

namespace Execution

variable {setting : Setting} {execution : Execution}

/-- It works for the same worker, on the same claim. -/
def Kin (execution other : Execution) : Prop :=
  other.worker = execution.worker ∧ other.claimedAt = execution.claimedAt

theorem beforeToolCall_shape (iter : ℕ) (call : Call) : ∃ trace replayed stage,
    execution.beforeToolCall setting iter call = { execution with trace, replayed, stage } ∧
      stage.iter = some iter := by
  unfold beforeToolCall
  dsimp only
  split
  · exact ⟨_, _, _, rfl, rfl⟩
  · split
    · exact ⟨_, _, _, rfl, rfl⟩
    · split
      · split <;> exact ⟨_, _, _, rfl, rfl⟩
      · exact ⟨_, _, _, rfl, rfl⟩

theorem decide_shape (decided : DecidedCall) :
    (∃ trace tool text, execution.decide setting decided =
      { execution with trace, base := execution.base + 1, stage := .completing tool text }) ∨
    ∃ trace args, execution.decide setting decided =
        { execution with trace, stage := .consuming args } ∧
      decided.decision = .approved ∧ verifiedArgs setting decided.call = some args ∧
        execution.reachRefusal decided.call.tool args = none := by
  unfold decide
  dsimp only
  split
  · exact .inl ⟨_, _, _, rfl⟩
  · rename_i approved
    split
    · exact .inl ⟨_, _, _, rfl⟩
    · rename_i args verified
      split
      · exact .inl ⟨_, _, _, rfl⟩
      · rename_i reachable
        exact .inr ⟨_, args, rfl, approved, verified, reachable⟩

inductive Written (execution : Execution) : Execution → Prop
  | stops (trace : List AgentRunTraceEntry) (request : Option PendingCall) (stage : Stage)
      (quiet : stage.quiet) (plain : stage.counted = none) :
      Written execution { execution with trace, request, stage }
  | stays (iter : ℕ) (trace : List AgentRunTraceEntry) (request : Option PendingCall) (stage : Stage)
      (was : execution.stage.iter = some iter) (inside : stage.iter = some iter) :
      Written execution { execution with trace, request, stage }
  | enters (was : execution.stage = .gating ∨ ∃ tool text, execution.stage = .completing tool text)
      (left : execution.base < execution.maxIter) : Written execution (execution.goes (.top 0))
  | limit (tool text : String) (was : execution.stage = .completing tool text) :
      Written execution (execution.goes (.ending (.returned false 0)))
  | resumes (was : execution.stage = .gating) (left : execution.base < execution.maxIter) :
      Written execution (execution.goes .deciding)
  | consumes (args : Args) (was : execution.stage = .consuming args) :
      Written execution { execution with stage := .asking args, consumed := true }

theorem written_shape : execution.Written (execution.written setting).1 := by
  unfold written
  split
  · rename_i was
    split
    · exact .stops _ _ _ rfl rfl
    · rename_i left
      dsimp only
      unfold resume
      split
      · exact .resumes was (not_le.mp left)
      · split
        · exact .enters (.inl was) (not_le.mp left)
        · exact .stops _ _ _ rfl rfl
  · rename_i args was
    exact .consumes args was
  · rename_i tool text was
    dsimp only
    split
    · exact .stops _ _ _ rfl rfl
    · unfold enterLoop
      split
      · rename_i left
        exact .enters (.inr ⟨tool, text, was⟩) left
      · exact .limit tool text was
  · rename_i iter was
    exact .stays iter _ _ _ (by rw [was, Stage.iter]) rfl
  · rename_i iter call text isError replay was
    exact .stays iter _ _ _ (by rw [was, Stage.iter]) rfl
  · rename_i iter call confirmed was
    split
    · exact .stays iter _ _ _ (by rw [was, Stage.iter]) rfl
    · exact .stops _ _ _ rfl rfl
  · rename_i iter call was
    exact .stays iter _ _ _ (by rw [was, Stage.iter]) rfl
  · rename_i iter call text isError was
    split
    · exact .stops _ _ _ rfl rfl
    · split <;> exact .stays iter _ _ _ (by rw [was, Stage.iter]) rfl
  · exact .stops _ _ _ rfl rfl

variable {fence : AgentRun.Fence} {stop : Option StopReason} {run : AgentRun} {reaction : Reaction}

theorem Did.kin (did : execution.Did setting fence stop run reaction) : execution.Kin reaction.execution := by
  cases did with
  | decides decided =>
    rcases @decide_shape setting execution decided with ⟨_, _, _, same⟩ | ⟨_, _, same, _⟩ <;>
      rw [same] <;> exact ⟨rfl, rfl⟩
  | checks iter call =>
    obtain ⟨trace, replayed, stage, same, -⟩ := @beforeToolCall_shape setting execution iter call
    rw [same]
    exact ⟨rfl, rfl⟩
  | writes =>
    have written := @written_shape setting execution
    generalize (execution.written setting).1 = next at written ⊢
    cases written <;> exact ⟨rfl, rfl⟩
  | _ => exact ⟨rfl, rfl⟩

theorem Did.run_cases (did : execution.Did setting fence stop run reaction) :
    reaction.run = run ∨ ∃ patch, run.finish fence patch = some reaction.run := by
  cases did with
  | writes patch _ _ _ applied | breaks patch _ _ _ _ _ _ applied => exact .inr ⟨patch, applied⟩
  | _ => exact .inl rfl

theorem written_tells : (execution.written setting).2.2 = [] ∨ ∃ iter call text isError,
      (execution.written setting).2.2 = [.replayed iter call text isError] := by
  unfold written
  split
  · split <;> exact .inl rfl
  · exact .inl rfl
  · dsimp only
    split <;> exact .inl rfl
  · exact .inl rfl
  · split
    · exact .inr ⟨_, _, _, _, rfl⟩
    · exact .inl rfl
  · split <;> exact .inl rfl
  · exact .inl rfl
  · split
    · exact .inl rfl
    · split <;> exact .inl rfl
  · exact .inl rfl

theorem Did.requeued (did : execution.Did setting fence stop run reaction) : .requeued ∉ reaction.happened := by
  have parks : ∀ patch run', Happening.requeued ∉ parkedBy patch run' := by
    intro patch run'
    cases patch <;> simp [parkedBy]
  cases did with
  | writes patch now run' =>
    rcases @written_tells setting execution with none | ⟨iter, call, text, isError, one⟩
    · simp [parks, none]
    · simp [parks, one]
  | breaks patch now run' => simp [parks]
  | _ => simp

end Execution

namespace AgentRun

variable {run run' : AgentRun} {fence : Fence} {patch : Patch}

theorem finish_cases (done : run.finish fence patch = some run') :
    fence.owns run = true ∧ run.status = patch.on ∧ run' = patch.apply run := by
  rw [finish, Option.ite_none_right_eq_some, Bool.and_eq_true, decide_eq_true_eq] at done
  exact ⟨done.1.1, done.1.2, (Option.some.inj done.2).symm⟩

theorem claim_cases {maxWallMs now : ℤ} {worker : WorkerId}
    (done : run.claim maxWallMs worker now = some run') :
    run.status = .queued ∧ run' = { run with
      status := .running
      claimedBy := some worker
      claimedAt := some now
      heartbeatAt := some now
      startedAt := some (run.startedAt.getD now)
      deadlineAt := if run.startedAt = none then some (now + maxWallMs) else run.deadlineAt } := by
  rw [claim, Option.ite_none_right_eq_some] at done
  exact ⟨done.1, (Option.some.inj done.2).symm⟩

variable {stale : Stale} {now : ℤ}

theorem requeue_cases (done : run.requeue stale now = some run') :
    stale.fence run = true ∧ run' = { run.unclaimed now with attempts := run.attempts + 1 } := by
  rw [requeue, Option.ite_none_right_eq_some] at done
  exact ⟨done.1, (Option.some.inj done.2).symm⟩

theorem fence_running (fits : stale.fence run = true) : run.status = .running := by
  rw [Stale.fence, Bool.and_eq_true, decide_eq_true_eq] at fits
  exact fits.1

theorem giveUp_cases (done : run.giveUp stale = some run') :
    run.status = .running ∧ run' = { run.clearPending with status := .failed } := by
  rw [giveUp, Option.ite_none_right_eq_some] at done
  exact ⟨fence_running done.1, (Option.some.inj done.2).symm⟩

theorem beat_cases (done : run.beat fence now = some run') :
    fence.owns run = true ∧ run.status = .running ∧ run' = { run with heartbeatAt := some now } := by
  rw [beat, Option.ite_none_right_eq_some, Bool.and_eq_true, decide_eq_true_eq] at done
  exact ⟨done.1.1, done.1.2, (Option.some.inj done.2).symm⟩

theorem release_cases (done : run.release fence now = some run') :
    fence.owns run = true ∧ run.status = .running ∧ run' = run.unclaimed now := by
  rw [release, Option.ite_none_right_eq_some, Bool.and_eq_true, decide_eq_true_eq] at done
  exact ⟨done.1.1, done.1.2, (Option.some.inj done.2).symm⟩

theorem cancel_cases (done : run.cancel = some run') :
    run.status.final = false ∧ run' = { run.clearPending with status := .cancelled } := by
  rw [cancel, Option.ite_none_right_eq_some] at done
  refine ⟨?_, (Option.some.inj done.2).symm⟩
  cases shape : run.status <;> simp_all [ACTIVE_AGENT_RUN_STATUSES, AgentRunStatus.final]

theorem decide_cases {decision : AgentRunDecision} {deadlineAt : Option ℤ}
    (done : run.decide decision now deadlineAt = some run') :
    run.status = .awaiting_confirmation ∧ run' = { run with
      status := .queued
      runAfter := now
      pendingDecision := some decision
      deadlineAt := deadlineAt } := by
  rw [decide, Option.ite_none_right_eq_some] at done
  exact ⟨done.1, (Option.some.inj done.2).symm⟩

def Settled (run : AgentRun) : Prop := run.status.final = true → run.pendingDecision = none

theorem owns_lease {worker : WorkerId} {lease : ℤ} (owns : Fence.owns ⟨worker, some lease⟩ run) :
    run.claimedBy = some worker ∧ run.claimedAt = some lease := by
  simpa [Fence.owns] using owns

theorem owns_worker (owns : fence.owns run) : run.claimedBy = some fence.worker := by
  rw [Fence.owns, Bool.and_eq_true, decide_eq_true_eq] at owns
  exact owns.1

theorem finish_attempts (done : run.finish fence patch = some run') : run'.attempts = run.attempts := by
  obtain ⟨owns, on, rfl⟩ := finish_cases done
  cases patch <;> rfl

theorem finish_settled (settled : run.Settled) (done : run.finish fence patch = some run') : run'.Settled := by
  obtain ⟨owns, on, rfl⟩ := finish_cases done
  intro final
  cases patch with
  | gate | checkpoint | trace => exact settled final
  | giveWay runAfter => exact settled (by simp [Patch.apply, unclaimed, AgentRunStatus.final] at final)
  | _ => rfl

theorem finish_final (final : run.status.final = true)
    (done : run.finish fence patch = some run') : run'.status = run.status := by
  obtain ⟨owns, on, rfl⟩ := finish_cases done
  cases patch with
  | note iteration => rfl
  | _ => simp [on, Patch.on, AgentRunStatus.final] at final

end AgentRun

def isRequeue : Happening → Bool
  | .requeued => true
  | _ => false

def Execution.Holds (execution : Execution) (run : AgentRun) : Prop :=
  run.claimedBy = some execution.worker ∧ run.claimedAt = some execution.claimedAt

def Execution.Live (execution : Execution) : Prop := World.isEnded execution.stage = false

structure Worker.Fits (worker : Worker) : Prop where
  leased : worker.inFlight = true → worker.lease ≠ none
  held : ∀ held, worker.shutdown = .settling held → held ≠ none
  free : ∀ now, worker.tick = .claiming now ∨ worker.tick = .won now → worker.inFlight = false

namespace World

/-- Nobody works without a lease, and no worker twice. -/
structure Leased (world : World) : Prop where
  fits : ∀ id, (world.workers id).Fits
  flight : ∀ execution ∈ world.executions, execution.Live →
    (world.workers execution.worker).inFlight = true ∧
      (world.workers execution.worker).lease = some execution.claimedAt
  single : ∀ (i j : ℕ) (first second : Execution),
    world.executions[i]? = some first → world.executions[j]? = some second →
      first.Live → second.Live → first.worker = second.worker → i = j
  settled : world.run.Settled

variable {setting : Setting} {world : World}

theorem start_leased (maxIter : ℕ) (runAfter : ℤ) : Leased (World.start (enqueued maxIter runAfter)) where
  fits := by
    intro id
    constructor <;> simp [World.start]
  flight := by simp [World.start]
  single := by simp [World.start]
  settled := fun final => by cases final

section

variable (leased : Leased world)
include leased

theorem Leased.row (run : AgentRun) (happened : List Happening) (settled : run.Settled) :
    Leased ({ world with run }.note happened) :=
  ⟨leased.fits, leased.flight, leased.single, settled⟩

variable (id : WorkerId)

theorem Leased.setWorker {worker : Worker} (fits : worker.Fits)
    (inFlight : worker.inFlight = (world.workers id).inFlight)
    (lease : worker.lease = (world.workers id).lease) : Leased (world.setWorker id worker) where
  fits := by
    intro other
    by_cases same : other = id
    · subst same
      simpa [World.setWorker] using fits
    · simpa [World.setWorker, same] using leased.fits other
  flight := by
    intro execution found live
    have flight := leased.flight execution found live
    by_cases same : execution.worker = id
    · rw [same, ← inFlight, ← lease] at flight
      simpa [World.setWorker, same] using flight
    · simpa [World.setWorker, same] using flight
  single := leased.single
  settled := leased.settled

theorem Leased.tickTo {tick : Tick}
    (free : ∀ now, tick = .claiming now ∨ tick = .won now → (world.workers id).inFlight = false) :
    Leased (world.tickTo id tick) :=
  leased.setWorker id { leased.fits id with free := free } rfl rfl

theorem Leased.reclaim (now : ℤ) (stale : AgentRun.Stale) : Leased (world.reclaim setting now stale) := by
  unfold World.reclaim
  split
  · rcases @getD_cases (world.run.giveUp stale) world.run with same | gaveUp
    · rw [same]
      exact leased
    · obtain ⟨running, over_⟩ := AgentRun.giveUp_cases gaveUp
      have settled : ((world.run.giveUp stale).getD world.run).Settled := by
        rw [over_]
        exact fun final => rfl
      exact ⟨leased.fits, leased.flight, leased.single, settled⟩
  · split
    · rename_i run requeued
      obtain ⟨running, rfl⟩ := AgentRun.requeue_cases requeued
      exact leased.row _ _ fun final => by cases final
    · exact leased

theorem Leased.claim {id : WorkerId} {now : ℤ} {run : AgentRun}
    (claimed : world.run.claim setting.maxWallMs id now = some run) :
    Leased ({ world with run }.note [.claimed id now]) := by
  obtain ⟨queued, rfl⟩ := AgentRun.claim_cases claimed
  exact leased.row _ _ fun final => by cases final

theorem Leased.launch {id : WorkerId} {now : ℤ}
    (tick : (world.workers id).tick = .won now) :
    Leased { world.setWorker id
        { world.workers id with inFlight := true, lease := some now, tick := .leaving } with
      executions := world.executions ++ [{ worker := id, claimedAt := now }] } := by
  have grounded := (leased.fits id).free now (.inr tick)
  have nobody : ∀ execution ∈ world.executions, execution.Live → execution.worker ≠ id := by
    intro execution found live same
    have flight := (leased.flight execution found live).1
    rw [same, grounded] at flight
    cases flight
  constructor
  · intro other
    by_cases same : other = id
    · subst same
      have held := (leased.fits other).held
      constructor <;> simp [World.setWorker]
      exact held
    · simpa [World.setWorker, same] using leased.fits other
  · intro execution found live
    rcases List.mem_append.mp found with old | new
    · have different := nobody execution old live
      simpa [World.setWorker, different] using leased.flight execution old live
    · rw [List.mem_singleton.mp new]
      simp [World.setWorker]
  · intro i j first second at_i at_j live_i live_j same
    have apart : ∀ (k : ℕ) (execution : Execution), world.executions[k]? = some execution →
        execution.Live → execution.worker ≠ id :=
      fun k execution found => nobody execution (List.mem_of_getElem? found)
    rcases append_cases at_i with ⟨last, rfl⟩ | old <;> rcases append_cases at_j with ⟨last', rfl⟩ | old'
    · rw [last, last']
    · exact absurd same.symm (apart j second old' live_j)
    · exact absurd same (apart i first old live_i)
    · exact leased.single i j first second old old' live_i live_j same
  · exact leased.settled

theorem Leased.tickStep (move : TickMove) : Leased (world.tickStep setting id move) := by
  have idles : Leased (world.leave id) := leased.tickTo id (by simp)
  generalize moved : world.tickStep setting id move = next
  unfold World.tickStep at moved
  split at moved
  · subst moved
    exact leased.tickTo id (by simp)
  · split at moved <;> subst moved <;> exact leased.tickTo id (by simp)
  · rename_i now stale tick
    subst moved
    exact (leased.reclaim now stale).tickTo id (by simp)
  · split at moved
    · rename_i candidate
      subst moved
      simp only [Bool.and_eq_true, Bool.not_eq_true'] at candidate
      exact leased.tickTo id fun _ _ => candidate.2
    · subst moved
      exact leased.tickTo id (by simp)
  · rename_i now lost tick
    split at moved
    · subst moved
      exact leased.tickTo id (by simp)
    · rename_i run claimed
      have grounded := (leased.fits id).free now (.inl tick)
      cases lost <;> subst moved
      · exact (leased.claim claimed).tickTo id fun _ _ => grounded
      · exact (leased.claim claimed).tickTo id (by simp)
  · rename_i now tick
    subst moved
    exact leased.launch tick
  · subst moved
    exact idles
  · subst moved
    exact leased
  · subst moved
    exact leased
  · subst moved
    exact idles
  · subst moved
    exact leased

theorem Leased.beatStep (move : BeatMove) : Leased (world.beatStep id move) := by
  have fits := leased.fits id
  have kept : ∀ {worker : Worker}, worker.inFlight = (world.workers id).inFlight →
      worker.lease = (world.workers id).lease → worker.tick = (world.workers id).tick →
      worker.shutdown = (world.workers id).shutdown → Leased (world.setWorker id worker) := by
    intro worker inFlight lease tick shutdown
    refine leased.setWorker id ?_ inFlight lease
    constructor
    · rw [inFlight, lease]
      exact fits.leased
    · rw [shutdown]
      exact fits.held
    · rw [inFlight, tick]
      exact fits.free
  generalize moved : world.beatStep id move = next
  unfold World.beatStep at moved
  split at moved
  · split at moved
    · split at moved <;> subst moved <;> exact kept rfl rfl rfl rfl
    · subst moved
      exact leased
  · split at moved
    · rename_i now beating move run beat
      subst moved
      obtain ⟨owns, running, rfl⟩ := AgentRun.beat_cases beat
      have idle : Leased (world.setWorker id { world.workers id with beat := .idle }) :=
        kept rfl rfl rfl rfl
      exact ⟨idle.fits, idle.flight, idle.single, leased.settled⟩
    · subst moved
      exact kept rfl rfl rfl rfl
  · subst moved
    exact kept rfl rfl rfl rfl
  · subst moved
    exact leased

theorem Leased.releaseStep (move : ShutdownMove) : Leased (world.releaseStep id move) := by
  have fits := leased.fits id
  generalize moved : world.releaseStep id move = next
  unfold World.releaseStep at moved
  split at moved
  · split at moved
    · rename_i flying
      subst moved
      refine leased.setWorker id { fits with held := ?_ } rfl rfl
      intro held settling
      cases settling
      exact fits.leased flying
    · subst moved
      exact leased
  · rename_i held now settling
    split at moved
    · subst moved
      exact leased
    · subst moved
      have idle : Leased (world.setWorker id { world.workers id with shutdown := .idle }) :=
        leased.setWorker id { fits with held := fun _ settling => nomatch settling } rfl rfl
      rcases @getD_cases (world.run.release ⟨id, held⟩ now) world.run with same | released
      · rw [same]
        exact idle
      · obtain ⟨owns, running, over_⟩ := AgentRun.release_cases released
        rw [over_]
        exact ⟨idle.fits, idle.flight, idle.single, fun final => by cases final⟩
  · subst moved
    exact leased

theorem Leased.end_ {i : ℕ} {execution : Execution}
    (next : Execution) (found : world.executions[i]? = some execution) (live : execution.Live) (ended : ¬ next.Live) :
    Leased { world.setWorker execution.worker (settle (world.workers execution.worker)) with
      executions := world.executions.set i next } := by
  have fits := leased.fits execution.worker
  constructor
  · intro other
    by_cases same : other = execution.worker
    · subst same
      have held := fits.held
      constructor <;> simp only [World.setWorker, Function.update_self, settle]
      · simp
      · exact held
      · simp
    · simpa [World.setWorker, same] using leased.fits other
  · intro other member alive
    obtain ⟨j, there⟩ := List.mem_iff_getElem?.mp member
    rcases set_cases there with ⟨rfl, rfl⟩ | ⟨differ, old⟩
    · exact absurd alive ended
    · have different : other.worker ≠ execution.worker :=
        fun same => differ (leased.single j i other execution old found alive live same)
      simpa [World.setWorker, different] using leased.flight other (List.mem_of_getElem? old) alive
  · intro j k first second at_j at_k live_j live_k same
    rcases set_cases at_j with ⟨rfl, rfl⟩ | ⟨-, old⟩
    · exact absurd live_j ended
    · rcases set_cases at_k with ⟨rfl, rfl⟩ | ⟨-, old'⟩
      · exact absurd live_k ended
      · exact leased.single j k first second old old' live_j live_k same
  · exact leased.settled

theorem Leased.proceed {i : ℕ} {execution next : Execution}
    (found : world.executions[i]? = some execution) (live : execution.Live)
    (kin : execution.Kin next) (reason : Option StopReason) :
    Leased
      { world.setWorker execution.worker ((world.workers execution.worker).stop reason) with
        executions := world.executions.set i next } := by
  have fits := leased.fits execution.worker
  have stopped : Leased
      (world.setWorker execution.worker ((world.workers execution.worker).stop reason)) :=
    leased.setWorker _ ⟨fits.leased, fits.held, fits.free⟩ rfl rfl
  have before : ∀ (j : ℕ) (other : Execution), (world.executions.set i next)[j]? = some other →
      other.Live → ∃ old, world.executions[j]? = some old ∧ old.Live ∧ old.Kin other := by
    intro j other there alive
    rcases set_cases there with ⟨rfl, rfl⟩ | ⟨-, old⟩
    · exact ⟨execution, found, live, kin⟩
    · exact ⟨other, old, alive, rfl, rfl⟩
  constructor
  · exact stopped.fits
  · intro other member alive
    obtain ⟨j, there⟩ := List.mem_iff_getElem?.mp member
    obtain ⟨old, at_j, was, worker, instant⟩ := before j other there alive
    rw [worker, instant]
    exact stopped.flight old (List.mem_of_getElem? at_j) was
  · intro j k first second at_j at_k live_j live_k same
    obtain ⟨old, at_j', was, worker, -⟩ := before j first at_j live_j
    obtain ⟨old', at_k', was', worker', -⟩ := before k second at_k live_k
    exact leased.single j k old old' at_j' at_k' was was' (by rw [← worker, ← worker', same])
  · exact leased.settled

end

theorem happened_quiet {happened : List Happening} (quiet : Happening.requeued ∉ happened) :
    happened.countP isRequeue = 0 := by
  rw [List.countP_eq_zero]
  intro found member again
  cases found with
  | requeued => exact quiet member
  | _ => cases again

section

variable (leased : Leased world)
include leased

theorem Leased.executeStep (i : ℕ) (answer : Answer) : Leased (world.executeStep setting i answer) := by
  unfold World.executeStep
  split
  · exact leased
  · rename_i execution found
    split
    · exact leased
    · rename_i alive
      have live : execution.Live := by simpa [Execution.Live] using alive
      dsimp only
      have did := @Execution.react_did setting execution
        ((world.workers execution.worker).fence execution.worker)
        (world.workers execution.worker).stopReason world.run answer
      generalize execution.react setting _ _ _ answer = reaction at did ⊢
      have settled : reaction.run.Settled := by
        rcases did.run_cases with same | ⟨patch, done⟩
        · rw [same]
          exact leased.settled
        · exact AgentRun.finish_settled leased.settled done
      split
      · rename_i ended
        have gone := leased.end_ reaction.execution found live (by simp [Execution.Live, ended])
        exact gone.row _ _ settled
      · have goes := leased.proceed found live did.kin reaction.stop
        exact goes.row _ _ settled

theorem Leased.crash (id : WorkerId) : Leased (world.crash id) := by
  have before : ∀ (j : ℕ) (other : Execution), (world.crash id).executions[j]? = some other →
      other.Live → world.executions[j]? = some other ∧ other.worker ≠ id := by
    intro j other there alive
    simp only [World.crash, List.getElem?_map, Option.map_eq_some_iff] at there
    obtain ⟨old, at_j, rfl⟩ := there
    split at alive
    · cases alive
    · rename_i different
      rw [if_neg different]
      exact ⟨at_j, different⟩
  constructor
  · intro other
    by_cases same : other = id
    · subst same
      constructor <;> simp [World.crash, World.setWorker]
    · simpa [World.crash, World.setWorker, same] using leased.fits other
  · intro other member alive
    obtain ⟨j, there⟩ := List.mem_iff_getElem?.mp member
    obtain ⟨old, different⟩ := before j other there alive
    simpa [World.crash, World.setWorker, different] using leased.flight other (List.mem_of_getElem? old) alive
  · intro j k first second at_j at_k live_j live_k same
    obtain ⟨old, -⟩ := before j first at_j live_j
    obtain ⟨old', -⟩ := before k second at_k live_k
    exact leased.single j k first second old old' live_j live_k same
  · exact leased.settled

theorem Leased.step (event : Event) : Leased (world.step setting event) := by
  cases event with
  | execute i answer => exact leased.executeStep i answer
  | tick id move => exact leased.tickStep id move
  | heartbeat id move => exact leased.beatStep id move
  | release id move => exact leased.releaseStep id move
  | crash id => exact leased.crash id
  | cancel =>
    rcases @getD_cases world.run.cancel world.run with same | cancelled
    · simpa only [World.step, same] using leased
    · obtain ⟨active, over_⟩ := AgentRun.cancel_cases cancelled
      simp only [World.step, over_]
      exact ⟨leased.fits, leased.flight, leased.single, fun final => rfl⟩
  | decide decision allowed =>
    simp only [World.step, World.decideStep]
    split
    · exact ⟨leased.fits, leased.flight, leased.single, leased.settled⟩
    · exact leased
  | decided i now =>
    simp only [World.step, World.decidedStep]
    split
    · exact leased
    · have rest : Leased { world with deciders := world.deciders.eraseIdx i } :=
        ⟨leased.fits, leased.flight, leased.single, leased.settled⟩
      split
      · rename_i run decided
        obtain ⟨waiting, rfl⟩ := AgentRun.decide_cases decided
        exact rest.row _ _ fun final => by cases final
      · exact rest

theorem Leased.runs (events : List Event) : Leased (world.runs setting events) := by
  induction events generalizing world with
  | nil => exact leased
  | cons event rest ih => exact ih (leased.step event)

end

end World

end Droplet.Runs
