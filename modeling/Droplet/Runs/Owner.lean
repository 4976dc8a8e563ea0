import Droplet.Lib.Stepping
import Droplet.Runs.Lease

/-! At every moment of a run at most one execution can write to its row, and never again once it has
lost its lease. -/

namespace Droplet.Runs

open Places

namespace AgentRun

variable {run run' : AgentRun}

theorem finish_lease {fence : Fence} {patch : Patch} (done : run.finish fence patch = some run') :
    run'.claimedBy = none ∨ run'.claimedBy = run.claimedBy ∧ run'.claimedAt = run.claimedAt := by
  obtain ⟨owns, on, rfl⟩ := finish_cases done
  cases patch with
  | park | giveWay => exact .inl rfl
  | _ => exact .inr ⟨rfl, rfl⟩

theorem not_holds {execution : Execution} (lost : ¬ execution.Holds run) (lease : run'.claimedBy = none ∨
      run'.claimedBy = run.claimedBy ∧ run'.claimedAt = run.claimedAt) :
    ¬ execution.Holds run' := by
  intro holds
  rcases lease with none | ⟨worker, instant⟩
  · rw [Execution.Holds, none] at holds
    cases holds.1
  · rw [Execution.Holds, worker, instant] at holds
    exact lost holds

end AgentRun

variable {execution : Execution} {reaction : Reaction}

theorem Execution.Did.held {setting : Setting} {fence : AgentRun.Fence} {stop : Option StopReason} {run : AgentRun}
    (did : execution.Did setting fence stop run reaction)
    (holds : reaction.execution.Holds reaction.run) : execution.Holds run := by
  rw [Execution.Holds, did.kin.1, did.kin.2] at holds
  rcases did.run_cases with same | ⟨patch, done⟩
  · rwa [same] at holds
  · by_contra lost
    exact AgentRun.not_holds lost (AgentRun.finish_lease done) holds

namespace World

variable {setting : Setting} {world : World}

/-- This execution will not write any more. -/
def Powerless (world : World) (i : ℕ) : Prop :=
  ∃ execution, world.executions[i]? = some execution ∧
    (execution.Live → ¬ execution.Holds world.run)

variable {i : ℕ}

theorem Powerless.kept {next : World} (powerless : Powerless world i)
    (same : next.executions = world.executions) (lease : next.run.claimedBy = none ∨
      next.run.claimedBy = world.run.claimedBy ∧ next.run.claimedAt = world.run.claimedAt) :
    Powerless next i := by
  obtain ⟨execution, found, lost⟩ := powerless
  exact ⟨execution, same ▸ found, fun live => AgentRun.not_holds (lost live) lease⟩

section

variable (leased : Leased world)
include leased

theorem Leased.claims_nothing {id : WorkerId} {now : ℤ} (tick : (world.workers id).tick = .claiming now)
    (found : execution ∈ world.executions) (live : execution.Live) : execution.worker ≠ id := by
  intro same
  have flight := (leased.flight execution found live).1
  rw [same, (leased.fits id).free now (.inl tick)] at flight
  cases flight

theorem Powerless.step (powerless : Powerless world i)
    (event : Event) : Powerless (world.step setting event) i := by
  obtain ⟨happened, passed, -⟩ := @step_passed setting world event
  generalize world.step setting event = next at passed ⊢
  obtain ⟨run, workers, executions, deciders, log⟩ := next
  dsimp only at passed
  cases passed with
  | rests => exact powerless.kept rfl (.inr ⟨rfl, rfl⟩)
  | claimed id now lost run tick claim =>
    obtain ⟨execution, found, lost⟩ := powerless
    obtain ⟨queued, rfl⟩ := AgentRun.claim_cases claim
    refine ⟨execution, found, ?_⟩
    intro live holds
    exact leased.claims_nothing tick (List.mem_of_getElem? found) live (Option.some.inj holds.1).symm
  | launched id now tick =>
    obtain ⟨execution, found, lost⟩ := powerless
    refine ⟨execution, ?_, lost⟩
    rw [List.getElem?_append_left (List.getElem?_eq_some_iff.mp found).1]
    exact found
  | requeued id now stale run tick below requeue =>
    obtain ⟨running, rfl⟩ := AgentRun.requeue_cases requeue
    exact powerless.kept rfl (.inl rfl)
  | gaveUp id stale run giveUp =>
    obtain ⟨running, rfl⟩ := AgentRun.giveUp_cases giveUp
    exact powerless.kept rfl (.inr ⟨rfl, rfl⟩)
  | beaten id now run beat =>
    obtain ⟨owns, running, rfl⟩ := AgentRun.beat_cases beat
    exact powerless.kept rfl (.inr ⟨rfl, rfl⟩)
  | released id held now run release =>
    obtain ⟨owns, running, rfl⟩ := AgentRun.release_cases release
    exact powerless.kept rfl (.inl rfl)
  | crashed id =>
    obtain ⟨execution, found, lost⟩ := powerless
    refine ⟨_, by rw [List.getElem?_map, found, Option.map_some], ?_⟩
    split
    · intro live
      cases live
    · exact lost
  | cancelled run cancel =>
    obtain ⟨active, rfl⟩ := AgentRun.cancel_cases cancel
    exact powerless.kept rfl (.inr ⟨rfl, rfl⟩)
  | decided j decision now deadlineAt run decide =>
    obtain ⟨waiting, rfl⟩ := AgentRun.decide_cases decide
    exact powerless.kept rfl (.inr ⟨rfl, rfl⟩)
  | executed j answer execution reaction found live did =>
    have lease : reaction.run.claimedBy = none ∨ reaction.run.claimedBy = world.run.claimedBy ∧
          reaction.run.claimedAt = world.run.claimedAt := by
      rcases did.run_cases with same | ⟨patch, done⟩
      · rw [same]
        exact .inr ⟨rfl, rfl⟩
      · exact AgentRun.finish_lease done
    obtain ⟨other, there, lost⟩ := powerless
    by_cases same : i = j
    · subst same
      cases found.symm.trans there
      refine ⟨reaction.execution, ?_, ?_⟩
      · simp [(List.getElem?_eq_some_iff.mp found).1]
      · intro alive holds
        rw [Execution.Holds, did.kin.1, did.kin.2] at holds
        exact AgentRun.not_holds (lost live) lease holds
    · refine ⟨other, ?_, fun alive => AgentRun.not_holds (lost alive) lease⟩
      rw [List.getElem?_set_ne (Ne.symm same)]
      exact there

theorem Powerless.runs (powerless : Powerless world i)
    (events : List Event) : Powerless (world.runs setting events) i := by
  induction events generalizing world with
  | nil => exact powerless
  | cons event rest ih => exact ih (leased.step event) (powerless.step leased event)

theorem Leased.execute_holds {answer : Answer}
    (writes : (world.step setting (.execute i answer)).run ≠ world.run) :
    ∃ execution, world.executions[i]? = some execution ∧ execution.Live ∧
      execution.Holds world.run := by
  rw [World.step] at writes
  unfold World.executeStep at writes
  split at writes
  · exact absurd rfl writes
  · rename_i execution found
    split at writes
    · exact absurd rfl writes
    · rename_i alive
      have live : execution.Live := by simpa [Execution.Live] using alive
      refine ⟨execution, found, live, ?_⟩
      have lease := (leased.flight execution (List.mem_of_getElem? found) live).2
      have did := @Execution.react_did setting execution
        ((world.workers execution.worker).fence execution.worker)
        (world.workers execution.worker).stopReason world.run answer
      rcases did.run_cases with same | ⟨patch, done⟩
      · exact absurd same writes
      · have owns := (AgentRun.finish_cases done).1
        rw [Worker.fence, lease] at owns
        exact AgentRun.owns_lease owns

theorem Leased.one_holder {i j : ℕ} {first second : Execution}
    (at_i : world.executions[i]? = some first) (at_j : world.executions[j]? = some second)
    (live_i : first.Live) (live_j : second.Live) (holds_i : first.Holds world.run)
    (holds_j : second.Holds world.run) : i = j := by
  have same : first.worker = second.worker := by
    have both := holds_i.1.symm.trans holds_j.1
    exact Option.some.inj both
  exact leased.single i j first second at_i at_j live_i live_j same

theorem Leased.fence_holds (found : execution ∈ world.executions) (live : execution.Live)
    (owns : ((world.workers execution.worker).fence execution.worker).owns world.run = true) :
    execution.Holds world.run := by
  rw [Worker.fence, (leased.flight execution found live).2] at owns
  exact AgentRun.owns_lease owns

theorem Leased.bystander {i j : ℕ} {execution other : Execution} (found : world.executions[i]? = some execution) (live : execution.Live)
    (did : execution.Did setting ((world.workers execution.worker).fence execution.worker)
      (world.workers execution.worker).stopReason world.run reaction)
    (at_j : world.executions[j]? = some other) (alive : other.Live) (apart : i ≠ j)
    (holds : other.Holds reaction.run) : reaction.run = world.run := by
  rcases did.run_cases with same | ⟨patch, done⟩
  · exact same
  · have held : other.Holds world.run := by
      by_contra lost
      exact AgentRun.not_holds lost (AgentRun.finish_lease done) holds
    have own := leased.fence_holds (List.mem_of_getElem? found) live (AgentRun.finish_cases done).1
    exact absurd (leased.one_holder found at_j live alive own held) apart

end

/-- How far a run has got and what is pending, as an execution finds them that keeps its lease. -/
structure Beside (before after : AgentRun) : Prop where
  iteration : after.iteration = before.iteration
  maxIter : after.maxIter = before.maxIter
  parks : after.parks = before.parks
  running : after.status = .running →
    before.status = .running ∧ after.pendingDecision = before.pendingDecision

section

variable (leased : Leased world)
include leased

theorem Passed.beside {event : Event} {run : AgentRun}
    {executions : List Execution} {happened : List Happening}
    (passed : Passed setting world event run executions happened)
    (other : ∀ i answer, event ≠ .execute i answer)
    (found : execution ∈ executions) (live : execution.Live) (holds : execution.Holds run) :
    (∃ id now, execution = { worker := id, claimedAt := now }) ∨
      execution ∈ world.executions ∧ execution.Holds world.run ∧ Beside world.run run := by
  have same : Beside world.run world.run := ⟨rfl, rfl, rfl, fun running => ⟨running, rfl⟩⟩
  cases passed with
  | rests => exact .inr ⟨found, holds, same⟩
  | claimed id now lost run tick claim =>
    obtain ⟨queued, rfl⟩ := AgentRun.claim_cases claim
    exact absurd (Option.some.inj holds.1).symm (leased.claims_nothing tick found live)
  | launched id now tick =>
    rcases List.mem_append.mp found with found | new
    · exact .inr ⟨found, holds, same⟩
    · exact .inl ⟨id, now, List.mem_singleton.mp new⟩
  | requeued id now stale run tick below requeue =>
    obtain ⟨running, rfl⟩ := AgentRun.requeue_cases requeue
    cases holds.1
  | gaveUp id stale run giveUp =>
    obtain ⟨running, rfl⟩ := AgentRun.giveUp_cases giveUp
    exact .inr ⟨found, holds, rfl, rfl, rfl, nofun⟩
  | beaten id now run beat =>
    obtain ⟨owns, running, rfl⟩ := AgentRun.beat_cases beat
    exact .inr ⟨found, holds, rfl, rfl, rfl, fun running => ⟨running, rfl⟩⟩
  | released id held now run release =>
    obtain ⟨owns, running, rfl⟩ := AgentRun.release_cases release
    cases holds.1
  | crashed id =>
    obtain ⟨former, member, rfl⟩ := List.mem_map.mp found
    by_cases gone : former.worker = id
    · rw [if_pos gone] at live
      cases live
    · rw [if_neg gone] at holds ⊢
      exact .inr ⟨member, holds, same⟩
  | cancelled run cancel =>
    obtain ⟨active, rfl⟩ := AgentRun.cancel_cases cancel
    exact .inr ⟨found, holds, rfl, rfl, rfl, nofun⟩
  | decided i decision now deadlineAt run decide =>
    obtain ⟨waiting, rfl⟩ := AgentRun.decide_cases decide
    exact .inr ⟨found, holds, rfl, rfl, rfl, nofun⟩
  | executed i answer => exact absurd rfl (other i answer)

theorem Leased.lost (found : world.executions[i]? = some execution) (lost : ¬ execution.Holds world.run)
    (later : List Event) (answer : Answer) :
    ((world.runs setting later).step setting (.execute i answer)).run =
      (world.runs setting later).run := by
  have powerless : Powerless world i := ⟨execution, found, fun _ => lost⟩
  by_contra writes
  obtain ⟨other, there, live, holds⟩ := (leased.runs later).execute_holds writes
  obtain ⟨same, here, kept⟩ := powerless.runs leased later
  cases there.symm.trans here
  exact kept live holds

theorem Leased.heartbeat_holds {id : WorkerId} {move : BeatMove}
    (writes : (world.step setting (.heartbeat id move)).run ≠ world.run) :
    world.run.claimedBy = some id ∧ ∀ execution ∈ world.executions, execution.Live →
      execution.worker = id → execution.Holds world.run := by
  obtain ⟨happened, passed, -⟩ := @step_passed setting world (.heartbeat id move)
  generalize world.step setting (.heartbeat id move) = next at passed writes
  obtain ⟨run, workers, executions, deciders, log⟩ := next
  dsimp only at passed writes
  cases passed with
  | rests => exact absurd rfl writes
  | beaten _ now run beat =>
    have owns := (AgentRun.beat_cases beat).1
    refine ⟨AgentRun.owns_worker owns, ?_⟩
    intro execution found live same
    have lease := (leased.flight execution found live).2
    rw [same] at lease
    rw [Worker.fence, lease] at owns
    obtain ⟨worker, instant⟩ := AgentRun.owns_lease owns
    exact ⟨same ▸ worker, instant⟩

theorem Leased.release_holds {id : WorkerId} {move : ShutdownMove}
    (writes : (world.step setting (.release id move)).run ≠ world.run) :
    world.run.claimedBy = some id ∧ ∀ execution ∈ world.executions, execution.Live →
      ¬ execution.Holds world.run := by
  rw [World.step] at writes
  unfold World.releaseStep at writes
  split at writes
  · split at writes <;> exact absurd rfl writes
  · rename_i held now settling
    split at writes
    · exact absurd rfl writes
    · rename_i idle
      rcases @getD_cases (world.run.release ⟨id, held⟩ now) world.run with same | released
      · exact absurd same writes
      · obtain ⟨owns, -, -⟩ := AgentRun.release_cases released
        obtain ⟨lease, rfl⟩ := Option.ne_none_iff_exists'.mp ((leased.fits id).held held settling)
        obtain ⟨worker, instant⟩ := AgentRun.owns_lease owns
        refine ⟨worker, ?_⟩
        intro execution found live holds
        obtain ⟨flying, own⟩ := leased.flight execution found live
        have same : execution.worker = id := Option.some.inj (holds.1.symm.trans worker)
        have instants : execution.claimedAt = lease := Option.some.inj (holds.2.symm.trans instant)
        rw [same] at flying own
        simp [flying, own, instants] at idle
  · exact absurd rfl writes

end

variable {event : Event} {executions : List Execution} {happened : List Happening}

theorem Passed.final {run : AgentRun} (passed : Passed setting world event run executions happened)
    (final : world.run.status.final = true) : run.status = world.run.status := by
  have active : ∀ {status : AgentRunStatus}, world.run.status = status → status.final = false →
      run.status = world.run.status := by
    intro status same not_final
    rw [same, not_final] at final
    cases final
  cases passed with
  | rests | launched | crashed => rfl
  | claimed id now lost run tick claim => exact active (AgentRun.claim_cases claim).1 rfl
  | requeued id now stale run tick below requeue => exact active (AgentRun.fence_running (AgentRun.requeue_cases requeue).1) rfl
  | gaveUp id stale run giveUp => exact active (AgentRun.giveUp_cases giveUp).1 rfl
  | beaten id now run beat => exact active (AgentRun.beat_cases beat).2.1 rfl
  | released id held now run release => exact active (AgentRun.release_cases release).2.1 rfl
  | cancelled run cancel => exact active rfl (AgentRun.cancel_cases cancel).1
  | decided j decision now deadlineAt run decide => exact active (AgentRun.decide_cases decide).1 rfl
  | executed j answer execution reaction found live did =>
    rcases did.run_cases with same | ⟨patch, done⟩
    · rw [same]
    · exact AgentRun.finish_final final done

theorem final_stays (final : world.run.status.final = true) (events : List Event) :
    (world.runs setting events).run.status = world.run.status := by
  induction events generalizing world with
  | nil => rfl
  | cons event rest ih =>
    obtain ⟨happened, passed, -⟩ := @step_passed setting world event
    have same := passed.final final
    rw [← same] at final ⊢
    exact ih final

/-- A tick is about to put the row back into the queue, and another one has done so since it read the
row. Only the worker's name is compared. -/
def requeuesTwice (setting : Setting) (world : World) : Event → Bool
  | .tick id .reclaim =>
    match (world.workers id).tick with
    | .reclaiming _ stale => stale.attempts < setting.maxAttempts && stale.fence world.run &&
        stale.attempts ≠ world.run.attempts
    | _ => false
  | _ => false

theorem Passed.counters {run : AgentRun} (passed : Passed setting world event run executions happened)
    (other : ∀ i answer, event ≠ .execute i answer) :
    run.iteration = world.run.iteration ∧ run.maxIter = world.run.maxIter ∧
      run.attempts = world.run.attempts + happened.countP isRequeue := by
  cases passed with
  | claimed id now lost run tick claim =>
    obtain ⟨queued, rfl⟩ := AgentRun.claim_cases claim
    exact ⟨rfl, rfl, rfl⟩
  | requeued id now stale run tick below requeue =>
    obtain ⟨running, rfl⟩ := AgentRun.requeue_cases requeue
    exact ⟨rfl, rfl, rfl⟩
  | gaveUp id stale run giveUp =>
    obtain ⟨running, rfl⟩ := AgentRun.giveUp_cases giveUp
    exact ⟨rfl, rfl, rfl⟩
  | beaten id now run beat =>
    obtain ⟨owns, running, rfl⟩ := AgentRun.beat_cases beat
    exact ⟨rfl, rfl, rfl⟩
  | released id held now run release =>
    obtain ⟨owns, running, rfl⟩ := AgentRun.release_cases release
    exact ⟨rfl, rfl, rfl⟩
  | cancelled run cancel =>
    obtain ⟨active, rfl⟩ := AgentRun.cancel_cases cancel
    exact ⟨rfl, rfl, rfl⟩
  | decided i decision now deadlineAt run decide =>
    obtain ⟨waiting, rfl⟩ := AgentRun.decide_cases decide
    exact ⟨rfl, rfl, rfl⟩
  | executed i answer => exact absurd rfl (other i answer)
  | _ => exact ⟨rfl, rfl, rfl⟩

theorem Passed.attempts {run : AgentRun} (passed : Passed setting world event run executions happened) :
    run.attempts = world.run.attempts + happened.countP isRequeue := by
  by_cases execution : ∃ i answer, event = .execute i answer
  · obtain ⟨i, answer, rfl⟩ := execution
    cases passed with
    | rests => rfl
    | executed j answer execution reaction found live did =>
      rw [happened_quiet did.requeued]
      rcases did.run_cases with same | ⟨patch, done⟩
      · rw [same, Nat.add_zero]
      · exact AgentRun.finish_attempts done
  · exact (passed.counters fun i answer is => execution ⟨i, answer, is⟩).2.2

/-- Every time the run went back into the queue for a lost lease is counted on its row. -/
structure Counted (setting : Setting) (world : World) : Prop where
  counted : world.log.countP isRequeue = world.run.attempts
  bounded : world.run.attempts ≤ setting.maxAttempts

theorem Counted.step (counted : Counted setting world)
    (once : world.requeuesTwice setting event = false) : Counted setting (world.step setting event) := by
  obtain ⟨happened, passed, log⟩ := @step_passed setting world event
  have attempts := passed.attempts
  refine ⟨by rw [log, List.countP_append, counted.counted, attempts], ?_⟩
  rw [attempts]
  generalize (world.step setting event).run = run, (world.step setting event).executions = executions
    at passed
  cases passed with
  | requeued id now stale run tick below requeue =>
    have same : stale.fence world.run = true → stale.attempts = world.run.attempts := by
      simpa [requeuesTwice, tick, below] using once
    rw [← same (AgentRun.requeue_cases requeue).1]
    exact below
  | executed j answer execution reaction found live did =>
    rw [happened_quiet did.requeued]
    exact counted.bounded
  | _ => exact counted.bounded

/-- For every order of every process's steps: at most one live execution has its lease on the row, no
other's writes take effect, who has lost the lease never writes again, and a run that is over stays as it
is. A lost lease puts a run back into the queue at most `maxAttempts` times, while no tick does so over
another one's. -/
theorem one_live_owner (setting : Setting) (maxIter : ℕ) (runAfter : ℤ) (events : List Event) :
    let start := World.start (enqueued maxIter runAfter)
    let world := start.runs setting events
    (∀ (i j : ℕ) (first second : Execution),
      world.executions[i]? = some first → world.executions[j]? = some second →
        first.Live → second.Live → first.Holds world.run → second.Holds world.run → i = j) ∧
    (∀ (i : ℕ) (answer : Answer), (world.step setting (.execute i answer)).run ≠ world.run →
      ∃ execution, world.executions[i]? = some execution ∧ execution.Live ∧
        execution.Holds world.run) ∧
    (∀ (id : WorkerId) (move : BeatMove),
      (world.step setting (.heartbeat id move)).run ≠ world.run →
        world.run.claimedBy = some id ∧ ∀ execution ∈ world.executions, execution.Live →
          execution.worker = id → execution.Holds world.run) ∧
    (∀ (id : WorkerId) (move : ShutdownMove),
      (world.step setting (.release id move)).run ≠ world.run →
        world.run.claimedBy = some id ∧ ∀ execution ∈ world.executions, execution.Live →
          ¬ execution.Holds world.run) ∧
    (∀ (i : ℕ) (execution : Execution), world.executions[i]? = some execution →
      ¬ execution.Holds world.run → ∀ (later : List Event) (answer : Answer),
        ((world.runs setting later).step setting (.execute i answer)).run =
          (world.runs setting later).run) ∧
    (world.run.status.final = true → world.run.pendingDecision = none ∧
      ∀ later : List Event, (world.runs setting later).run.status = world.run.status) ∧
    (Stepping.Along (step setting) (fun world event => world.requeuesTwice setting event = false)
        start events →
      world.log.countP isRequeue ≤ setting.maxAttempts) := by
  have leased : Leased ((World.start (enqueued maxIter runAfter)).runs setting events) :=
    (start_leased maxIter runAfter).runs events
  intro start world
  refine ⟨?_, ?_, ?_, ?_, ?_, ?_, ?_⟩
  · intro i j first second at_i at_j live_i live_j
    exact leased.one_holder at_i at_j live_i live_j
  · intro i answer
    exact leased.execute_holds
  · intro id move
    exact leased.heartbeat_holds
  · intro id move
    exact leased.release_holds
  · intro i execution found lost later answer
    exact leased.lost found lost later answer
  · intro final
    exact ⟨leased.settled final, fun later => final_stays final later⟩
  · intro once
    have counted : Counted setting world :=
      once.keeps (fun world event counted once => counted.step once) ⟨rfl, Nat.zero_le _⟩
    exact counted.counted.trans_le counted.bounded

/-- Nothing in the catalog, and a tenth of a second for a run. -/
def hurried : Setting where
  sha256 := fun _ => ""
  catalog := fun _ => none
  workspaceTools := []
  malformed := fun _ _ => false
  reclaimAfterMs := 60000
  maxAttempts := 3
  maxWallMs := 100
  maxIterCap := 25

/-- A worker reads no stale row, claims the run and starts it. -/
def claims (id : WorkerId) (now : ℤ) : List Event :=
  [.tick id (.start now), .tick id (.stale false), .tick id (.choose true), .tick id (.claim false),
    .tick id .launch, .tick id .leave]

/-- Two ticks read the row of a worker that has stalled, and the first puts it back. -/
def overlap : List Event :=
  claims 0 0 ++ [.tick 1 (.start 60001), .tick 1 (.stale true), .tick 2 (.start 60002), .tick 2 (.stale true),
    .tick 1 .reclaim]

/-- The second finds it in the queue, and claims it. -/
def overlapped : List Event :=
  overlap ++ [.tick 2 .reclaim, .tick 2 (.choose true), .tick 2 (.claim false), .tick 2 .launch]

theorem overlapped_ticks_requeue_once :
    let world := (World.start (enqueued 5 0)).runs hurried overlapped
    world.run.claimedBy = some 2 ∧ world.log.countP isRequeue ≤ 3 ∧
      ∀ later answer, ((world.runs hurried later).step hurried (.execute 0 answer)).run =
        (world.runs hurried later).run := by
  have owner := one_live_owner hurried 5 0 overlapped
  refine ⟨by decide, owner.2.2.2.2.2.2 (by decide), ?_⟩
  refine owner.2.2.2.2.1 0 { worker := 0, claimedAt := 0 } rfl ?_
  intro holds
  exact absurd holds.1 (by decide)

/-- The stalled worker sees that it has lost the row and claims it again. The second tick puts it back
although nothing is lost. -/
def reclaimedTwice : List Event :=
  overlap ++ [.execute 0 (.row 60003), .execute 0 .closes] ++ claims 0 60004 ++ [.tick 2 .reclaim]

theorem live_lease_is_requeued :
    let setting := { hurried with maxAttempts := 1 }
    let world := (World.start (enqueued 5 0)).runs setting reclaimedTwice
    ¬ world.log.countP isRequeue ≤ setting.maxAttempts := by
  decide

end World

end Droplet.Runs
