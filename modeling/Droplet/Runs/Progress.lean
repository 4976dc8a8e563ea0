import Droplet.Lib.Stepping
import Droplet.Runs.Owner

/-! How far a run has got, as its row says it: the iterations its executions begin, complete and
report. -/

namespace Droplet.Runs

namespace AgentRun

def Patch.stores : Patch → Option ℕ
  | .checkpoint iteration _ => some iteration
  | .complete _ iteration _ => some iteration
  | .finish _ iteration => iteration
  | .note iteration => some iteration
  | _ => none

theorem Patch.apply_iteration (run : AgentRun) (patch : Patch) :
    (patch.apply run).iteration = patch.stores.getD run.iteration := by
  cases patch <;> rfl

theorem Patch.apply_maxIter (run : AgentRun) (patch : Patch) : (patch.apply run).maxIter = run.maxIter := by
  cases patch <;> rfl

def Capped (setting : Setting) (run : AgentRun) : Prop :=
  run.iteration ≤ min run.maxIter setting.maxIterCap

end AgentRun

/-- The iterations since the claim that the row may count; none where it is not looked at again. -/
def Stage.made : Stage → Option ℕ
  | .reading => none
  | .refusing => none
  | .capping => none
  | .ending came => came.iterations
  | .closing => none
  | .ended => none
  | stage => some (stage.iter.getD 0)

def Stage.begun : Stage → ℕ
  | .deciding => 1
  | .consuming _ => 1
  | .asking _ => 1
  | .asked _ => 1
  | .redeeming _ => 1
  | .redeemed _ => 1
  | .ending came => came.iterations.getD 0
  | stage => (stage.iter.map (· + 1)).getD 0

def Stage.place (stage : Stage) : Option ℕ × ℕ := (stage.made, stage.begun)

variable {stage : Stage}

theorem Stage.of_iter {iter : ℕ} (inside : stage.iter = some iter) : stage.place = (some iter, iter + 1) := by
  cases stage <;> simp_all [Stage.iter, Stage.place, Stage.made, Stage.begun]

theorem Stage.of_quiet (quiet : stage.quiet) :
    stage.made = stage.counted ∧ stage.begun = stage.counted.getD 0 := by
  cases stage <;> first | exact ⟨rfl, rfl⟩ | cases quiet

theorem Stage.made_begun (stage : Stage) : stage.made.getD 0 ≤ stage.begun := by
  cases stage <;> simp [Stage.made, Stage.begun, Stage.iter]

namespace Execution

/-- The row does not count more than the execution has begun, nor the execution more than the cap. -/
structure Tracks (setting : Setting) (execution : Execution) (run : AgentRun) : Prop where
  cap : execution.maxIter ≤ min run.maxIter setting.maxIterCap
  room : execution.base + execution.stage.begun ≤ execution.maxIter
  behind : ∀ made, execution.stage.made = some made → run.iteration ≤ execution.base + made

variable {setting : Setting} {execution next : Execution} {fence : AgentRun.Fence}
  {stop : Option StopReason} {run : AgentRun}

section

variable (tracks : execution.Tracks setting run)
include tracks

theorem Tracks.stays (base : next.base = execution.base)
    (maxIter : next.maxIter = execution.maxIter) (place : next.stage.place = execution.stage.place) :
    next.Tracks setting run := by
  obtain ⟨made, begun⟩ := Prod.mk.inj place
  refine ⟨maxIter ▸ tracks.cap, ?_, ?_⟩
  · rw [base, maxIter, begun]
    exact tracks.room
  · rw [base, made]
    exact tracks.behind

theorem Tracks.leaves (quiet : stage.quiet) (plain : stage.counted = none) {run' : AgentRun}
    (limit : run'.maxIter = run.maxIter) : (execution.goes stage).Tracks setting run' where
  cap := limit ▸ tracks.cap
  room := by
    have room := tracks.room
    have begun := (Stage.of_quiet quiet).2
    rw [plain] at begun
    simp only [goes, begun, Option.getD_none]
    omega
  behind := by
    intro made counts
    simp only [goes, (Stage.of_quiet quiet).1, plain] at counts
    cases counts

theorem Tracks.comes (quiet : stage.quiet) (comes : execution.Comes stage) :
    (execution.goes stage).Tracks setting run := by
  cases counted : stage.counted with
  | none => exact tracks.leaves quiet counted rfl
  | some iterations =>
    obtain ⟨iter, inside, later, room⟩ := comes iterations counted
    obtain ⟨made, begun⟩ := Prod.mk.inj (Stage.of_iter inside)
    obtain ⟨made', begun'⟩ := Stage.of_quiet quiet
    have behind := tracks.behind iter made
    have before := tracks.room
    rw [begun] at before
    rw [counted] at made' begun'
    refine ⟨tracks.cap, ?_, ?_⟩
    · simp only [goes, begun', Option.getD_some]
      exact room (by omega)
    · intro counts same
      simp only [goes, made', Option.some.injEq] at same ⊢
      omega

end

theorem completes_tracks {trace : List AgentRunTraceEntry} {tool text : String}
    (cap : execution.maxIter ≤ min run.maxIter setting.maxIterCap)
    (room : execution.base + 1 ≤ execution.maxIter) (behind : run.iteration ≤ execution.base) :
    { execution with
      trace, base := execution.base + 1, stage := .completing tool text }.Tracks setting run where
  cap := cap
  room := room
  behind := by
    intro made counts
    cases counts
    exact behind.trans (Nat.le_succ _)

variable {now : ℤ} {patch : AgentRun.Patch}

theorem patch_stores {iteration : ℕ}
    (at_write : execution.patch stop now = some patch) (stores : patch.stores = some iteration) :
    iteration = execution.base + execution.stage.made.getD 0 := by
  unfold Execution.patch at at_write
  split at at_write
  case h_11 came stage =>
    unfold lastPatch at at_write
    rw [stage, Stage.made]
    split at at_write
    case h_7 =>
      split at at_write <;> cases at_write <;> cases stores
      rfl
    all_goals cases at_write <;> cases stores <;> rfl
  all_goals
    rename_i stage
    cases at_write <;> cases stores
  all_goals
    rw [stage]
    rfl

theorem written_tracks (tracks : execution.Tracks setting run) (at_write : execution.patch stop now = some patch) :
    (execution.written setting).1.Tracks setting (patch.apply run) := by
  have cap : execution.maxIter ≤ min (patch.apply run).maxIter setting.maxIterCap := by
    rw [AgentRun.Patch.apply_maxIter]
    exact tracks.cap
  have room := tracks.room
  have behind : ∀ made, execution.stage.made = some made →
      (patch.apply run).iteration ≤ execution.base + made := by
    intro made counts
    rw [AgentRun.Patch.apply_iteration]
    cases stores : patch.stores with
    | none => exact tracks.behind made counts
    | some iteration =>
      rw [patch_stores at_write stores, counts]
      exact le_refl _
  have here : execution.Tracks setting (patch.apply run) := ⟨cap, room, behind⟩
  have written := @written_shape setting execution
  generalize (execution.written setting).1 = next at written ⊢
  cases written with
  | stops trace request stage quiet plain =>
    exact (here.leaves quiet plain rfl).stays rfl rfl rfl
  | stays iter trace request stage was inside =>
    exact here.stays rfl rfl ((Stage.of_iter inside).trans (Stage.of_iter was).symm)
  | enters was left =>
    refine ⟨cap, left, fun made counts => behind made ?_⟩
    rcases was with was | ⟨tool, text, was⟩ <;> rw [was] <;> exact counts
  | limit _ _ was | consumes _ was => exact here.stays rfl rfl (by rw [was]; rfl)
  | resumes was left => exact ⟨cap, left, fun made counts => behind made (by rw [was]; exact counts)⟩

variable {reaction : Reaction}

theorem Did.tracks (did : execution.Did setting fence stop run reaction)
    (capped : run.Capped setting) (tracks : execution.Tracks setting run) :
    reaction.execution.Tracks setting reaction.run := by
  cases did with
  | rests => exact tracks
  | goes stage quiet comes => exact tracks.comes quiet comes
  | reads stage sees => exact ⟨le_refl _, capped, fun made counts => by cases counts; exact le_refl _⟩
  | reaches _ stage | begins _ stage | asks _ _ stage | dispatches _ _ stage | challenged _ stage
  | redeems _ _ stage => exact tracks.stays rfl rfl (by rw [stage]; rfl)
  | decides decided stage =>
    have room := tracks.room
    have behind := tracks.behind 0
    rw [stage] at room behind
    rcases @decide_shape setting execution decided with ⟨_, _, _, same⟩ | ⟨_, _, same, _⟩
    · rw [same]
      exact completes_tracks tracks.cap room (behind rfl)
    · rw [same]
      exact tracks.stays rfl rfl (by rw [stage]; rfl)
  | turns iter stage left =>
    have behind := tracks.behind iter (by rw [stage]; rfl)
    refine ⟨tracks.cap, left, ?_⟩
    intro made counts
    cases counts
    exact behind.trans (Nat.add_le_add_left (Nat.le_succ iter) _)
  | checks iter call stage =>
    obtain ⟨trace, replayed, next, same, inside⟩ := @beforeToolCall_shape setting execution iter call
    rw [same]
    exact tracks.stays rfl rfl ((Stage.of_iter inside).trans (by rw [stage]; rfl))
  | answers _ _ _ _ stage | challenges _ _ stage =>
    exact tracks.stays rfl rfl (by rw [stage]; rfl)
  | settles args decided text isError stage =>
    have room := tracks.room
    have behind := tracks.behind 0
    rcases stage with stage | stage
    all_goals
      rw [stage] at room behind
      exact completes_tracks tracks.cap room (behind rfl)
  | writes patch now run' at_write applied =>
    obtain ⟨owns, on, rfl⟩ := AgentRun.finish_cases applied
    exact written_tracks tracks at_write
  | breaks patch now run' stage quiet plain at_write applied =>
    obtain ⟨owns, on, rfl⟩ := AgentRun.finish_cases applied
    exact tracks.leaves quiet plain (AgentRun.Patch.apply_maxIter run patch)

theorem Tracks.capped (tracks : execution.Tracks setting run)
    (capped : run.Capped setting) (at_write : execution.patch stop now = some patch) :
    (patch.apply run).Capped setting := by
  unfold AgentRun.Capped
  rw [AgentRun.Patch.apply_iteration, AgentRun.Patch.apply_maxIter]
  cases stores : patch.stores with
  | none => exact capped
  | some iteration =>
    have made := Stage.made_begun execution.stage
    calc
      iteration = execution.base + execution.stage.made.getD 0 := patch_stores at_write stores
      _ ≤ execution.base + execution.stage.begun := by omega
      _ ≤ execution.maxIter := tracks.room
      _ ≤ min run.maxIter setting.maxIterCap := tracks.cap

theorem Did.capped (did : execution.Did setting fence stop run reaction) (capped : run.Capped setting)
    (tracks : fence.owns run = true → execution.Tracks setting run) :
    reaction.run.maxIter = run.maxIter ∧ reaction.run.Capped setting := by
  cases did with
  | writes patch _ _ at_write applied | breaks patch _ _ _ _ _ at_write applied =>
    obtain ⟨owns, on, rfl⟩ := AgentRun.finish_cases applied
    exact ⟨patch.apply_maxIter run, (tracks owns).capped capped at_write⟩
  | _ => exact ⟨rfl, capped⟩

end Execution

/-- The last write says how far the loop has got. -/
def StopReason.told : StopReason → Bool
  | .cancelled => true
  | .deadline => true
  | .unknown_outcome => true
  | .proposed => true
  | _ => false

def StopReason.on : StopReason → AgentRunStatus
  | .cancelled => .cancelled
  | _ => .running

def Answer.writes : Answer → Bool
  | .row _ => true
  | .fails applied => applied.isSome
  | _ => false

namespace Execution

/-- The loop was left by an exception, for a reason whose last write counts its iterations, after a
checkpoint past the iteration the claim resumed at. -/
def forgets (execution : Execution) (fence : AgentRun.Fence) (stop : Option StopReason)
    (run : AgentRun) : Bool :=
  match execution.stage with
  | .ending ending =>
    match stoppedBy stop ending with
    | some reason =>
      reason.told && ending.iterations.isNone && fence.owns run && run.status = reason.on &&
        execution.base < run.iteration
    | none => false
  | _ => false

variable {setting : Setting} {execution : Execution} {fence : AgentRun.Fence}
  {stop : Option StopReason} {run : AgentRun} {reaction : Reaction}

theorem lastPatch_told {ending : Ending} {reason : StopReason} (now : ℤ)
    (stopped : stoppedBy stop ending = some reason) (told : reason.told = true) :
    ∃ patch, execution.lastPatch stop ending now = some patch ∧ patch.on = reason.on ∧
      patch.stores = some (execution.base + ending.iterations.getD 0) := by
  unfold lastPatch
  rw [stopped]
  cases reason with
  | fenced | parked => cases told
  | _ => exact ⟨_, rfl, rfl, rfl⟩

variable {now : ℤ} {patch : AgentRun.Patch}

theorem lastPatch_uncounted {ending : Ending} {iteration : ℕ}
    (at_write : execution.lastPatch stop ending now = some patch)
    (stores : patch.stores = some iteration) (uncounted : ending.iterations = none) :
    ∃ reason, stoppedBy stop ending = some reason ∧ reason.told = true ∧ patch.on = reason.on := by
  unfold lastPatch at at_write
  split at at_write
  case h_7 =>
    split at at_write <;> cases at_write <;> cases stores
    cases uncounted
  all_goals
    rename_i stopped
    cases at_write <;> cases stores <;> exact ⟨_, stopped, rfl, rfl⟩

variable {answer : Answer}

theorem react_silent (silent : answer.writes = false) :
    (execution.react setting fence stop run answer).run = run := by
  cases answer with
  | row now => cases silent
  | fails applied =>
    cases applied with
    | none =>
      simp only [react]
      split <;> rfl
    | some now => cases silent
  | _ => rfl

theorem forgets_cases (forgets : execution.forgets fence stop run = true) :
    ∃ ending reason, execution.stage = .ending ending ∧ stoppedBy stop ending = some reason ∧
      reason.told = true ∧ ending.iterations = none ∧ fence.owns run = true ∧
      run.status = reason.on ∧ execution.base < run.iteration := by
  unfold Execution.forgets at forgets
  split at forgets
  · rename_i ending stage
    split at forgets
    · rename_i reason stopped
      simp only [Bool.and_eq_true, decide_eq_true_eq, Option.isNone_iff_eq_none] at forgets
      obtain ⟨⟨⟨⟨told, uncounted⟩, owns⟩, on⟩, past⟩ := forgets
      exact ⟨ending, reason, stage, stopped, told, uncounted, owns, on, past⟩
    · cases forgets
  · cases forgets

theorem react_forgets (writes : answer.writes = true) (forgets : execution.forgets fence stop run = true) :
    (execution.react setting fence stop run answer).run.iteration < run.iteration := by
  obtain ⟨ending, reason, stage, stopped, told, uncounted, owns, on, past⟩ := forgets_cases forgets
  have done : ∀ now, ∃ patch, execution.patch stop now = some patch ∧
      run.finish fence patch = some (patch.apply run) ∧
      (patch.apply run).iteration = execution.base := by
    intro now
    obtain ⟨patch, last, status, stores⟩ := lastPatch_told now stopped told
    refine ⟨patch, ?_, ?_, ?_⟩
    · rw [Execution.patch, stage]
      exact last
    · rw [AgentRun.finish, owns, on, status]
      simp
    · rw [AgentRun.Patch.apply_iteration, stores, uncounted]
      rfl
  cases answer with
  | row now =>
    obtain ⟨patch, at_write, applied, stores⟩ := done now
    have blind : execution.look setting fence stop now run = none := by rw [look, stage]
    simp only [react, blind, at_write, applied, stores]
    exact past
  | fails applied =>
    obtain ⟨now, rfl⟩ := Option.isSome_iff_exists.mp writes
    obtain ⟨patch, at_write, applied, stores⟩ := done now
    simp only [react, stage, Option.bind_some, at_write, applied, stores]
    exact past
  | _ => cases writes

theorem patch_uncounted {iteration : ℕ}
    (at_write : execution.patch stop now = some patch) (stores : patch.stores = some iteration)
    (uncounted : execution.stage.made = none) :
    ∃ ending, execution.stage = .ending ending ∧ ending.iterations = none ∧
      execution.lastPatch stop ending now = some patch := by
  unfold Execution.patch at at_write
  split at at_write
  case h_11 came stage =>
    rw [stage] at uncounted
    exact ⟨came, stage, uncounted, at_write⟩
  all_goals
    rename_i stage
    cases at_write <;> cases stores
  all_goals
    rw [stage] at uncounted
    cases uncounted

theorem Tracks.ascends {run' : AgentRun}
    (tracks : execution.Tracks setting run) (at_write : execution.patch stop now = some patch)
    (applied : run.finish fence patch = some run')
    (keeps : execution.forgets fence stop run = false) : run.iteration ≤ run'.iteration := by
  obtain ⟨owns, on, rfl⟩ := AgentRun.finish_cases applied
  rw [AgentRun.Patch.apply_iteration]
  cases stores : patch.stores with
  | none => exact le_refl _
  | some iteration =>
    have same := patch_stores at_write stores
    cases counts : execution.stage.made with
    | some made =>
      rw [counts] at same
      exact (tracks.behind made counts).trans same.ge
    | none =>
      rw [counts] at same
      obtain ⟨ending, stage, uncounted, last⟩ := patch_uncounted at_write stores counts
      obtain ⟨reason, stopped, told, status⟩ := lastPatch_uncounted last stores uncounted
      simpa [Execution.forgets, stage, stopped, told, uncounted, owns, on, status, same] using keeps

theorem react_ascends (tracks : fence.owns run = true → execution.Tracks setting run) :
    run.iteration ≤ (execution.react setting fence stop run answer).run.iteration ↔
      (answer.writes && execution.forgets fence stop run) = false := by
  constructor
  · intro ascends
    by_contra forgets
    rw [Bool.not_eq_false, Bool.and_eq_true] at forgets
    exact absurd ascends (react_forgets forgets.1 forgets.2).not_ge
  · intro keeps
    cases writes : answer.writes with
    | false => rw [react_silent writes]
    | true =>
      rw [writes, Bool.true_and] at keeps
      have did := @react_did setting execution fence stop run answer
      generalize execution.react setting fence stop run answer = reaction at did ⊢
      cases did with
      | writes _ _ _ at_write applied | breaks _ _ _ _ _ _ at_write applied =>
        exact (tracks (AgentRun.finish_cases applied).1).ascends at_write applied keeps
      | _ => exact le_refl _

end Execution

namespace World

/-- This step is the last write of an execution that forgets how far it got. -/
def losesTrack (world : World) : Event → Bool
  | .execute i answer =>
    match world.executions[i]? with
    | some execution =>
      let worker := world.workers execution.worker
      answer.writes &&
        execution.forgets (worker.fence execution.worker) worker.stopReason world.run
    | none => false
  | _ => false

structure Kept (setting : Setting) (maxIter : ℕ) (world : World) : Prop where
  leased : Leased world
  limit : world.run.maxIter = maxIter
  capped : world.run.Capped setting
  tracks : ∀ execution ∈ world.executions, execution.Live → execution.Holds world.run →
    execution.Tracks setting world.run

variable {setting : Setting} {maxIter : ℕ} {world : World}

theorem start_kept (runAfter : ℤ) : Kept setting maxIter (World.start (enqueued maxIter runAfter)) where
  leased := start_leased maxIter runAfter
  limit := rfl
  capped := Nat.zero_le _
  tracks := fun _ found => nomatch found

section

variable (kept : Kept setting maxIter world)
include kept

theorem Passed.tracks {event : Event} {run : AgentRun} {executions : List Execution}
    {happened : List Happening} (passed : Passed setting world event run executions happened)
    (other : ∀ i answer, event ≠ .execute i answer) :
    ∀ execution ∈ executions, execution.Live → execution.Holds run →
      execution.Tracks setting run := by
  intro execution found live holds
  rcases passed.beside kept.leased other found live holds with ⟨id, now, rfl⟩ | ⟨there, held, beside⟩
  · exact ⟨Nat.zero_le _, le_refl _, fun made counts => nomatch counts⟩
  · have before := kept.tracks execution there live held
    exact ⟨beside.maxIter ▸ before.cap, before.room, beside.iteration ▸ before.behind⟩

theorem Kept.step (event : Event) : Kept setting maxIter (world.step setting event) := by
  have leased : Leased (world.step setting event) := kept.leased.step event
  obtain ⟨happened, passed, -⟩ := @step_passed setting world event
  generalize world.step setting event = after at leased passed ⊢
  by_cases execute : ∃ i answer, event = .execute i answer
  · obtain ⟨i, answer, rfl⟩ := execute
    obtain ⟨run, workers, executions, deciders, log⟩ := after
    dsimp only at passed
    cases passed with
    | rests => exact ⟨leased, kept.limit, kept.capped, kept.tracks⟩
    | executed i answer execution reaction found live did =>
      have member := List.mem_of_getElem? found
      have row := did.capped kept.capped fun owns =>
        kept.tracks execution member live (kept.leased.fence_holds member live owns)
      refine ⟨leased, row.1.trans kept.limit, row.2, ?_⟩
      intro other there alive holds
      obtain ⟨j, at_j⟩ := List.getElem?_of_mem there
      by_cases same : i = j
      · subst same
        obtain rfl : reaction.execution = other := by
          simpa [(List.getElem?_eq_some_iff.mp found).1] using at_j
        exact did.tracks kept.capped (kept.tracks execution member live (did.held holds))
      · rw [List.getElem?_set_ne same] at at_j
        dsimp only at holds ⊢
        have untouched := kept.leased.bystander found live did at_j alive same holds
        rw [untouched] at holds ⊢
        exact kept.tracks other (List.mem_of_getElem? at_j) alive holds
  · have other : ∀ i answer, event ≠ .execute i answer := by
      intro i answer same
      exact execute ⟨i, answer, same⟩
    obtain ⟨iteration, limit, -⟩ := passed.counters other
    refine ⟨leased, limit.trans kept.limit, ?_, passed.tracks kept other⟩
    rw [AgentRun.Capped, iteration, limit]
    exact kept.capped

theorem Kept.step_ascends (event : Event) :
    world.run.iteration ≤ (world.step setting event).run.iteration ↔
      world.losesTrack event = false := by
  by_cases execute : ∃ i answer, event = .execute i answer
  · obtain ⟨i, answer, rfl⟩ := execute
    simp only [World.step, executeStep, losesTrack]
    cases found : world.executions[i]? with
    | none => simp
    | some execution =>
      have member := List.mem_of_getElem? found
      dsimp only
      split
      · rename_i ended
        cases stage : execution.stage <;> simp_all [isEnded, Execution.forgets]
      · rename_i alive
        have live : execution.Live := by simpa [Execution.Live] using alive
        exact Execution.react_ascends fun owns =>
          kept.tracks execution member live (kept.leased.fence_holds member live owns)
  · have other : ∀ i answer, event ≠ .execute i answer := by
      intro i answer same
      exact execute ⟨i, answer, same⟩
    obtain ⟨happened, passed, -⟩ := @step_passed setting world event
    rw [(passed.counters other).1]
    cases event with
    | execute i answer => exact absurd rfl (other i answer)
    | _ => simp [losesTrack]

end

/-- What a run's row says of its progress stays below the cap, and never goes back exactly where no
last write forgets it. -/
theorem progress_ascends_iff (setting : Setting) (maxIter : ℕ) (runAfter : ℤ)
    (events : List Event) :
    let reached := fun done => ((World.start (enqueued maxIter runAfter)).runs setting done).run.iteration
    (∀ done rest, events = done ++ rest → reached done ≤ min maxIter setting.maxIterCap) ∧
      ((∀ first next rest, events = first ++ next ++ rest → reached first ≤ reached (first ++ next)) ↔
        Stepping.Along (step setting) (fun world event => world.losesTrack event = false)
          (World.start (enqueued maxIter runAfter)) events) := by
  intro reached
  have start : Kept setting maxIter (World.start (enqueued maxIter runAfter)) := start_kept runAfter
  have keeps : ∀ world event, Kept setting maxIter world →
      Kept setting maxIter (world.step setting event) := by
    intro world event kept
    exact kept.step event
  constructor
  · intro done rest split
    have kept := Stepping.run_keeps keeps done start
    have capped := kept.capped
    rw [AgentRun.Capped, kept.limit] at capped
    exact capped
  · have ascends : ∀ world event, Kept setting maxIter world →
        (world.run.iteration ≤ (world.step setting event).run.iteration ↔
          world.losesTrack event = false) := by
      intro world event kept
      exact kept.step_ascends event
    exact Stepping.along_ascends.symm.trans (Stepping.along_congr keeps ascends start)

/-- A worker claims the run and checkpoints its second iteration. -/
def twoIterations : List Event :=
  [.tick 0 (.start 0), .tick 0 (.stale false), .tick 0 (.choose true), .tick 0 (.claim false),
    .tick 0 .launch, .tick 0 .leave, .execute 0 (.row 1), .execute 0 (.access (some ⟨fun _ _ => none, []⟩)),
    .execute 0 (.row 2), .execute 0 (.row 3), .execute 0 (.row 4), .execute 0 .turns,
    .execute 0 (.row 5), .execute 0 (.row 6)]

/-- The next one finds the deadline passed. -/
def overdue : List Event := [.execute 0 .turns, .execute 0 (.row 200), .execute 0 (.row 201)]

theorem overdue_run_goes_back :
    ((World.start (enqueued 5 0)).runs hurried twoIterations).run.iteration = 1 ∧
      ((World.start (enqueued 5 0)).runs hurried (twoIterations ++ overdue)).run.status = .failed ∧
      ((World.start (enqueued 5 0)).runs hurried (twoIterations ++ overdue)).run.iteration = 0 := by
  decide

end World

end Droplet.Runs
