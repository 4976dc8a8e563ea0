import Droplet.Lib.Stepping
import Droplet.Brain.Steps

/-! A shutdown returns when no run of its process is left, and a run that lost its claim was told. -/

namespace Droplet.Brain

open Droplet.Lib

/-- In `inFlight`. -/
def Stage.works (stage : Stage) : Prop := stage = .running ∨ stage = .releasing

/-- In `pending`. -/
def Stage.waits (stage : Stage) : Prop :=
  stage = .claiming ∨ stage = .asking ∨ stage = .handingBack

structure Process.Empty (process : Process) : Prop where
  pending : process.pending = []
  inFlight : process.inFlight.entries = []

structure Tracked (world : World) : Prop where
  told : ∀ id, .told id false ∈ world.log → ∃ run, world.runs[id]? = some run ∧ run.aborted = true
  works : ∀ id run, world.runs[id]? = some run → run.stage.works →
    (world.processes run.workerId).inFlight.get? run.passKey = some id
  waits : ∀ id run, world.runs[id]? = some run → run.stage.waits →
    id ∈ (world.processes run.workerId).pending
  returned : ∀ workerId, (world.processes workerId).shutdown = .returned →
    (world.processes workerId).Empty

variable {world next : World} {id : RunId} {run : Run} {place : ℕ} {request : Request}

theorem Tracked.same (tracked : Tracked world) (runs : next.runs = world.runs)
    (processes : next.processes = world.processes)
    (log : ∀ id, .told id false ∈ next.log → .told id false ∈ world.log) : Tracked next where
  told := by
    rw [runs]
    exact fun id member => tracked.told id (log id member)
  works := by
    rw [runs, processes]
    exact tracked.works
  waits := by
    rw [runs, processes]
    exact tracked.waits
  returned := by
    rw [processes]
    exact tracked.returned

theorem Tracked.advance (tracked : Tracked world) (found : world.runs[id]? = some run)
    (stage : Stage) (process : Process) (works : stage.works → process.inFlight.get? run.passKey = some id)
    (waits : stage.waits → id ∈ process.pending)
    (others_work : ∀ other otherRun, world.runs[other]? = some otherRun → other ≠ id →
      otherRun.workerId = run.workerId → otherRun.stage.works →
        process.inFlight.get? otherRun.passKey = some other)
    (others_wait : ∀ other ∈ (world.processes run.workerId).pending, other ≠ id →
      other ∈ process.pending)
    (returned : process.shutdown = .returned → process.Empty) :
    Tracked
      { world.setStage id stage with
        processes := Function.update world.processes run.workerId process } := by
  have staged {other : RunId} {otherRun : Run}
      (there : (world.setStage id stage).runs[other]? = some otherRun) :
      ∃ before, world.runs[other]? = some before ∧ otherRun.workerId = before.workerId ∧
        otherRun.passKey = before.passKey ∧ otherRun.aborted = before.aborted ∧
        otherRun.stage = (if other = id then stage else before.stage) := by
    rw [World.setStage, List.getElem?_modify, Option.map_eq_map, Option.map_eq_some_iff] at there
    obtain ⟨before, there, rfl⟩ := there
    refine ⟨before, there, ?_⟩
    by_cases here : id = other
    · simp [here]
    · simp [here, Ne.symm here]
  refine ⟨?_, ?_, ?_, ?_⟩
  · intro other member
    obtain ⟨otherRun, there, aborted⟩ := tracked.told other member
    refine ⟨if id = other then { otherRun with stage := stage } else otherRun, ?_, ?_⟩
    · simp only [World.setStage, List.getElem?_modify, there]
      by_cases here : id = other
      · simp [here]
      · simp [here]
    · by_cases here : id = other
      · simp [here, aborted]
      · simp [here, aborted]
  · intro other otherRun now_there working
    obtain ⟨before, there, worker, key, _, is_stage⟩ := staged now_there
    rw [worker, key]
    dsimp only
    by_cases here : other = id
    · subst here
      cases Option.some_inj.mp (there.symm.trans found)
      rw [is_stage, if_pos rfl] at working
      rw [Function.update_self]
      exact works working
    · rw [is_stage, if_neg here] at working
      by_cases own : before.workerId = run.workerId
      · rw [own, Function.update_self]
        exact others_work other before there here own working
      · rw [Function.update_of_ne own]
        exact tracked.works other before there working
  · intro other otherRun now_there waiting
    obtain ⟨before, there, worker, _, _, is_stage⟩ := staged now_there
    rw [worker]
    dsimp only
    by_cases here : other = id
    · subst here
      cases Option.some_inj.mp (there.symm.trans found)
      rw [is_stage, if_pos rfl] at waiting
      rw [Function.update_self]
      exact waits waiting
    · rw [is_stage, if_neg here] at waiting
      have listed := tracked.waits other before there waiting
      by_cases own : before.workerId = run.workerId
      · rw [own] at listed ⊢
        rw [Function.update_self]
        exact others_wait other listed here
      · rw [Function.update_of_ne own]
        exact listed
  · intro workerId is_returned
    dsimp only at is_returned ⊢
    by_cases own : workerId = run.workerId
    · rw [own, Function.update_self] at is_returned ⊢
      exact returned is_returned
    · rw [Function.update_of_ne own] at is_returned ⊢
      exact tracked.returned workerId is_returned

theorem Tracked.stays (tracked : Tracked world) (found : world.runs[id]? = some run) {stage : Stage}
    (works : stage.works → run.stage.works) (waits : stage.waits → run.stage.waits) :
    Tracked (world.setStage id stage) := by
  have advanced := tracked.advance found stage (world.processes run.workerId)
    (fun working => tracked.works id run found (works working))
    (fun waiting => tracked.waits id run found (waits waiting))
    (fun other otherRun there _ own working =>
      own ▸ tracked.works other otherRun there working)
    (fun other listed _ => listed) (tracked.returned run.workerId)
  rw [Function.update_eq_self] at advanced
  exact advanced

theorem Process.Empty.pending_erase {process : Process} (empty : process.Empty) (id : RunId) :
    ({ process with pending := process.pending.erase id } : Process).Empty := by
  refine ⟨?_, empty.inFlight⟩
  dsimp only
  rw [empty.pending]
  rfl

section

variable (tracked : Tracked world)
include tracked

theorem Tracked.refuse (found : world.runs[id]? = some run)
    (reason : Refusal) : Tracked (world.refuse id run reason) := by
  apply tracked.advance found (.refused reason)
  · intro working
    rcases working with same | same <;> cases same
  · intro waiting
    rcases waiting with same | same | same <;> cases same
  · intro other otherRun there _ own working
    rw [← own]
    exact tracked.works other otherRun there working
  · intro other listed differs
    exact (List.mem_erase_of_ne differs).mpr listed
  · intro returned
    exact (tracked.returned run.workerId returned).pending_erase id

theorem Tracked.finish (found : world.runs[id]? = some run)
    (working : run.stage.works) : Tracked (world.finish id run) := by
  apply tracked.advance found .finished
  · intro working
    rcases working with same | same <;> cases same
  · intro waiting
    rcases waiting with same | same | same <;> cases same
  · intro other otherRun there differs own other_works
    have listed := tracked.works other otherRun there other_works
    rw [own] at listed
    dsimp only
    rw [InsertionMap.get?_delete, if_neg]
    · exact listed
    · intro same
      rw [same, tracked.works id run found working] at listed
      exact differs (Option.some_inj.mp listed).symm
  · intro other listed _
    exact listed
  · intro returned
    obtain ⟨pending, inFlight⟩ := tracked.returned run.workerId returned
    refine ⟨pending, ?_⟩
    simp [InsertionMap.delete, World.setStage, inFlight]

theorem Tracked.startPass (found : world.runs[id]? = some run)
    (waiting : run.stage.waits) (alone : (world.processes run.workerId).shuttingDown = false → ∀ other otherRun,
      world.runs[other]? = some otherRun → other ≠ id → otherRun.workerId = run.workerId →
        otherRun.passKey = run.passKey → ¬ otherRun.stage.works) :
    Tracked (world.startPass id run) := by
  unfold World.startPass
  split
  · have stayed : Tracked (world.setStage id .handingBack) := by
      apply tracked.stays found
      · intro working
        rcases working with same | same <;> cases same
      · exact fun _ => waiting
    exact stayed.same rfl rfl fun _ member => member
  · rename_i not_latched
    have open_ : (world.processes run.workerId).shuttingDown = false := by
      simpa using not_latched
    have advanced := tracked.advance found .running
      { world.processes run.workerId with
        inFlight := (world.processes run.workerId).inFlight.set run.passKey id
        pending := (world.processes run.workerId).pending.erase id } ?_ ?_ ?_ ?_ ?_
    · refine advanced.same rfl ?_ fun _ member => member
      simp [World.settleAttempt, World.onProcess, World.setStage]
    · intro _
      dsimp only
      rw [InsertionMap.get?_set, if_pos rfl]
    · intro waits
      rcases waits with same | same | same <;> cases same
    · intro other otherRun there differs own working
      have listed := tracked.works other otherRun there working
      rw [own] at listed
      dsimp only
      rw [InsertionMap.get?_set, if_neg]
      · exact listed
      · intro same
        exact alone open_ other otherRun there differs own same working
    · intro other listed differs
      exact (List.mem_erase_of_ne differs).mpr listed
    · intro returned
      rw [Process.shuttingDown, returned] at open_
      cases open_

theorem Tracked.afterBeat (found : world.runs[id]? = some run)
    (outcome : Option Answer) : Tracked (world.afterBeat id outcome) := by
  unfold World.afterBeat
  split
  · refine tracked.same rfl rfl ?_
    intro other member
    rcases List.mem_append.mp member with earlier | new
    · exact earlier
    · cases List.mem_singleton.mp new
  · have aborted {other : RunId} {otherRun : Run} (there : (world.abort id).runs[other]? = some otherRun) :
        ∃ before, world.runs[other]? = some before ∧ otherRun.workerId = before.workerId ∧
          otherRun.passKey = before.passKey ∧ otherRun.stage = before.stage := by
      rw [World.abort, List.getElem?_modify, Option.map_eq_map, Option.map_eq_some_iff] at there
      obtain ⟨before, there, rfl⟩ := there
      refine ⟨before, there, ?_⟩
      by_cases here : id = other
      · simp [here]
      · simp [here]
    refine ⟨?_, ?_, ?_, tracked.returned⟩
    · intro other member
      have stopped (before : Run) (there : world.runs[other]? = some before)
          (or_stopped : other ≠ id → before.aborted = true) :
          ∃ after, (world.abort id).runs[other]? = some after ∧ after.aborted = true := by
        rw [World.abort, List.getElem?_modify, there]
        by_cases here : id = other
        · exact ⟨{ before with aborted := true }, by simp [here], rfl⟩
        · exact ⟨before, by simp [here], or_stopped (Ne.symm here)⟩
      rcases List.mem_append.mp member with earlier | new
      · obtain ⟨before, there, was⟩ := tracked.told other earlier
        exact stopped before there fun _ => was
      · cases List.mem_singleton.mp new
        exact stopped run found fun differs => absurd rfl differs
    · intro other otherRun there working
      obtain ⟨before, there, worker, key, stage⟩ := aborted there
      rw [stage] at working
      rw [worker, key]
      exact tracked.works other before there working
    · intro other otherRun there waiting
      obtain ⟨before, there, worker, _, stage⟩ := aborted there
      rw [stage] at waiting
      rw [worker]
      exact tracked.waits other before there waiting
  · exact tracked

theorem Tracked.react (found : world.runs[id]? = some run) {statement : Statement} {outcome : Option Answer}
    (alone : ∀ now, statement = .claim now → outcome = some (.count 1) → run.stage = .claiming →
      (world.processes run.workerId).shuttingDown = false → ∀ other otherRun,
        world.runs[other]? = some otherRun → other ≠ id → otherRun.workerId = run.workerId →
          otherRun.passKey = run.passKey → ¬ otherRun.stage.works) :
    Tracked (world.react id run statement outcome) := by
  unfold World.react
  split
  · rename_i now claiming
    unfold World.afterClaim
    split
    · exact tracked.startPass found (Or.inl claiming) (alone now rfl rfl claiming)
    · have asks : Tracked (world.setStage id .asking) := by
        apply tracked.stays found
        · intro working
          rcases working with same | same <;> cases same
        · exact fun _ => Or.inl claiming
      exact asks.same rfl rfl fun _ member => member
    · exact tracked.refuse found .threw
  · unfold World.afterLookUp
    split
    · exact tracked.refuse found .busy
    · exact tracked.refuse found .disabled
    · exact tracked.refuse found .missing
    · exact tracked.refuse found .threw
  · exact tracked.refuse found .shuttingDown
  · rename_i releasing
    exact tracked.finish found (Or.inr releasing)
  · exact tracked.afterBeat found outcome
  · exact tracked

end

theorem Fenced.alone (fenced : Fenced world) (found : world.requests[place]? = some request)
    (owned : world.runs[request.run]? = some run) {now : ℤ} (claim : request.statement = .claim now)
    (awaited : request.awaited = true) (won : request.answer = some (.count 1)) {other : RunId}
    {otherRun : Run} (there : world.runs[other]? = some otherRun) (differs : other ≠ request.run)
    (worker : otherRun.workerId = run.workerId) (key : otherRun.passKey = run.passKey) :
    otherRun.stage ≠ .running := by
  intro running
  have armed : world.Armed request.run := by
    refine Or.inr ⟨request, List.mem_of_getElem? found, rfl, ?_⟩
    rw [Request.arms, claim, won]
    exact awaited
  refine differs (fenced.sole other request.run (run.workerId, run.passKey)
    (Or.inl ⟨otherRun, there, running⟩) armed ?_ (owner_of_found owned))
  rw [owner_of_found there, worker, key]

section

variable (tracked : Tracked world)
include tracked

theorem Tracked.settleAt (outcome : Option Answer)
    (alone : ∀ run now, world.runs[request.run]? = some run → request.awaited = true →
      request.statement = .claim now → outcome = some (.count 1) → run.stage = .claiming →
      (world.processes run.workerId).shuttingDown = false → ∀ other otherRun,
        world.runs[other]? = some otherRun → other ≠ request.run →
          otherRun.workerId = run.workerId → otherRun.passKey = run.passKey →
            ¬ otherRun.stage.works) :
    Tracked (world.settleAt place request outcome) := by
  unfold World.settleAt
  split
  swap
  · exact tracked
  rename_i run owned
  split
  swap
  · exact tracked
  rename_i waits
  have heard : Tracked (world.hear place request) := tracked.same rfl rfl fun _ member => member
  apply heard.react owned
  intro now claim won claiming open_
  exact alone run now owned waits claim won claiming open_

theorem Tracked.runWithLease (workerId : WorkerId) (passKey : PassKey)
    (now : ℤ) : Tracked (world.runWithLease workerId passKey now) := by
  have told (called : Run) : ∀ id, .told id false ∈ world.log →
      ∃ run, (world.runs ++ [called])[id]? = some run ∧ run.aborted = true := by
    intro id member
    obtain ⟨run, found, aborted⟩ := tracked.told id member
    have known := (List.getElem?_eq_some_iff.mp found).1
    exact ⟨run, (List.getElem?_append_left known).trans found, aborted⟩
  unfold World.runWithLease
  split
  · refine ⟨told _, ?_, ?_, tracked.returned⟩
    · intro id run found working
      rcases Places.append_cases found with new | old
      · rw [new.2] at working
        rcases working with same | same <;> cases same
      · exact tracked.works id run old working
    · intro id run found waiting
      rcases Places.append_cases found with new | old
      · rw [new.2] at waiting
        rcases waiting with same | same | same <;> cases same
      · exact tracked.waits id run old waiting
  · rename_i not_latched
    refine ⟨told _, ?_, ?_, ?_⟩
    · intro id run found working
      rcases Places.append_cases found with new | old
      · rw [new.2] at working
        rcases working with same | same <;> cases same
      · have listed := tracked.works id run old working
        by_cases own : run.workerId = workerId
        · rw [own] at listed
          simpa [World.onProcess, World.send, own] using listed
        · simpa [World.onProcess, World.send, Function.update_of_ne own] using listed
    · intro id run found waiting
      rcases Places.append_cases found with new | old
      · rw [new.1, new.2]
        simp [World.onProcess, World.send]
      · have listed := tracked.waits id run old waiting
        by_cases own : run.workerId = workerId
        · rw [own] at listed
          simp [World.onProcess, World.send, own, listed]
        · simpa [World.onProcess, World.send, Function.update_of_ne own] using listed
    · intro other returned
      by_cases own : other = workerId
      · rw [own, World.send, World.onProcess_self] at returned
        rw [Process.shuttingDown, returned] at not_latched
        exact absurd rfl not_latched
      · rw [World.send, World.onProcess_other _ own] at returned ⊢
        exact tracked.returned other returned

theorem Tracked.drain (workerId : WorkerId) : Tracked (world.onProcess workerId Process.drain) := by
  refine ⟨tracked.told, ?_, ?_, ?_⟩
  · intro id run found working
    have listed := tracked.works id run found working
    by_cases own : run.workerId = workerId
    · rw [own, World.onProcess_self]
      rw [own] at listed
      exact listed
    · rw [World.onProcess_other _ own]
      exact listed
  · intro id run found waiting
    have listed := tracked.waits id run found waiting
    by_cases own : run.workerId = workerId
    · rw [own, World.onProcess_self]
      rw [own] at listed
      exact listed
    · rw [World.onProcess_other _ own]
      exact listed
  · intro other returned
    by_cases own : other = workerId
    · subst own
      rw [World.onProcess_self] at returned ⊢
      unfold Process.drain at returned ⊢
      dsimp only at returned
      split at returned
      · rename_i empty
        rw [Bool.and_eq_true, List.isEmpty_iff, List.isEmpty_iff] at empty
        exact ⟨empty.1, empty.2⟩
      · cases returned
    · rw [World.onProcess_other _ own] at returned ⊢
      exact tracked.returned other returned

theorem Tracked.executeAt (place : ℕ) : Tracked (world.executeAt place) := by
  unfold World.executeAt
  split
  · rename_i request _
    split
    · refine tracked.same rfl rfl ?_
      intro id member
      rcases List.mem_append.mp member with earlier | new
      · exact earlier
      · obtain ⟨run, statement, answer, awaited⟩ := request
        unfold Entry.of at new
        split at new
        iterate 3 · cases List.mem_singleton.mp new
        · cases new
    · exact tracked
  · exact tracked

theorem Tracked.step (fenced : Fenced world) {event : Event}
    (apart : Apart world event) : Tracked (world.step event) := by
  cases event with
  | seed | enable => exact tracked.same rfl rfl fun _ member => member
  | call workerId passKey now => exact tracked.runWithLease workerId passKey now
  | timer id now =>
    rw [World.step, World.timer]
    split
    · split
      · exact tracked.same rfl rfl fun _ member => member
      · exact tracked
    · exact tracked
  | passEnds id =>
    rw [World.step, World.passEnds]
    split
    · rename_i run found
      split
      · rename_i running
        have ended : Tracked (world.setStage id .releasing) := by
          apply tracked.stays found
          · exact fun _ => Or.inl running
          · intro waiting
            rcases waiting with same | same | same <;> cases same
        exact ended.same rfl rfl fun _ member => member
      · exact tracked
    · exact tracked
  | execute place => exact tracked.executeAt place
  | deliver place =>
    rw [World.step, World.deliverAt]
    split
    · rename_i request found
      split
      · rename_i answer answered
        apply tracked.settleAt
        intro run now owned awaited claim won claiming open_ other otherRun there differs worker key
        have was : request.answer = some (.count 1) := answered.trans won
        intro working
        rcases working with running | releasing
        · exact fenced.alone found owned claim awaited was there differs worker key running
        · exact apart request.run run
            ⟨request, now, found, awaited, was, claim, rfl, owned, claiming, open_⟩ other otherRun
            there differs worker key releasing
      · exact tracked
    · exact tracked
  | reject place =>
    rw [World.step, World.rejectAt]
    split
    · apply tracked.settleAt
      intro run now _ _ _ same
      cases same
    · exact tracked
  | releaseAllPasses workerId =>
    rw [World.step, World.releaseAllPasses]
    split
    · exact tracked.drain workerId
    · exact tracked
  | wake workerId =>
    rw [World.step, World.wake]
    split
    · split
      · exact tracked.drain workerId
      · exact tracked
    · exact tracked

end

def World.after (events : List Event) : World := Stepping.run World.step emptyWorld events

/-- Over: the run neither works nor waits. -/
def Stage.over_ (stage : Stage) : Prop := stage = .finished ∨ ∃ reason, stage = .refused reason

/-- No run touches a claim that another run won after it; a heartbeat that reaches the database then finds
nothing, which its run is told and stops at; and a shutdown that returned left no run of its process behind. -/
structure Untouched (world : World) : Prop where
  beats : ∀ earlier run passKey held later last,
    world.log = earlier ++ .beat run passKey held :: later → lastWon passKey earlier = some last →
      last ≠ run → held = false
  releases : ∀ earlier run passKey held later last,
    world.log = earlier ++ .released run passKey held :: later → lastWon passKey earlier = some last →
      last ≠ run → held = false
  finds : ∀ place request now run last, world.requests[place]? = some request → request.statement = .beat now →
    request.answer = none → world.runs[request.run]? = some run → lastWon run.passKey world.log = some last →
      last ≠ request.run → (world.step (.execute place)).requests[place]? =
        some { request with answer := some (.count 0) }
  hears : ∀ place request now run, world.requests[place]? = some request → request.statement = .beat now →
    request.answer = some (.count 0) → request.awaited = true → world.runs[request.run]? = some run →
      (world.step (.deliver place)).log = world.log ++ [.told request.run false] ∧
        (world.step (.deliver place)).runs[request.run]? = some { run with aborted := true }
  told : ∀ id, .told id false ∈ world.log → ∃ run, world.runs[id]? = some run ∧ run.aborted = true
  drained : ∀ workerId, (world.processes workerId).shutdown = .returned → ∀ (id : RunId) run,
    world.runs[id]? = some run → run.workerId = workerId → run.stage.over_

theorem emptyWorld_fenced : Fenced emptyWorld where
  sent := by simp [emptyWorld]
  won := by simp [emptyWorld]
  held := by simp [emptyWorld]
  sole := by
    intro a b owner armed
    rcases armed with ⟨run, found, _⟩ | ⟨request, member, _⟩
    · simp [emptyWorld] at found
    · simp [emptyWorld] at member
  last := by
    intro a workerId passKey last armed
    rcases armed with ⟨run, found, _⟩ | ⟨request, member, _⟩
    · simp [emptyWorld] at found
    · simp [emptyWorld] at member
  fitting := Histories.each_nil

theorem emptyWorld_tracked : Tracked emptyWorld where
  told := by simp [emptyWorld]
  works := by simp [emptyWorld]
  waits := by simp [emptyWorld]
  returned := by
    intro workerId returned
    cases returned

theorem Fenced.finds (fenced : Fenced world) {place : ℕ} {request : Request} {now : ℤ} {run : Run} {last : RunId}
    (found : world.requests[place]? = some request) (beat : request.statement = .beat now)
    (unanswered : request.answer = none) (known : world.runs[request.run]? = some run)
    (later : lastWon run.passKey world.log = some last) (other : last ≠ request.run) :
    (world.step (.execute place)).requests[place]? = some { request with answer := some (.count 0) } := by
  have gone : (request.statement.execute run.workerId (world.passes run.passKey)).2 = .count 0 := by
    rw [beat, Statement.execute]
    unfold updateMany
    split
    · rfl
    · rename_i row there
      split
      · rename_i held
        have arms : request.arms = true := by rw [Request.arms, beat, unanswered]
        have armed : world.Armed request.run := .inr ⟨request, List.mem_of_getElem? found, rfl, arms⟩
        exact absurd (fenced.fits armed (by simp [World.owner, known]) there held later) other
      · rfl
  rw [World.step, World.executeAt, found]
  simp only [unanswered, known]
  rw [World.execute]
  dsimp only
  rw [gone]
  exact List.getElem?_set_self (List.getElem?_eq_some_iff.mp found).1

theorem beat_hears {place : ℕ} {request : Request} {now : ℤ} {run : Run}
    (found : world.requests[place]? = some request) (beat : request.statement = .beat now)
    (answer : request.answer = some (.count 0)) (awaited : request.awaited = true)
    (known : world.runs[request.run]? = some run) :
    (world.step (.deliver place)).log = world.log ++ [.told request.run false] ∧
      (world.step (.deliver place)).runs[request.run]? = some { run with aborted := true } := by
  rw [World.step, World.deliverAt, found]
  simp only [answer, World.settleAt, known, awaited, if_true, World.react, beat, World.afterBeat]
  simp [World.hear, World.abort, World.note, known]

/-- A lease is not touched by another run, as long as a process wins a pass only when no other run of it
can still touch that pass, and starts on it only when no other run of it waits for its release. -/
theorem lease_untouched (events : List Event)
    (apart : Stepping.Along World.step Apart emptyWorld events) : Untouched (World.after events) := by
  have both : Fenced (World.after events) ∧ Tracked (World.after events) := by
    have keeps (world : World) (event : Event) (held : Fenced world ∧ Tracked world)
        (granted : Apart world event) : Fenced (world.step event) ∧ Tracked (world.step event) :=
      ⟨held.1.step granted, held.2.step held.1 granted⟩
    exact apart.keeps keeps ⟨emptyWorld_fenced, emptyWorld_tracked⟩
  obtain ⟨fenced, tracked⟩ := both
  refine ⟨?_, ?_, ?_, ?_, tracked.told, ?_⟩
  · intro earlier run passKey held later last split
    exact fenced.fitting earlier _ later split last
  · intro earlier run passKey held later last split
    exact fenced.fitting earlier _ later split last
  · exact fun _ _ _ _ _ found beat unanswered known later other =>
      fenced.finds found beat unanswered known later other
  · exact fun _ _ _ _ found beat answer awaited known => beat_hears found beat answer awaited known
  · intro workerId returned id run found own
    have empty := tracked.returned workerId returned
    have waits := tracked.waits id run found
    have works := tracked.works id run found
    rw [own, empty.pending] at waits
    rw [own, InsertionMap.get?, empty.inFlight] at works
    cases stage : run.stage with
    | claiming => exact absurd (waits (Or.inl stage)) List.not_mem_nil
    | asking => exact absurd (waits (Or.inr (Or.inl stage))) List.not_mem_nil
    | handingBack => exact absurd (waits (Or.inr (Or.inr stage))) List.not_mem_nil
    | running => cases works (Or.inl stage)
    | releasing => cases works (Or.inr stage)
    | finished => exact Or.inl rfl
    | refused reason => exact Or.inr ⟨reason, rfl⟩

/-- The first run of process 0 sends no heartbeat for longer than the lease, a run of `successor` wins the
pass, and then the first run beats and ends, and its process shuts down. -/
def stalledRun (successor : WorkerId) : List Event :=
  [.seed "detectors", .call 0 "detectors" 0, .execute 0, .deliver 0, .call successor "detectors" 900001,
    .execute 1, .deliver 1, .timer 0 900002, .execute 2, .deliver 2, .passEnds 0, .execute 3,
    .deliver 3, .releaseAllPasses 0]

theorem apart_of_nodup (once : (world.runs.map fun run => (run.workerId, run.passKey)).Nodup) (event : Event) :
    Apart world event := by
  have only {a b : ℕ} {first second : Run} (there : world.runs[a]? = some first)
      (here : world.runs[b]? = some second) (worker : first.workerId = second.workerId)
      (key : first.passKey = second.passKey) : a = b := by
    refine (List.getElem?_inj (by simpa using (List.getElem?_eq_some_iff.mp there).1) once).mp ?_
    simp [there, here, worker, key]
  cases event with
  | execute place =>
    intro winner run wins other otherRun there differs worker key
    obtain ⟨_, _, _, _, _, _, _, here, _⟩ := wins
    exact absurd (only there here worker key) differs
  | deliver place =>
    intro winner run starts other otherRun there differs worker key
    obtain ⟨_, _, _, _, _, _, _, here, _⟩ := starts
    exact absurd (only there here worker key) differs
  | _ => trivial

theorem stalled_run_is_told :
    (World.after (stalledRun 1)).log =
        [.won 0 "detectors", .won 1 "detectors", .beat 0 "detectors" false, .told 0 false,
          .released 0 "detectors" false] ∧
      ((World.after (stalledRun 1)).processes 0).shutdown = .returned ∧
      (World.after (stalledRun 1)).runs.map Run.stage = [.finished, .running] ∧
      Untouched (World.after (stalledRun 1)) := by
  refine ⟨by decide, by decide, by decide, lease_untouched (stalledRun 1) ?_⟩
  refine ⟨apart_of_nodup ?_ _, apart_of_nodup ?_ _, apart_of_nodup ?_ _, apart_of_nodup ?_ _,
    apart_of_nodup ?_ _, apart_of_nodup ?_ _, apart_of_nodup ?_ _, apart_of_nodup ?_ _, apart_of_nodup ?_ _,
    apart_of_nodup ?_ _, apart_of_nodup ?_ _, apart_of_nodup ?_ _, apart_of_nodup ?_ _,
    apart_of_nodup ?_ _, trivial⟩
  all_goals decide

/-- The first run extends and frees the claim of the second, and the shutdown returns while the second
is at work. -/
theorem stalled_run_touches_successor :
    (World.after (stalledRun 0)).log =
        [.won 0 "detectors", .won 1 "detectors", .beat 0 "detectors" true, .told 0 true,
          .released 0 "detectors" true] ∧
      ((World.after (stalledRun 0)).processes 0).shutdown = .returned ∧
      (World.after (stalledRun 0)).runs[1]?.map Run.stage = some .running ∧
      ¬ Untouched (World.after (stalledRun 0)) := by
  refine ⟨by decide, by decide, by decide, ?_⟩
  intro untouched
  have held := untouched.beats [.won 0 "detectors", .won 1 "detectors"] 0 "detectors" true
    [.told 0 true, .released 0 "detectors" true] 1 (by decide) (by decide)
    (by decide)
  cases held

end Droplet.Brain
