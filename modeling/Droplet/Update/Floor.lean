import Droplet.Update.Runner

/-! The floor of an update: which release is installed, and what one step of a task means for the rows
that are `applying` or `committed`. -/

namespace Droplet.Update

open Places

theorem latest_of_foldl (table : Table) (ids : List ℕ) (best : Option ℕ)
    (start : ∀ id ∈ best, (table.row id).status = .committed) :
    let installed := ids.foldl
      (fun best id =>
        if (table.row id).status = .committed then
          match best with
          | none => some id
          | some other =>
            if (table.row other).updatedAt ≤ (table.row id).updatedAt then some id else some other
        else best)
      best
    (∀ id ∈ installed, (table.row id).status = .committed ∧ (id ∈ best ∨ id ∈ ids)) ∧
      ∀ id, (id ∈ best ∨ id ∈ ids ∧ (table.row id).status = .committed) →
        ∃ last ∈ installed, (table.row id).updatedAt ≤ (table.row last).updatedAt := by
  induction ids generalizing best with
  | nil =>
    simp only [List.foldl_nil, List.not_mem_nil, or_false, false_and]
    refine ⟨fun id chosen => ⟨start id chosen, chosen⟩, fun id chosen => ⟨id, chosen, le_refl _⟩⟩
  | cons head ids ih =>
    simp only [List.foldl_cons]
    split
    · rename_i committed
      -- the head is compared with the best so far, and one of the two goes on
      have chosen : ∃ next, (match best with
          | none => some head
          | some other =>
              if (table.row other).updatedAt ≤ (table.row head).updatedAt then some head
              else some other) = some next ∧ (next ∈ best ∨ next = head) ∧
            (table.row next).status = .committed ∧
            (table.row head).updatedAt ≤ (table.row next).updatedAt ∧
            ∀ id ∈ best, (table.row id).updatedAt ≤ (table.row next).updatedAt := by
        cases best with
        | none => exact ⟨head, rfl, .inr rfl, committed, le_refl _, by simp⟩
        | some other =>
          simp only
          split
          · rename_i later
            exact ⟨head, rfl, .inr rfl, committed, le_refl _, by simpa using later⟩
          · rename_i earlier
            exact ⟨other, rfl, .inl rfl, start other rfl, by omega, by simp⟩
      obtain ⟨next, same, origin, ready, headLe, bestLe⟩ := chosen
      rw [same]
      obtain ⟨sound, complete⟩ := ih (some next) (by simpa using ready)
      constructor
      · intro id installed
        obtain ⟨status, place⟩ := sound id installed
        refine ⟨status, ?_⟩
        rcases place with place | place
        · cases place
          rcases origin with origin | origin
          · exact .inl origin
          · exact .inr (origin ▸ List.mem_cons_self)
        · exact .inr (List.mem_cons_of_mem head place)
      · intro id candidate
        obtain ⟨last, chosen, nextLe⟩ := complete next (.inl rfl)
        rcases candidate with candidate | ⟨place, status⟩
        · exact ⟨last, chosen, le_trans (bestLe id candidate) nextLe⟩
        · rcases List.mem_cons.mp place with rfl | place
          · exact ⟨last, chosen, le_trans headLe nextLe⟩
          · exact complete id (.inr ⟨place, status⟩)
    · rename_i other
      obtain ⟨sound, complete⟩ := ih best start
      constructor
      · intro id installed
        obtain ⟨status, place⟩ := sound id installed
        exact ⟨status, place.imp_right (List.mem_cons_of_mem head)⟩
      · intro id candidate
        apply complete id
        refine candidate.imp_right ?_
        intro ⟨place, status⟩
        rcases List.mem_cons.mp place with rfl | place
        · exact absurd status other
        · exact ⟨place, status⟩

theorem installedRelease_latest (table : Table) :
    (∀ installed, table.installedRelease = some installed →
        (table.row installed).status = .committed) ∧
      ∀ id < table.count, (table.row id).status = .committed →
        ∃ installed, table.installedRelease = some installed ∧
          (table.row id).updatedAt ≤ (table.row installed).updatedAt := by
  obtain ⟨sound, complete⟩ := latest_of_foldl table (List.range table.count) none (by simp)
  constructor
  · intro installed same
    exact (sound installed same).1
  · intro id known committed
    exact complete id (.inr ⟨List.mem_range.mpr known, committed⟩)

/-- The run has found its row newer than the installed release, and has not put it to `applying`
yet. -/
def RunStage.pastFloor : RunStage → Bool
  | .setup | .parse | .fetch | .refs | .pin | .save | .pull | .stageConfigs | .reconcile | .refuse
  | .clients | .migrate => true
  | .observe target _ _ | .write _ target _ _ => target = .verifying || target = .applying
  | _ => false

/-- The verdict was `committed`. -/
def ResumeStage.settled : ResumeStage → Bool
  | .enabled | .start _ | .startGate _ | .record _ => true
  | _ => false

/-- A task that is an apply run or may become one. -/
def Task.starts : Task → Bool
  | .run _ | .retry => true
  | .applyNow .check => false
  | .applyNow _ => true
  | _ => false

/-- A run never asks for `committed`, a resume never for `applying`. -/
def Task.Targets : Task → Prop
  | .run work => ∀ seen reason outcome, work.stage ≠ .observe .committed reason outcome ∧
      work.stage ≠ .write seen .committed reason outcome
  | .resume work => ∀ seen reason outcome, work.stage ≠ .observe .applying reason outcome ∧
      work.stage ≠ .write seen .applying reason outcome
  | _ => True

/-- What a reaction means for the rows that are `applying` or `committed`. -/
structure FloorKept (table : Table) (task : Task) (reaction : Reaction) : Prop where
  targets : task.Targets → reaction.task.Targets
  commits : task.Targets → ∀ id seen reason outcome,
    reaction.db = .advance id seen .committed reason outcome →
    ∃ work, task = .resume work ∧ work.id = id ∧ work.stage = .write seen .committed reason outcome
  applies : task.Targets → ∀ id seen reason outcome,
    reaction.db = .advance id seen .applying reason outcome →
    ∃ work, task = .run work ∧ work.id = id ∧ work.stage = .write seen .applying reason outcome
  records : ∀ id outcome, reaction.db = .record id outcome →
    ∃ work, task = .resume work ∧ work.id = id ∧ work.stage.settled = true
  runs : ∀ next, reaction.task = .run next →
    (∃ work, task = .run work ∧ next.id = work.id ∧
      (next.seen = work.seen ∨ next.seen = table.row work.id) ∧
      (next.stage.pastFloor → work.stage.pastFloor ∨
        (next.seen = work.seen ∧ ∃ channel, work.staleReason table channel = none))) ∨
    (next.seen = table.row next.id ∧ (next.stage = .claim ∨ next.stage = .handed) ∧
      (next.id < table.count ∨ ∃ claimId, task.holds = some (next.id, claimId)))
  starts : reaction.task.starts → task.starts ∨
    table.newest (fun row => row.status = .applying) = none
  resumes : ∀ next, reaction.task = .resume next →
    ∃ work, task = .resume work ∧ next.id = work.id ∧
      (next.stage.settled → work.stage.settled ∨ ∃ seen reason outcome,
        reaction.db = .advance work.id seen .committed reason outcome ∧
          (table.row work.id).status = seen)

variable {reaction : Reaction}

theorem FloorKept.ended {table : Table} {task : Task} (ends : reaction.task = .done)
    (noAdvance : ∀ id seen target reason outcome,
      reaction.db ≠ .advance id seen target reason outcome)
    (noRecord : ∀ id outcome, reaction.db ≠ .record id outcome) : FloorKept table task reaction where
  targets _ := by rw [ends]; trivial
  commits _ id seen reason outcome same := absurd same (noAdvance id seen _ reason outcome)
  applies _ id seen reason outcome same := absurd same (noAdvance id seen _ reason outcome)
  records id outcome same := absurd same (noRecord id outcome)
  runs next same := by rw [ends] at same; cases same
  starts same := by rw [ends] at same; cases same
  resumes next same := by rw [ends] at same; cases same

namespace Run

variable {run : Run} {table : Table} {host : Host}

theorem go_floor {next : Run} (task : reaction.task = .run next)
    (same : next.id = run.id) (seen : next.seen = run.seen ∨ next.seen = table.row run.id)
    (floor : next.stage.pastFloor → run.stage.pastFloor ∨
      (next.seen = run.seen ∧ ∃ channel, run.staleReason table channel = none))
    (targets : (Task.run run).Targets → (Task.run next).Targets)
    (commits : (Task.run run).Targets → ∀ id seen reason outcome,
      reaction.db ≠ .advance id seen .committed reason outcome)
    (applies : ∀ id seen reason outcome, reaction.db = .advance id seen .applying reason outcome →
      run.id = id ∧ run.stage = .write seen .applying reason outcome)
    (records : ∀ id outcome, reaction.db ≠ .record id outcome) : FloorKept table (.run run) reaction where
  targets before := by rw [task]; exact targets before
  commits before id seen reason outcome write :=
    absurd write (commits before id seen reason outcome)
  applies _ id seen reason outcome write := ⟨run, rfl, applies id seen reason outcome write⟩
  records id outcome write := absurd write (records id outcome)
  runs other found := by
    rw [task] at found
    cases found
    exact .inl ⟨run, rfl, same, seen, floor⟩
  starts _ := .inl rfl
  resumes other found := by rw [task] at found; cases found

theorem Passes.floor {before after : RunStage} (passes : run.Passes table before after) :
    after.pastFloor → before.pastFloor ∨ ∃ channel, run.staleReason table channel = none := by
  intro past
  cases passes with
  | newer channel newer => exact .inr ⟨channel, newer⟩
  | _ => simp_all [RunStage.pastFloor]

theorem Passes.targets {before after : RunStage} (passes : run.Passes table before after)
    (targets : ∀ seen reason outcome, before ≠ .observe .committed reason outcome ∧
      before ≠ .write seen .committed reason outcome) :
    ∀ seen reason outcome, after ≠ .observe .committed reason outcome ∧
      after ≠ .write seen .committed reason outcome := by
  intro seen reason outcome
  cases passes with
  | observed target reason' outcome' edge =>
    refine ⟨by simp, ?_⟩
    intro same
    cases same
    exact (targets .pending reason outcome).1 rfl
  | _ => simp

theorem floorKept (run : Run) (table : Table) (host : Host) (answer : Answer) :
    FloorKept table (.run run) (run.react table host answer) := by
  have did := react_did run table host answer
  generalize run.react table host answer = reaction at did
  cases did with
  | stays => refine go_floor rfl rfl (.inl rfl) .inl (fun targets => targets) ?_ ?_ ?_ <;> simp [Run.stay]
  | gaveUp | claimLost | releases => apply FloorKept.ended <;> simp [Run.finish]
  | leaves | callThrew =>
    refine go_floor rfl rfl (.inl rfl) ?_ ?_ ?_ ?_ ?_ <;>
      simp [Run.leave, Run.go, RunStage.pastFloor, Task.Targets]
  | claims stage hits =>
    refine go_floor rfl rfl (.inl rfl) ?_ ?_ ?_ ?_ ?_ <;>
      simp [RunStage.pastFloor, Task.Targets]
  | finds stage _ _ =>
    refine go_floor rfl rfl (.inr rfl) ?_ ?_ ?_ ?_ ?_ <;>
      simp [RunStage.pastFloor, Task.Targets]
  | passes next passes =>
    refine go_floor rfl rfl (.inl rfl) ?_ passes.targets ?_ ?_ ?_
    · intro past
      exact (passes.floor past).imp_right fun newer => ⟨rfl, newer⟩
    all_goals simp [Run.go]
  | readsRefs stage =>
    refine go_floor rfl rfl (.inl rfl) ?_ ?_ ?_ ?_ ?_ <;>
      simp [RunStage.pastFloor, Task.Targets, stage]
  | calls op next calls =>
    refine go_floor rfl rfl (.inl rfl) ?_ ?_ ?_ ?_ ?_
    · intro past
      generalize run.stage = before at calls
      cases calls <;> simp_all [RunStage.pastFloor]
    · intro _ seen reason outcome
      generalize run.stage = before at calls
      cases calls <;> simp
    all_goals simp [Run.go]
  | recreates target next left recreates _ =>
    have other : (if left = [] then next else .release) = RunStage.gate ∨
        (if left = [] then next else .release) = RunStage.rollbackGate ∨
        (if left = [] then next else .release) = RunStage.release := by
      generalize run.stage = before at recreates
      split
      · cases recreates <;> simp
      · simp
    refine go_floor rfl rfl (.inl rfl) ?_ ?_ ?_ ?_ ?_
    · rcases other with other | other | other <;> simp [other, RunStage.pastFloor]
    · rcases other with other | other | other <;> simp [other, Task.Targets]
    all_goals simp [Run.go]
  | writes seen target reason outcome stage unchanged =>
    refine go_floor rfl rfl (.inl rfl) ?_ ?_ ?_ ?_ ?_
    · rw [stage]
      cases target <;> simp [Run.advanced, RunStage.pastFloor]
    · cases target <;> simp [Run.advanced, Task.Targets]
    · intro targets id seen' reason' outcome' same
      cases same
      exact (targets seen reason outcome).2 stage
    · intro id seen' reason' outcome' same
      cases same
      exact ⟨rfl, stage⟩
    · simp
  | writeThrew seen target reason outcome stage =>
    refine go_floor rfl rfl (.inl rfl) ?_ ?_ ?_ ?_ ?_
    · simp [RunStage.pastFloor]
    · simp [Task.Targets]
    · intro targets id seen' reason' outcome' same
      cases same
      exact (targets seen reason outcome).2 stage
    · intro id seen' reason' outcome' same
      cases same
      exact ⟨rfl, stage⟩
    · simp

end Run

namespace Resume

variable {resume : Resume} {table : Table} {host : Host}

theorem go_floor {next : Resume} (task : reaction.task = .resume next) (same : next.id = resume.id)
    (settled : next.stage.settled → resume.stage.settled ∨ ∃ seen reason outcome,
      reaction.db = .advance resume.id seen .committed reason outcome ∧
        (table.row resume.id).status = seen)
    (targets : (Task.resume resume).Targets → (Task.resume next).Targets)
    (commits : ∀ id seen reason outcome, reaction.db = .advance id seen .committed reason outcome →
      resume.id = id ∧ resume.stage = .write seen .committed reason outcome)
    (applies : (Task.resume resume).Targets → ∀ id seen reason outcome,
      reaction.db ≠ .advance id seen .applying reason outcome)
    (records : ∀ id outcome, reaction.db ≠ .record id outcome) : FloorKept table (.resume resume) reaction where
  targets before := by rw [task]; exact targets before
  commits _ id seen reason outcome write := ⟨resume, rfl, commits id seen reason outcome write⟩
  applies before id seen reason outcome write :=
    absurd write (applies before id seen reason outcome)
  records id outcome write := absurd write (records id outcome)
  runs other found := by rw [task] at found; cases found
  starts found := by rw [task] at found; cases found
  resumes other found := by
    rw [task] at found
    cases found
    exact ⟨resume, rfl, same, settled⟩

theorem quiet_floor {next : Resume} (task : reaction.task = .resume next)
    (same : next.id = resume.id) (quiet : reaction.db = .nothing)
    (settled : next.stage.settled → resume.stage.settled)
    (targets : (Task.resume resume).Targets → (Task.resume next).Targets) :
    FloorKept table (.resume resume) reaction := by
  refine go_floor task same (fun after => .inl (settled after)) targets ?_ ?_ ?_ <;> simp [quiet]

theorem Passes.floor {before after : ResumeStage} (passes : resume.Passes table before after) :
    after.settled → before.settled := by
  cases passes <;> simp [ResumeStage.settled]

theorem Passes.targets {before after : ResumeStage} (passes : resume.Passes table before after)
    (targets : ∀ seen reason outcome, before ≠ .observe .applying reason outcome ∧
      before ≠ .write seen .applying reason outcome) :
    ∀ seen reason outcome, after ≠ .observe .applying reason outcome ∧
      after ≠ .write seen .applying reason outcome := by
  intro seen reason outcome
  cases passes with
  | observed target reason' outcome' edge =>
    refine ⟨by simp, ?_⟩
    intro same
    cases same
    exact (targets .pending reason outcome).1 rfl
  | _ => simp

theorem floorKept (resume : Resume) (table : Table) (host : Host) (answer : Answer) :
    FloorKept table (.resume resume) (resume.react table host answer) := by
  have did := react_did resume table host answer
  generalize resume.react table host answer = reaction at did
  cases did with
  | stays => exact quiet_floor rfl rfl rfl (fun settled => settled) (fun targets => targets)
  | ends | launches => apply FloorKept.ended <;> simp [Reaction.ended]
  | passes next passes => exact quiet_floor rfl rfl rfl passes.floor passes.targets
  | readsRefs stage =>
    exact quiet_floor rfl rfl rfl (by simp [ResumeStage.settled]) (by simp [Task.Targets])
  | gates probes next stage judged =>
    refine quiet_floor rfl rfl rfl ?_ ?_
    · cases judged <;> simp [ResumeStage.settled]
    · cases judged <;> simp [Task.Targets]
  | restores _ _ _ next | recreates _ _ _ _ next =>
    rcases next with ends | goes
    · exact FloorKept.ended ends (by simp) (by simp)
    · exact quiet_floor goes rfl rfl (by simp [ResumeStage.settled]) (by simp [Task.Targets])
  | writes seen target reason outcome task stage next =>
    have targets : (Task.resume resume).Targets → ∀ id seen' reason' outcome',
        DbWrite.advance resume.id seen target reason outcome ≠
          .advance id seen' .applying reason' outcome' := by
      intro targets id seen' reason' outcome' same
      cases same
      exact (targets seen reason outcome).2 stage
    rcases next with ends | ⟨committed, unchanged, goes⟩
    · refine ⟨?_, ?_, ?_, ?_, ?_, ?_, ?_⟩
      · intro _
        rw [ends]
        trivial
      · intro _ id seen' reason' outcome' same
        cases same
        exact ⟨resume, rfl, rfl, stage⟩
      · intro before id seen' reason' outcome' same
        exact absurd same (targets before id seen' reason' outcome')
      · simp
      · simp [ends]
      · simp [ends, Task.starts]
      · simp [ends]
    · refine go_floor goes rfl ?_ (by simp [Task.Targets]) ?_ targets (by simp)
      · intro _
        exact .inr ⟨seen, reason, outcome, by rw [committed], unchanged⟩
      · intro id seen' reason' outcome' same
        cases same
        exact ⟨rfl, stage⟩
  | starts services images next stage goes =>
    have started : resume.stage.settled := by rw [stage]; rfl
    refine quiet_floor rfl rfl rfl (fun _ => started) ?_
    intro _ seen reason outcome
    rcases goes with ⟨recorded, goes⟩ | ⟨services', goes⟩ <;> simp [goes]
  | records outcome stage =>
    refine ⟨?_, ?_, ?_, ?_, ?_, ?_, ?_⟩ <;> simp [Reaction.ended, Task.Targets, Task.starts]
    rw [stage]
    rfl

end Resume

theorem FloorKept.idle {table : Table} {task : Task}
    (noRun : ∀ next, reaction.task ≠ .run next) (noResume : ∀ next, reaction.task ≠ .resume next)
    (starts : reaction.task.starts → task.starts ∨
      table.newest (fun row => row.status = .applying) = none)
    (noCommit : ∀ id seen reason outcome, reaction.db ≠ .advance id seen .committed reason outcome)
    (noApply : ∀ id seen reason outcome, reaction.db ≠ .advance id seen .applying reason outcome)
    (noRecord : ∀ id outcome, reaction.db ≠ .record id outcome) :
    FloorKept table task reaction where
  targets _ := by
    unfold Task.Targets
    split
    · rename_i work same
      exact absurd same (noRun work)
    · rename_i work same
      exact absurd same (noResume work)
    · trivial
  commits _ id seen reason outcome same := absurd same (noCommit id seen reason outcome)
  applies _ id seen reason outcome same := absurd same (noApply id seen reason outcome)
  records id outcome same := absurd same (noRecord id outcome)
  runs next same := absurd same (noRun next)
  starts := starts
  resumes next same := absurd same (noResume next)

theorem poll_floorKept (table : Table) (stage : PollStage) (found : Release) (answer : Answer) :
    FloorKept table (.poll stage found) (pollReact table stage found answer) := by
  unfold pollReact
  repeat' split
  all_goals apply FloorKept.idle <;> simp [Reaction.ended, Task.starts]

theorem skip_floorKept (table : Table) (id : ℕ) (answer : Answer) :
    FloorKept table (.skip id) (skipReact id answer) := by
  unfold skipReact
  simp only
  split
  all_goals apply FloorKept.idle <;> simp [Reaction.ended, Task.starts]

theorem FloorKept.begins {table : Table} {task : Task} {next : Run} (starts : task.starts)
    (quiet : reaction.db = .nothing) (goes : reaction.task = .run next)
    (seen : next.seen = table.row next.id) (stage : next.stage = .claim ∨ next.stage = .handed)
    (known : next.id < table.count ∨ ∃ claimId, task.holds = some (next.id, claimId)) :
    FloorKept table task reaction where
  targets _ := by
    rw [goes]
    rcases stage with stage | stage <;> simp [Task.Targets, stage]
  commits _ id seen reason outcome same := by rw [quiet] at same; cases same
  applies _ id seen reason outcome same := by rw [quiet] at same; cases same
  records id outcome same := by rw [quiet] at same; cases same
  runs other same := by
    rw [goes] at same
    cases same
    exact .inr ⟨seen, stage, known⟩
  starts _ := .inl starts
  resumes other same := by rw [goes] at same; cases same

theorem pickRun_cases (table : Table) (fresh : ClaimId) :
    pickRun table fresh = .done ∨ ∃ next : Run, pickRun table fresh = .run next ∧
      next.seen = table.row next.id ∧ next.stage = .claim ∧ next.id < table.count := by
  unfold pickRun
  split
  · exact .inl rfl
  · rename_i id found
    exact .inr ⟨_, rfl, rfl, rfl, (Table.newest_some found).1⟩

theorem retry_floorKept (table : Table) (fresh : ClaimId) (answer : Answer) :
    FloorKept table .retry (retryReact table fresh answer) := by
  unfold retryReact
  split
  · split
    · rcases pickRun_cases table fresh with ends | ⟨next, goes, seen, stage, known⟩
      · exact FloorKept.ended ends (by simp) (by simp)
      · exact FloorKept.begins rfl rfl goes seen (.inl stage) (.inl known)
    · apply FloorKept.ended <;> simp [Reaction.ended]
  · apply FloorKept.ended <;> simp [Reaction.ended]
  · apply FloorKept.idle <;> simp [Task.starts]

theorem applyNow_floorKept (table : Table) (inFlight : Bool) (fresh : ClaimId)
    (stage : ApplyNowStage) (answer : Answer) :
    FloorKept table (.applyNow stage) (applyNowReact table inFlight fresh stage answer) := by
  unfold applyNowReact
  cases stage with
  | check =>
    simp only
    split
    · split
      · apply FloorKept.ended <;> simp [Reaction.ended]
      · rename_i free
        have none : table.newest (fun row => row.status = .applying) = none := by
          simp only [Bool.or_eq_true, not_or, Option.isSome_iff_ne_none, ne_eq, not_not] at free
          exact free.1
        apply FloorKept.idle <;> simp [none]
    · apply FloorKept.ended <;> simp [Reaction.ended]
    · apply FloorKept.idle <;> simp [Task.starts]
  | audit id claimId =>
    simp only
    split
    · exact FloorKept.begins rfl rfl rfl rfl (.inr rfl) (.inr ⟨claimId, rfl⟩)
    all_goals apply FloorKept.idle <;> simp [Task.starts]
  | pick | claim | giveBack =>
    simp only
    repeat' split
    all_goals apply FloorKept.idle <;> simp [Reaction.ended, Task.starts]

theorem Task.floorKept (table : Table) (host : Host) (inFlight : Bool) (fresh : ClaimId)
    (task : Task) (answer : Answer) : FloorKept table task (task.react table host inFlight fresh answer) := by
  cases task with
  | done => apply FloorKept.ended <;> simp [Task.react, Reaction.ended]
  | run work | resume work => exact work.floorKept table host answer
  | retry => exact retry_floorKept table fresh answer
  | poll stage found => exact poll_floorKept table stage found answer
  | applyNow stage => exact applyNow_floorKept table inFlight fresh stage answer
  | skip id => exact skip_floorKept table id answer

theorem Box.floorKept (box : Box) (task : Task) (answer : Answer) :
    FloorKept box.table task (box.react task answer) := Task.floorKept ..

/-- A run that goes on or is begun knows the release of its row, where those before it do. -/
theorem FloorKept.known {box : Box} {i j : ℕ} {task : Task} {reaction : Reaction} {next : Run}
    (floor : FloorKept box.table task reaction) (claimed : Claimed box) (current : box.tasks[i]? = some task)
    (known : ∀ (j : ℕ) (work : Run), box.tasks[j]? = some (.run work) →
      work.id < box.table.count ∧ work.seen.release = (box.table.row work.id).release)
    (found : (box.tasks.set i reaction.task)[j]? = some (.run next)) :
    next.id < box.table.count ∧ next.seen.release = (box.table.row next.id).release := by
  rcases set_cases found with ⟨-, same⟩ | ⟨-, old⟩
  · rcases floor.runs next same.symm with ⟨work, rfl, place, seen, -⟩ | ⟨seen, -, place⟩
    · obtain ⟨there, release⟩ := known i work current
      refine ⟨place ▸ there, ?_⟩
      rcases seen with seen | seen
      · rw [seen, place, release]
      · rw [seen, place]
    · refine ⟨?_, by rw [seen]⟩
      rcases place with there | ⟨claimId, holds⟩
      · exact there
      · exact claimed.tidy.claimed (claimed.held i task next.id claimId current holds)
  · exact known j next old

def Box.Targeted (box : Box) : Prop :=
  ∀ (j : ℕ) (task : Task), box.tasks[j]? = some task → task.Targets

theorem Box.Targeted.step {box : Box} (targeted : box.Targeted) (event : Event) : (box.step event).Targeted := by
  have moved := box.step_moved event
  generalize box.step event = after at moved
  intro j other found
  cases moved with
  | still | helperDies => exact targeted j other found
  | spawns _ task spawns =>
    rcases append_cases found with ⟨-, rfl⟩ | old
    · cases spawns with
      | window _ =>
        rcases pickRun_cases box.table box.now with ends | ⟨next, goes, -, stage, -⟩
        · rw [ends]
          trivial
        · rw [goes]
          simp [Task.Targets, stage]
      | _ => trivial
    · exact targeted j other old
  | acts i answer task current =>
    rcases set_cases found with ⟨-, rfl⟩ | ⟨-, old⟩
    · exact (Task.floorKept ..).targets (targeted i task current)
    · exact targeted j other old
  | helps i answer helper present =>
    rcases (helperStep_cases box i helper answer).2 with tasks | tasks
    · exact targeted j other (tasks ▸ found)
    · simp only [tasks] at found
      cases found
  | dies => cases found
  | boots =>
    rcases Box.boot_cases box with ⟨tasks, -⟩ | ⟨id, -, tasks⟩
    · simp only [tasks] at found
      rw [(singleton_cases found).2]
      trivial
    · simp only [tasks] at found
      rw [(singleton_cases found).2]
      simp [Task.Targets]

end Droplet.Update
