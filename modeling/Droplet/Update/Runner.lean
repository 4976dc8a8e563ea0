import Droplet.Lib.Histories
import Droplet.Update.Claims

/-! One runner for each update row, through every interleaving of its tasks, crashes and boots. -/

namespace Droplet.Update

open Places

structure Claimed (box : Box) : Prop where
  tidy : box.table.Tidy
  young : ∀ (j : ℕ) (task : Task) (claimId : ClaimId), box.tasks[j]? = some task →
    task.claimId? = some claimId → claimId < box.now
  distinct : ∀ (i j : ℕ) (task task' : Task) (claimId : ClaimId), box.tasks[i]? = some task →
    box.tasks[j]? = some task' → task.claimId? = some claimId → task'.claimId? = some claimId →
    i = j
  held : ∀ (j : ℕ) (task : Task) (id : ℕ) (claimId : ClaimId), box.tasks[j]? = some task →
    task.holds = some (id, claimId) → (box.table.row id).claim = some claimId
  resumed : ∀ (j : ℕ) (task : Task) (id : ℕ), box.tasks[j]? = some task →
    task.resumes = some id → id < box.table.count ∧
      (box.table.row id).status.applicable = false ∧ (box.table.row id).claim = none
  alone : ∀ (i j : ℕ) (task task' : Task) (id id' : ℕ), box.tasks[i]? = some task →
    box.tasks[j]? = some task' → task.resumes = some id → task'.resumes = some id' → i = j
  edges : ∀ (j : ℕ) (task : Task), box.tasks[j]? = some task → task.Edges

variable {id : ℕ} {task : Task}

theorem Task.holds_drawn {claimId : ClaimId} (holds : task.holds = some (id, claimId)) :
    task.claimId? = some claimId := by
  unfold Task.holds at holds
  split at holds
  · split at holds
    · cases holds
    · cases holds
      rfl
  all_goals cases holds
  all_goals rfl

theorem Claimed.fresh (host : Host) : Claimed (Box.fresh host) := by
  constructor <;> simp [Box.fresh, Table.Tidy, Table.empty]

theorem Claimed.perform {box : Box} (claimed : Claimed box) {i : ℕ} {reaction : Reaction}
    (current : box.tasks[i]? = some task) (kept : ClaimsKept box.table box.now task reaction) :
    Claimed { box.perform i reaction with now := box.now + 1 } := by
  have allowed := kept.allowed (claimed.edges i task current)
  -- nobody else has drawn what this task draws
  have drawn : ∀ j other claimId, j ≠ i → box.tasks[j]? = some other →
      other.claimId? = some claimId → reaction.task.claimId? ≠ some claimId := by
    intro j other claimId differ found same next
    rcases kept.drawn claimId next with before | ⟨-, fresh⟩
    · exact differ (claimed.distinct j i other task claimId found current same before)
    · have young := claimed.young j other claimId found same
      exact absurd fresh (Nat.ne_of_lt young)
  constructor
  · exact DbWrite.apply_tidy claimed.tidy allowed
  · intro j other claimId found same
    rcases set_cases found with ⟨-, rfl⟩ | ⟨-, old⟩
    · rcases kept.drawn claimId same with before | ⟨-, fresh⟩
      · exact Nat.lt_succ_of_lt (claimed.young i task claimId current before)
      · exact Nat.lt_succ_of_le (Nat.le_of_eq fresh)
    · exact Nat.lt_succ_of_lt (claimed.young j other claimId old same)
  · intro j k first second claimId found found' same same'
    rcases set_cases found with ⟨place, rfl⟩ | ⟨differ, old⟩
    · rcases set_cases found' with ⟨place', -⟩ | ⟨differ, old'⟩
      · rw [place, place']
      · exact absurd same (drawn k second claimId differ old' same')
    · rcases set_cases found' with ⟨-, rfl⟩ | ⟨-, old'⟩
      · exact absurd same' (drawn j first claimId differ old same)
      · exact claimed.distinct j k first second claimId old old' same same'
  · intro j other id claimId found holds
    show ((reaction.db.apply box.table box.now).row id).claim = some claimId
    rcases set_cases found with ⟨-, rfl⟩ | ⟨differ, old⟩
    · rcases kept.held id claimId holds with before | ⟨claims, hits⟩
      · apply DbWrite.apply_claim claimed.tidy (claimed.held i task id claimId current before)
        intro releases
        rw [(kept.releases id claimId releases).2] at holds
        cases holds
      · rw [claims] at hits ⊢
        simp [DbWrite.apply, hits, Table.update]
    · apply DbWrite.apply_claim claimed.tidy (claimed.held j other id claimId old holds)
      intro releases
      have mine := Task.holds_drawn (kept.releases id claimId releases).1
      exact differ (claimed.distinct j i other task claimId old current (Task.holds_drawn holds) mine)
  · intro j other id found resumes
    have before : id < box.table.count ∧ (box.table.row id).status.applicable = false ∧
        (box.table.row id).claim = none := by
      rcases set_cases found with ⟨-, rfl⟩ | ⟨-, old⟩
      · exact claimed.resumed i task id current (kept.resumes id resumes)
      · exact claimed.resumed j other id old resumes
    refine ⟨?_, DbWrite.apply_final allowed before.1 before.2.1 before.2.2⟩
    show id < (reaction.db.apply box.table box.now).count
    rcases DbWrite.apply_count box.table box.now reaction.db with same | ⟨more, -⟩ <;> omega
  · -- a resume that goes on is the resume that was there
    have resumed : ∀ (j : ℕ) (other : Task) (id : ℕ),
        (box.tasks.set i reaction.task)[j]? = some other → other.resumes = some id →
        ∃ before : Task, box.tasks[j]? = some before ∧ before.resumes = some id := by
      intro j other id found resumes
      rcases set_cases found with ⟨rfl, rfl⟩ | ⟨-, old⟩
      · exact ⟨task, current, kept.resumes id resumes⟩
      · exact ⟨other, old, resumes⟩
    intro j k first second id id' found found' resumes resumes'
    obtain ⟨before, old, resumes⟩ := resumed j first id found resumes
    obtain ⟨before', old', resumes'⟩ := resumed k second id' found' resumes'
    exact claimed.alone j k before before' id id' old old' resumes resumes'
  · intro j other found
    rcases set_cases found with ⟨-, rfl⟩ | ⟨-, old⟩
    · exact kept.edges (claimed.edges i task current)
    · exact claimed.edges j other old

theorem Claimed.spawn {box : Box} (claimed : Claimed box)
    (drawn : ∀ claimId, task.claimId? = some claimId → claimId = box.now) (held : task.holds = none)
    (resumes : task.resumes = none) (writes : task.writes = none) :
    Claimed { box.spawn task with now := box.now + 1 } := by
  constructor
  · exact claimed.tidy
  · intro j other claimId found same
    rcases append_cases found with ⟨-, rfl⟩ | old
    · exact Nat.lt_succ_of_le (Nat.le_of_eq (drawn claimId same))
    · exact Nat.lt_succ_of_lt (claimed.young j other claimId old same)
  · intro j k first second claimId found found' same same'
    rcases append_cases found with ⟨last, rfl⟩ | old
    · rcases append_cases found' with ⟨last', -⟩ | old'
      · rw [last, last']
      · have young := claimed.young k second claimId old' same'
        exact absurd (drawn claimId same) (Nat.ne_of_lt young)
    · rcases append_cases found' with ⟨-, rfl⟩ | old'
      · have young := claimed.young j first claimId old same
        exact absurd (drawn claimId same') (Nat.ne_of_lt young)
      · exact claimed.distinct j k first second claimId old old' same same'
  · intro j other id claimId found holds
    rcases append_cases found with ⟨-, rfl⟩ | old
    · rw [held] at holds
      cases holds
    · exact claimed.held j other id claimId old holds
  · intro j other id found resumed
    rcases append_cases found with ⟨-, rfl⟩ | old
    · rw [resumes] at resumed
      cases resumed
    · exact claimed.resumed j other id old resumed
  · intro j k first second id id' found found' resumed resumed'
    rcases append_cases found with ⟨-, rfl⟩ | old
    · rw [resumes] at resumed
      cases resumed
    · rcases append_cases found' with ⟨-, rfl⟩ | old'
      · rw [resumes] at resumed'
        cases resumed'
      · exact claimed.alone j k first second id id' old old' resumed resumed'
  · intro j other found
    rcases append_cases found with ⟨-, rfl⟩ | old
    · exact edges_of_writes_none writes
    · exact claimed.edges j other old

theorem Claimed.no_tasks {box : Box} (tidy : box.table.Tidy) (gone : box.tasks = []) : Claimed box := by
  constructor
  · exact tidy
  all_goals simp [gone]

theorem clearClaims_tidy {table : Table} (tidy : table.Tidy) (now : ℕ) : (table.clearClaims now).Tidy := by
  intro id beyond
  simp only [Table.clearClaims, Table.updateWhere, tidy id beyond, Row.absent]
  rfl

theorem clearClaims_row (table : Table) (now id : ℕ) :
    ((table.clearClaims now).row id).status = (table.row id).status ∧
      ((table.clearClaims now).row id).claim = none := by
  simp only [Table.clearClaims, Table.updateWhere]
  split
  · exact ⟨rfl, rfl⟩
  · rename_i free
    exact ⟨rfl, by simpa using free⟩

theorem clearClaims_release (table : Table) (now id : ℕ) :
    ((table.clearClaims now).row id).release = (table.row id).release := by
  simp only [Table.clearClaims, Table.updateWhere]
  split <;> rfl

theorem clearClaims_unclaimed {table : Table} (now : ℕ) (free : (table.row id).claim = none) :
    (table.clearClaims now).row id = table.row id := by
  simp [Table.clearClaims, Table.updateWhere, free]

/-- A boot leaves one task: the resume of the newest `applying` row, or the look for a `verifying`
one. -/
theorem Box.boot_cases (box : Box) :
    (box.boot.tasks = [.retry] ∧
        (box.table.clearClaims box.now).newest (fun row => row.status = .applying) = none) ∨
      ∃ id, (box.table.clearClaims box.now).newest (fun row => row.status = .applying) = some id ∧
        box.boot.tasks =
          [.resume { boot := box.boots + 1, id, seen := (box.table.clearClaims box.now).row id,
                     refs := fun _ => none, stage := .parse }] := by
  simp only [Box.boot]
  cases found : (box.table.clearClaims box.now).newest fun row => row.status = .applying with
  | none => exact .inl ⟨rfl, rfl⟩
  | some id => exact .inr ⟨id, rfl, rfl⟩

theorem Claimed.boot {box : Box} (claimed : Claimed box) : Claimed { box.boot with now := box.now + 1 } := by
  have tidy := clearClaims_tidy claimed.tidy box.now
  -- the one task there is holds no claim and writes nothing
  have one : ∀ (task : Task), box.boot.tasks = [task] → task.claimId? = none → task.holds = none →
      task.writes = none → (∀ id, task.resumes = some id → id < box.boot.table.count ∧
        (box.boot.table.row id).status.applicable = false ∧ (box.boot.table.row id).claim = none) →
      Claimed { box.boot with now := box.now + 1 } := by
    intro task tasks drawn held writes resumes
    have only : ∀ j other, box.boot.tasks[j]? = some other → j = 0 ∧ other = task := by
      intro j other found
      rw [tasks] at found
      exact singleton_cases found
    constructor
    · exact tidy
    · intro j other claimId found same
      rw [(only j other found).2, drawn] at same
      cases same
    · intro i j first second claimId found found'
      rw [(only i first found).1, (only j second found').1]
      intro _ _
      rfl
    · intro j other id claimId found same
      rw [(only j other found).2, held] at same
      cases same
    · intro j other id found same
      rw [(only j other found).2] at same
      exact resumes id same
    · intro i j first second id id' found found'
      rw [(only i first found).1, (only j second found').1]
      intro _ _
      rfl
    · intro j other found
      rw [(only j other found).2]
      exact edges_of_writes_none writes
  rcases Box.boot_cases box with ⟨tasks, -⟩ | ⟨id, found, tasks⟩
  · exact one _ tasks rfl rfl rfl (by simp [Task.resumes])
  · refine one _ tasks rfl rfl rfl ?_
    intro other same
    cases same
    obtain ⟨known, applying⟩ := Table.newest_some found
    simp only [decide_eq_true_eq] at applying
    refine ⟨known, ?_, (clearClaims_row box.table box.now id).2⟩
    show ((box.table.clearClaims box.now).row id).status.applicable = false
    rw [applying]
    rfl

theorem helperStep_cases (box : Box) (i : ℕ) (helper : Helper) (answer : Answer) :
    (box.helperStep i helper answer).table = box.table ∧
      ((box.helperStep i helper answer).tasks = box.tasks ∨
        (box.helperStep i helper answer).tasks = []) := by
  unfold Box.helperStep Box.helperRestores Box.helperRollsBack
  repeat' split
  all_goals simp [Box.setHelper, Box.swapSelf, Box.die]

theorem Claimed.same_tasks {box after : Box} (claimed : Claimed box)
    (table : after.table = box.table) (tasks : after.tasks = box.tasks ∨ after.tasks = [])
    (now : after.now = box.now + 1) : Claimed after := by
  have tidy : after.table.Tidy := table ▸ claimed.tidy
  rcases tasks with tasks | tasks
  · constructor
    · exact tidy
    · intro j task claimId found same
      rw [now]
      exact Nat.lt_succ_of_lt (claimed.young j task claimId (tasks ▸ found) same)
    · rw [tasks]
      exact claimed.distinct
    · rw [tasks, table]
      exact claimed.held
    · rw [tasks, table]
      exact claimed.resumed
    · rw [tasks]
      exact claimed.alone
    · rw [tasks]
      exact claimed.edges
  · exact Claimed.no_tasks tidy tasks

theorem Claimed.step {box : Box} (claimed : Claimed box) (event : Event) : Claimed (box.step event) := by
  have moved := box.step_moved event
  generalize box.step event = after at moved
  cases moved with
  | still | helperDies => exact claimed.same_tasks rfl (.inl rfl) rfl
  | spawns _ task spawns =>
    cases spawns with
    | window _ =>
      obtain ⟨drawn, held, resumes, writes⟩ := pickRun_quiet box.table box.now
      exact claimed.spawn drawn held resumes writes
    | _ => exact claimed.spawn (by simp [Task.claimId?]) rfl rfl rfl
  | acts i answer task current =>
    exact claimed.perform current
      (box.claimsKept task answer)
  | helps i answer helper found =>
    obtain ⟨table, tasks⟩ := helperStep_cases box i helper answer
    exact claimed.same_tasks table tasks rfl
  | dies => exact Claimed.no_tasks claimed.tidy rfl
  | boots => exact claimed.boot

theorem Claimed.run (host : Host) (events : List Event) : Claimed ((Box.fresh host).run events) :=
  Box.run_induction host (Claimed.fresh host) (fun _ event claimed => claimed.step event) events

theorem Box.step_table (box : Box) (event : Event) :
    (box.step event).table = box.table ∨
      (∃ i answer task, event = .advance i answer ∧ box.tasks[i]? = some task ∧
        (box.step event).table =
          (box.react task answer).db.apply box.table
            box.now) ∨
      (event = .boot ∧ (box.step event).table = box.table.clearClaims box.now) := by
  have moved := box.step_moved event
  generalize box.step event = after at moved
  cases moved with
  | still | spawns | helperDies | dies => exact .inl rfl
  | acts i answer task current => exact .inr (.inl ⟨i, answer, task, rfl, current, rfl⟩)
  | helps i answer helper found => exact .inl (helperStep_cases box i helper answer).1
  | boots => exact .inr (.inr ⟨rfl, rfl⟩)

namespace Claimed

variable {box : Box}

theorem one_runner (claimed : Claimed box) {i j : ℕ} {task task' : Task}
    (found : box.tasks[i]? = some task) (found' : box.tasks[j]? = some task')
    (runs : task.runner = some id) (runs' : task'.runner = some id) : i = j := by
  have cases : ∀ (k : ℕ) (other : Task), box.tasks[k]? = some other → other.runner = some id →
      (∃ claimId, other.holds = some (id, claimId) ∧
        (box.table.row id).claim = some claimId) ∨
      (other.resumes = some id ∧ (box.table.row id).claim = none) := by
    intro k other place runner
    unfold Task.runner at runner
    split at runner
    · rename_i work
      split at runner
      · cases runner
      · rename_i started
        cases runner
        have holds := Run.holds_of_started started
        exact .inl ⟨work.claimId, holds, claimed.held k _ _ _ place holds⟩
    · rename_i work
      cases runner
      exact .inr ⟨rfl, (claimed.resumed k _ _ place rfl).2.2⟩
    · cases runner
  rcases cases i task found runs with ⟨claimId, holds, row⟩ | ⟨resumes, row⟩
  · rcases cases j task' found' runs' with ⟨claimId', holds', row'⟩ | ⟨-, row'⟩
    · rw [row] at row'
      cases row'
      exact claimed.distinct i j task task' claimId found found' (Task.holds_drawn holds)
        (Task.holds_drawn holds')
    · rw [row] at row'
      cases row'
  · rcases cases j task' found' runs' with ⟨claimId', -, row'⟩ | ⟨resumes', -⟩
    · rw [row] at row'
      cases row'
    · exact claimed.alone i j task task' id id found found' resumes resumes'

theorem released_by_holder (claimed : Claimed box) {event : Event} {claimId : ClaimId}
    (before : (box.table.row id).claim = some claimId)
    (after : ((box.step event).table.row id).claim ≠ some claimId) :
    event = .boot ∨ ∃ i answer task, event = .advance i answer ∧ box.tasks[i]? = some task ∧
      task.holds = some (id, claimId) := by
  rcases Box.step_table box event with same | ⟨i, answer, task, advances, current, writes⟩ | boot
  · rw [same] at after
    exact absurd before after
  · refine .inr ⟨i, answer, task, advances, current, ?_⟩
    have kept := box.claimsKept task answer
    by_contra other
    apply after
    rw [writes]
    apply DbWrite.apply_claim claimed.tidy before
    intro releases
    exact other (kept.releases id claimId releases).1
  · exact .inl boot.1

theorem status_follows (claimed : Claimed box) (event : Event) (known : id < box.table.count) :
    (box.table.row id).status.Follows ((box.step event).table.row id).status := by
  rcases Box.step_table box event with same | ⟨i, answer, task, -, current, writes⟩ | ⟨-, boot⟩
  · rw [same]
    exact .refl _
  · have kept := box.claimsKept task answer
    rw [writes]
    exact DbWrite.apply_status (kept.allowed (claimed.edges i task current)) known
  · rw [boot, (clearClaims_row box.table box.now id).1]
    exact .refl _

end Claimed

/-- A row begins as `pending`. -/
theorem Box.created_pending (box : Box) (event : Event) (unknown : box.table.count ≤ id)
    (known : id < (box.step event).table.count) : ((box.step event).table.row id).status = .pending := by
  rcases Box.step_table box event with same | ⟨i, answer, task, -, current, writes⟩ | ⟨-, boot⟩
  · rw [same] at known
    omega
  · rw [writes] at known ⊢
    generalize (box.react task answer).db = write
      at known
    rcases DbWrite.apply_count box.table box.now write with same | ⟨more, found, rfl⟩
    · omega
    · have last : id = box.table.count := by omega
      simp [DbWrite.apply, DbWrite.hits, Table.create, Table.supersedePendingUpdates,
        Table.supersedeUnclaimedVerifyingUpdates, Table.updateWhere, last]
  · rw [boot] at known
    simp only [Table.clearClaims, Table.updateWhere] at known
    omega

theorem stale_write (box : Box) {i : ℕ} {seen target : Status} (answer : Answer)
    (current : box.tasks[i]? = some task) (writes : task.writes = some (id, seen, target))
    (changed : (box.table.row id).status ≠ seen) : (box.step (.advance i answer)).table = box.table := by
  simp only [Box.step, Box.handle, current, Box.perform]
  unfold Task.writes at writes
  split at writes
  · rename_i work
    split at writes
    · rename_i seen' target' reason outcome stage
      cases writes
      simp only [Task.react, Run.react, stage, Run.writes, if_neg changed]
      split <;> simp [Run.leave, Run.go, Run.stay, DbWrite.apply, DbWrite.hits, changed]
    · cases writes
  · rename_i work
    split at writes
    · rename_i seen' target' reason outcome stage
      cases writes
      simp only [Task.react, Resume.react, stage, Resume.writes, if_neg changed]
      split <;> simp [Reaction.ended, Resume.stay, DbWrite.apply, DbWrite.hits, changed]
    · cases writes
  · cases writes

/-- After any interleaving of polls, windows, `apply-now`, skips, crashes and boots: one task at most
carries out the update of a row, and every call of the runner is its; a claim goes by the task that
holds it or with a boot; rows begin as `pending` and move along the edges of the state machine, and
a write that saw another status does nothing. -/
theorem update_rows_have_one_runner (host : Host) (events : List Event) :
    let box := (Box.fresh host).run events
    (∀ (i j : ℕ) (task task' : Task) (id : ℕ), box.tasks[i]? = some task →
        box.tasks[j]? = some task' → task.runner = some id → task'.runner = some id → i = j) ∧
      (∀ (i : ℕ) (task : Task) (answer : Answer) (id : ℕ), box.tasks[i]? = some task →
        (task.react box.table box.host box.applyNowInFlight box.now answer).host.row? = some id →
        task.runner = some id) ∧
      (∀ (event : Event) (id : ℕ) (claimId : ClaimId), (box.table.row id).claim = some claimId →
        ((box.step event).table.row id).claim ≠ some claimId →
        event = .boot ∨ ∃ i answer task, event = .advance i answer ∧ box.tasks[i]? = some task ∧
          task.holds = some (id, claimId)) ∧
      (∀ (i : ℕ) (task : Task) (id : ℕ) (claimId : ClaimId), box.tasks[i]? = some task →
        task.holds = some (id, claimId) → (box.table.row id).claim = some claimId) ∧
      (∀ (event : Event) (id : ℕ), id < box.table.count →
        (box.table.row id).status.Follows ((box.step event).table.row id).status) ∧
      (∀ (event : Event) (id : ℕ), box.table.count ≤ id → id < (box.step event).table.count →
        ((box.step event).table.row id).status = .pending) ∧
      (∀ (i : ℕ) (task : Task) (answer : Answer) (id : ℕ) (seen target : Status),
        box.tasks[i]? = some task → task.writes = some (id, seen, target) →
        (box.table.row id).status ≠ seen →
        (box.step (.advance i answer)).table = box.table) := by
  intro box
  have claimed : Claimed box := Claimed.run host events
  refine ⟨?_, ?_, ?_, ?_, ?_, ?_, ?_⟩
  · intro i j task task' id found found' runs runs'
    exact claimed.one_runner found found' runs runs'
  · intro i task answer id _ calls
    exact (box.claimsKept task answer).host id calls
  · intro event id claimId before after
    exact claimed.released_by_holder before after
  · intro i task id claimId found holds
    exact claimed.held i task id claimId found holds
  · intro event id known
    exact claimed.status_follows event known
  · intro event id unknown known
    exact box.created_pending event unknown known
  · intro i task answer id seen target current writes changed
    exact stale_write box answer current writes changed

end Droplet.Update
