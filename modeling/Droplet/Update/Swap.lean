import Droplet.Update.Calls

/-! The swap of an update through crashes and boots: when services are recreated on the refs of a
release, what a rollback goes back to, and what a commit rests on. -/

namespace Droplet.Update

open Places

def Entry.noted : Entry → Bool
  | .attempted _ _ | .refsRead _ _ _ | .gated _ _ _ _ => true
  | _ => false

def Box.added (box : Box) (reaction : Reaction) : List Entry :=
  reaction.notes ++ reaction.host.entries box.table box.host ++
    (reaction.db.changes box.table).map
      fun change => .reached change.1 change.2 box.boots box.host.tree

theorem Box.perform_trace (box : Box) (i : ℕ) (reaction : Reaction) :
    (box.perform i reaction).trace = box.added reaction ++ box.trace := by
  simp [Box.perform, Box.added]

theorem Task.react_notes (table : Table) (host : Host) (inFlight : Bool) (fresh : ClaimId)
    (task : Task) (answer : Answer) :
    ∀ entry ∈ (task.react table host inFlight fresh answer).notes, entry.noted := by
  cases task with
  | done | retry | poll | applyNow | skip =>
    simp only [Task.react, retryReact, pollReact, applyNowReact, skipReact]
    repeat' split
    all_goals simp [Reaction.ended]
  | run work =>
    have did := Run.react_did work table host answer
    simp only [Task.react]
    generalize work.react table host answer = reaction at did
    cases did with
    | claims | finds => simp [Entry.noted]
    | _ => intro entry found; cases found
  | resume work =>
    have did := Resume.react_did work table host answer
    simp only [Task.react]
    generalize work.react table host answer = reaction at did
    cases did with
    | readsRefs | gates => simp [Entry.noted]
    | _ => intro entry found; cases found

/-- A reaction adds the entries of its call, or its notes and the statuses it writes. -/
theorem Box.added_cases (box : Box) (task : Task) (answer : Answer) :
    let reaction := box.react task answer
    (reaction.host = .nothing ∧ ∀ entry ∈ box.added reaction, entry.noted ∨
        ∃ change ∈ reaction.db.changes box.table,
          entry = .reached change.1 change.2 box.boots box.host.tree) ∨
      (Task.Calls box.host task reaction.host ∧ reaction.db = .nothing ∧
        box.added reaction = reaction.host.entries box.table box.host) := by
  intro reaction
  have notes := Task.react_notes box.table box.host box.applyNowInFlight box.now task answer
  rcases Task.react_calls box.table box.host box.applyNowInFlight box.now task answer with
    idle | ⟨calls, db, none⟩
  · refine .inl ⟨idle, ?_⟩
    intro entry found
    have idle' : reaction.host = .nothing := idle
    simp only [Box.added, idle', HostOp.entries, List.append_nil, List.mem_append, List.mem_map] at found
    rcases found with found | ⟨change, written, same⟩
    · exact .inl (notes entry found)
    · exact .inr ⟨change, written, same.symm⟩
  · refine .inr ⟨calls, db, ?_⟩
    have db' : reaction.db = .nothing := db
    have none' : reaction.notes = [] := none
    simp [Box.added, db', none', DbWrite.changes]

def Status.swapped : Status → Bool
  | .applying | .committed | .rolledBack | .failed => true
  | _ => false

theorem swapped_stays {before after : Status} (follows : before.Follows after)
    (swapped : before.swapped) : after.swapped := by
  rcases follows with rfl | edge
  · exact swapped
  · cases before <;> simp [Status.allowed] at edge
    · cases swapped
    · cases swapped
    · rcases edge with rfl | rfl | rfl <;> rfl

/-- The later of two entries is no snapshot of a row whose services the earlier one put on the
release. -/
def SnapshotFirst (later earlier : Entry) : Prop :=
  ∀ row refs status running pins, later = .pinned row refs →
    earlier ≠ .recreated row .release status running pins

structure Swaps (box : Box) : Prop where
  released : ∀ row status refs pins, .recreated row .release status refs pins ∈ box.trace →
    row < box.table.count ∧ (box.table.row row).status.swapped
  waiting : ∀ helper ∈ box.host.helpers, helper.target = .release → helper.stage = .swap →
    helper.row < box.table.count ∧ (box.table.row helper.row).status.swapped
  snapshots : box.trace.Pairwise SnapshotFirst

theorem Swaps.fresh (host : Host) : Swaps (Box.fresh host) := by
  constructor <;> simp [Box.fresh]

/-- The row of a run that recreates its services on the release, or hands the orchestrator off, is
`applying`. -/
theorem Staged.applying {box : Box} (staged : Staged box) {i : ℕ} {work : Run}
    (current : box.tasks[i]? = some (.run work)) (stage : work.stage = .recreate ∨ work.stage = .swapSelf) :
    (box.table.row work.id).status = .applying := by
  apply staged.needs i work .applying current
  rcases stage with stage | stage <;> simp [Run.needs, stage]

theorem Staged.verifying {box : Box} (staged : Staged box) {i : ℕ} {work : Run}
    (current : box.tasks[i]? = some (.run work)) (stage : work.stage = .refs ∨ work.stage = .pin) :
    (box.table.row work.id).status = .verifying := by
  apply staged.needs i work .verifying current
  rcases stage with stage | stage <;> simp [Run.needs, stage]

theorem count_step (box : Box) (event : Event) : box.table.count ≤ (box.step event).table.count := by
  rcases Box.step_table box event with same | ⟨i, answer, task, -, -, writes⟩ | ⟨-, boot⟩
  · rw [same]
  · rw [writes]
    rcases DbWrite.apply_count box.table box.now
      (box.react task answer).db with
      same | ⟨more, -⟩ <;> omega
  · rw [boot]
    exact le_refl _

/-- The new entries and helpers of a step meet the invariant if the rows they are about have got to
their swap. -/
theorem Swaps.extend {box after : Box} (claimed : Claimed box) (swaps : Swaps box) {event : Event}
    (step : after = box.step event) (entries : List Entry) (trace : after.trace = entries ++ box.trace)
    (released : ∀ row status refs pins, .recreated row .release status refs pins ∈ entries →
      row < box.table.count ∧ (box.table.row row).status.swapped)
    (waiting : ∀ helper ∈ after.host.helpers, helper.target = .release → helper.stage = .swap →
      helper ∈ box.host.helpers ∨
        (helper.row < box.table.count ∧ (box.table.row helper.row).status.swapped))
    (pinned : ∀ row refs, .pinned row refs ∈ entries →
      entries = [.pinned row refs] ∧ (box.table.row row).status = .verifying) : Swaps after := by
  have stays : ∀ row, row < box.table.count → (box.table.row row).status.swapped →
      row < after.table.count ∧ (after.table.row row).status.swapped := by
    intro row known swapped
    rw [step]
    exact ⟨lt_of_lt_of_le known (count_step box event),
      swapped_stays (claimed.status_follows event known) swapped⟩
  constructor
  · intro row status refs pins found
    rw [trace, List.mem_append] at found
    have before : row < box.table.count ∧ (box.table.row row).status.swapped := by
      rcases found with new | old
      · exact released row status refs pins new
      · exact swaps.released row status refs pins old
    exact stays row before.1 before.2
  · intro helper member target stage
    have before : helper.row < box.table.count ∧ (box.table.row helper.row).status.swapped := by
      rcases waiting helper member target stage with old | new
      · exact swaps.waiting helper old target stage
      · exact new
    exact stays helper.row before.1 before.2
  · rw [trace, List.pairwise_append]
    refine ⟨?_, swaps.snapshots, ?_⟩
    · -- a snapshot comes alone
      by_cases snapshot : ∃ row refs, .pinned row refs ∈ entries
      · obtain ⟨row, refs, found⟩ := snapshot
        rw [(pinned row refs found).1]
        exact List.pairwise_singleton _ _
      · refine List.pairwise_of_forall_mem_list ?_
        intro later found earlier _ row refs status running pins same
        exact absurd ⟨row, refs, same ▸ found⟩ snapshot
    · intro later new earlier old row refs status running pins same same'
      subst same same'
      have verifying := (pinned row refs new).2
      have swapped := (swaps.released row status running pins old).2
      rw [verifying] at swapped
      cases swapped

theorem Task.Calls.helpers {host : Host} {task : Task} {op : HostOp} (calls : Task.Calls host task op)
    {helper : Helper} (member : helper ∈ (op.apply host).helpers) (stage : helper.stage = .swap) :
    helper ∈ host.helpers ∨
      (∃ work : Run, task = .run work ∧ work.stage = .swapSelf ∧ op = .launch work.id .release ∧
        helper = ⟨work.id, .release, .swap⟩) ∨
      (∃ work : Resume, task = .resume work ∧ helper = ⟨work.id, .previous, .swap⟩) := by
  -- a launch removes the helpers of its own row
  have launched : ∀ row target, helper ∈ ((HostOp.launch row target).apply host).helpers →
      helper ∈ host.helpers ∨ helper = ⟨row, target, .swap⟩ := by
    intro row target member
    simp only [HostOp.apply, List.mem_append, List.mem_map, List.mem_singleton] at member
    rcases member with ⟨old, member, same⟩ | new
    · split at same
      · rw [← same] at stage
        cases stage
      · exact .inl (same ▸ member)
    · exact .inr new
  cases calls with
  | launches work swapSelf material =>
    rcases launched work.id .release member with old | new
    · exact .inl old
    · exact .inr (.inl ⟨work, rfl, swapSelf, rfl, new⟩)
  | resumeLaunches work swapBack material =>
    rcases launched work.id .previous member with old | new
    · exact .inl old
    · exact .inr (.inr ⟨work, rfl, new⟩)
  | _ => exact .inl member

theorem Swaps.step {box : Box} (claimed : Claimed box) (staged : Staged box) (swaps : Swaps box)
    (event : Event) : Swaps (box.step event) := by
  have moved := box.step_moved event
  generalize after' : box.step event = after at moved
  have quiet : after.trace = box.trace → (∀ helper ∈ after.host.helpers,
      helper ∈ box.host.helpers ∨ helper.stage ≠ .swap) → Swaps after := by
    intro trace helpers
    refine swaps.extend claimed after'.symm [] trace (by simp) ?_ (by simp)
    intro helper member _ stage
    exact .inl ((helpers helper member).resolve_right (not_not.mpr stage))
  cases moved with
  | still | spawns | dies | boots => exact quiet rfl fun _ member => .inl member
  | acts i answer task current =>
    refine swaps.extend claimed after'.symm _ (Box.perform_trace box i _) ?_ ?_ ?_
    · intro row status refs pins found
      rcases Box.added_cases box task answer with ⟨-, none⟩ | ⟨calls, -, entries⟩
      · rcases none _ found with noted | ⟨change, -, same⟩
        · cases noted
        · cases same
      · rw [entries] at found
        generalize (box.react task answer).host = op
          at calls found
        cases calls with
        | recreates work services left stage _ =>
          simp only [HostOp.entries, List.mem_singleton, Entry.recreated.injEq] at found
          rw [found.1]
          have applying := staged.applying current (.inl stage)
          exact ⟨(staged.known i work current).1, by rw [applying]; rfl⟩
        | _ => simp [HostOp.entries] at found
    · intro helper member target stage
      rcases Box.added_cases box task answer with ⟨idle, -⟩ | ⟨calls, -, -⟩
      · simp only [Box.perform, idle] at member
        exact .inl member
      · rcases calls.helpers member stage with old | ⟨work, rfl, swapSelf, -, rfl⟩ | ⟨work, -, rfl⟩
        · exact .inl old
        · have applying := staged.applying current (.inr swapSelf)
          exact .inr ⟨(staged.known i work current).1, by rw [applying]; rfl⟩
        · cases target
    · intro row refs found
      rcases Box.added_cases box task answer with ⟨-, none⟩ | ⟨calls, -, entries⟩
      · rcases none _ found with noted | ⟨change, -, same⟩
        · cases noted
        · cases same
      · rw [entries] at found ⊢
        generalize (box.react task answer).host = op
          at calls found
        cases calls with
        | pin work stage =>
          simp only [HostOp.entries, List.mem_singleton, Entry.pinned.injEq] at found ⊢
          rw [found.1, found.2]
          exact ⟨rfl, staged.verifying current (.inr stage)⟩
        | _ => simp [HostOp.entries] at found
  | helps i answer helper found =>
    obtain ⟨host, entries, stepped⟩ := helperStep_stepped box i helper answer
    refine swaps.extend claimed after'.symm _ stepped.trace ?_ ?_ ?_
    · intro row status refs pins recreated
      have move := stepped.move
      cases move with
      | swaps stage =>
        simp only [List.mem_singleton, Entry.recreated.injEq] at recreated
        obtain ⟨rfl, target, -⟩ := recreated
        exact swaps.waiting helper (List.mem_of_getElem? found) target.symm stage
      | _ => simp at recreated
    · intro other member target stage
      exact .inl (stepped.waiting member stage)
    · intro row refs pinned
      have move := stepped.move
      cases move <;> simp at pinned
  | helperDies i helper found =>
    refine quiet rfl ?_
    intro other member
    by_cases stage : other.stage = .swap
    · exact .inl (Box.setHelper_waiting member stage)
    · exact .inr stage

/-! ### Release recreates while `applying` -/

/-- The condition of a step: no boot comes while a helper still has to put the orchestrator on its
release. -/
def Box.swapsBeforeBoot (box : Box) (event : Event) : Bool :=
  match event with
  | .boot =>
    box.alive || box.host.helpers.all fun helper =>
      !(helper.target = .release && helper.stage = .swap)
  | _ => true

structure InTime (box : Box) : Prop where
  recreated : ∀ row status refs pins, .recreated row .release status refs pins ∈ box.trace →
    status = .applying
  waiting : ∀ helper ∈ box.host.helpers, helper.target = .release → helper.stage = .swap →
    (box.table.row helper.row).status = .applying
  /-- Nobody works on the row any more: its run is on the way out. -/
  left : ∀ helper ∈ box.host.helpers, helper.target = .release → helper.stage = .swap →
    ∀ (j : ℕ) (task : Task), box.tasks[j]? = some task →
      task.resumes ≠ some helper.row ∧ ∀ claimId, task.holds = some (helper.row, claimId) →
        ∃ work : Run, task = .run work ∧ work.stage = .release

theorem InTime.fresh (host : Host) : InTime (Box.fresh host) := by
  constructor <;> simp [Box.fresh]

theorem Run.release_quiet {run : Run} {table : Table} {host : Host} (stage : run.stage = .release)
    (answer : Answer) :
    (∀ id seen target reason outcome,
        (run.react table host answer).db ≠ .advance id seen target reason outcome) ∧
      ((run.react table host answer).task = .done ∨
        (run.react table host answer).task = .run run) := by
  simp only [Run.react, stage, Run.releases]
  split <;> simp [Run.finish, Run.stay]

theorem Run.launch_leaves {run : Run} {table : Table} {host : Host} {answer : Answer} {row : ℕ}
    {target : RecreateTarget} (launches : (run.react table host answer).host = .launch row target) :
    (run.react table host answer).task = .run { run with stage := .release } := by
  have did := react_did run table host answer
  generalize run.react table host answer = reaction at did launches
  cases did with
  | calls op next calls =>
    generalize run.stage = stage at calls
    cases calls <;> cases launches
    rfl
  | callThrew => rfl
  | _ => cases launches

section Perform

variable {box : Box} {i : ℕ} {task : Task} {answer : Answer} {helper : Helper}

/-- A row that waits for its helper stays `applying` through the step of any task. -/
theorem InTime.waiting_stays (swaps : Swaps box) (inTime : InTime box)
    (current : box.tasks[i]? = some task) (member : helper ∈ box.host.helpers)
    (target : helper.target = .release) (stage : helper.stage = .swap) :
    (((box.react task answer).db.apply box.table
      box.now).row helper.row).status = .applying := by
  have applying := inTime.waiting helper member target stage
  have known := (swaps.waiting helper member target stage).1
  by_contra moved
  have moved' := moved
  rw [← applying] at moved'
  rcases status_moves box task answer known rfl moved' with
    ⟨runner, seen, next, reason, outcome, write⟩ | pending | ⟨verifying, -⟩
  · obtain ⟨resumes, holds⟩ := inTime.left helper member target stage i task current
    cases task with
    | run work =>
      simp only [Task.runner] at runner
      split at runner
      · cases runner
      · rename_i started
        have place := Option.some.inj runner
        obtain ⟨other, same, out⟩ := holds work.claimId (place ▸ Run.holds_of_started started)
        cases same
        exact (Run.release_quiet out answer).1 _ _ _ _ _ write
    | resume work => exact resumes runner
    | _ => cases runner
  · rw [applying] at pending
    cases pending
  · rw [applying] at verifying
    cases verifying

theorem InTime.left_stays (inTime : InTime box) (current : box.tasks[i]? = some task)
    (member : helper ∈ box.host.helpers) (target : helper.target = .release)
    (stage : helper.stage = .swap) {j : ℕ} {other : Task} (found : (box.tasks.set i
      (box.react task answer).task)[j]? = some other) :
    other.resumes ≠ some helper.row ∧ ∀ claimId, other.holds = some (helper.row, claimId) →
      ∃ work : Run, other = .run work ∧ work.stage = .release := by
  rcases set_cases found with ⟨-, rfl⟩ | ⟨-, old⟩
  · have claims := box.claimsKept task answer
    obtain ⟨resumes, holds⟩ := inTime.left helper member target stage i task current
    refine ⟨fun resumed => resumes (claims.resumes _ resumed), ?_⟩
    intro claimId held
    rcases claims.held helper.row claimId held with before | ⟨write, hits⟩
    · obtain ⟨work, rfl, out⟩ := holds claimId before
      rcases (@Run.release_quiet work box.table box.host out answer).2 with ends | stays
      · simp only [Task.react, ends] at held
        cases held
      · exact ⟨work, stays, out⟩
    · rw [write] at hits
      simp [DbWrite.hits, inTime.waiting helper member target stage, Status.applicable] at hits
  · exact inTime.left helper member target stage j other old

theorem Claimed.launch_left (claimed : Claimed box) {work : Run}
    (current : box.tasks[i]? = some (.run work)) (swapSelf : work.stage = .swapSelf)
    (launches : (work.react box.table box.host answer).host = .launch work.id .release) {j : ℕ} {other : Task}
    (found : (box.tasks.set i (work.react box.table box.host answer).task)[j]? = some other) :
    other.resumes ≠ some work.id ∧ ∀ claimId, other.holds = some (work.id, claimId) →
      ∃ next : Run, other = .run next ∧ next.stage = .release := by
  have started : work.stage ≠ .claim := by rw [swapSelf]; decide
  have holds := Run.holds_of_started started
  have held := claimed.held i _ _ _ current holds
  rcases set_cases found with ⟨-, rfl⟩ | ⟨differ, old⟩
  · rw [Run.launch_leaves launches]
    exact ⟨by simp [Task.resumes], fun _ _ => ⟨_, rfl, rfl⟩⟩
  · constructor
    · intro resumed
      have free := (claimed.resumed j other work.id old resumed).2.2
      rw [held] at free
      cases free
    · intro claimId held'
      have same := claimed.held j other work.id claimId old held'
      rw [held] at same
      cases same
      exact absurd (claimed.distinct j i other _ work.claimId old current (Task.holds_drawn held')
        (Task.holds_drawn holds)) differ

end Perform

theorem InTime.step {box : Box} (claimed : Claimed box) (staged : Staged box) (swaps : Swaps box)
    (inTime : InTime box) {event : Event} (meets : box.swapsBeforeBoot event) : InTime (box.step event) := by
  have moved := box.step_moved event
  generalize box.step event = after at moved
  cases moved with
  | still => exact ⟨inTime.recreated, inTime.waiting, inTime.left⟩
  | spawns _ task spawns =>
    have idle : task.resumes = none ∧ task.holds = none := by
      cases spawns with
      | window _ =>
        obtain ⟨-, held, resumes, -⟩ := pickRun_quiet box.table box.now
        exact ⟨resumes, held⟩
      | _ => exact ⟨rfl, rfl⟩
    refine ⟨inTime.recreated, inTime.waiting, ?_⟩
    intro helper member target stage j other found
    rcases append_cases found with ⟨-, rfl⟩ | old
    · simp [idle]
    · exact inTime.left helper member target stage j other old
  | dies => exact ⟨inTime.recreated, inTime.waiting, by simp [Box.die]⟩
  | boots gone =>
    -- no helper is left to swap
    have none : ∀ helper ∈ box.host.helpers, helper.target = .release → helper.stage ≠ .swap := by
      intro helper member target stage
      simp only [Box.swapsBeforeBoot, gone, Bool.false_or, List.all_eq_true] at meets
      simpa [target, stage] using meets helper member
    refine ⟨inTime.recreated, ?_, ?_⟩
    all_goals
      intro helper member target stage
      exact absurd stage (none helper member target)
  | acts i answer task current =>
    refine ⟨?_, ?_, ?_⟩
    · intro row status refs pins found
      rw [show _ = _ from Box.perform_trace box i _, List.mem_append] at found
      rcases found with new | old
      · rcases Box.added_cases box task answer with ⟨-, none⟩ | ⟨calls, -, entries⟩
        · rcases none _ new with noted | ⟨change, -, same⟩
          · cases noted
          · cases same
        · rw [entries] at new
          generalize (box.react task answer).host = op
            at calls new
          cases calls with
          | recreates work services left stage _ =>
            simp only [HostOp.entries, List.mem_singleton, Entry.recreated.injEq] at new
            rw [new.2.2.1]
            exact staged.applying current (.inl stage)
          | _ => simp [HostOp.entries] at new
      · exact inTime.recreated row status refs pins old
    · intro helper member target stage
      rcases Box.added_cases box task answer with ⟨idle, -⟩ | ⟨calls, db, -⟩
      · simp only [Box.perform, idle] at member
        exact inTime.waiting_stays swaps current member target stage
      · rcases calls.helpers member stage with old | ⟨work, rfl, swapSelf, -, rfl⟩ | ⟨work, -, rfl⟩
        · exact inTime.waiting_stays swaps current old target stage
        · simp only [Box.perform, db]
          exact staged.applying current (.inr swapSelf)
        · cases target
    · intro helper member target stage j other found
      rcases Box.added_cases box task answer with ⟨idle, -⟩ | ⟨calls, -, -⟩
      · simp only [Box.perform, idle] at member
        exact inTime.left_stays current member target stage found
      · rcases calls.helpers member stage with
          old | ⟨work, rfl, swapSelf, launches, rfl⟩ | ⟨work, -, rfl⟩
        · exact inTime.left_stays current old target stage found
        · exact claimed.launch_left current swapSelf launches found
        · cases target
  | helps i answer helper found =>
    obtain ⟨host, entries, stepped⟩ := helperStep_stepped box i helper answer
    obtain ⟨table, tasks⟩ := helperStep_cases box i helper answer
    refine ⟨?_, ?_, ?_⟩
    · intro row status refs pins recreated
      rw [show _ = _ from stepped.trace, List.mem_append] at recreated
      rcases recreated with new | before
      · have move := stepped.move
        cases move with
        | swaps stage =>
          simp only [List.mem_singleton, Entry.recreated.injEq] at new
          rw [new.2.2.1]
          exact inTime.waiting helper (List.mem_of_getElem? found) new.2.1.symm stage
        | _ => simp at new
      · exact inTime.recreated row status refs pins before
    · intro other member target stage
      rw [show _ = _ from table]
      exact inTime.waiting other (stepped.waiting member stage) target stage
    · intro other member target stage j task place
      rcases tasks with tasks | tasks
      · rw [show _ = _ from tasks] at place
        exact inTime.left other (stepped.waiting member stage) target stage j task place
      · rw [show _ = _ from tasks] at place
        cases place
  | helperDies i helper found =>
    refine ⟨inTime.recreated, ?_, ?_⟩
    · intro other member target stage
      exact inTime.waiting other (Box.setHelper_waiting member stage) target stage
    · intro other member target stage
      exact inTime.left other (Box.setHelper_waiting member stage) target stage

end Droplet.Update
