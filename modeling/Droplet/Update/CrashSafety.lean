import Droplet.Update.Forward
import Droplet.Update.Verdict

/-! What a rollback goes back to, and the crash safety of the swap as a whole. -/

namespace Droplet.Update

open Places

/-- At some moment these refs ran, and until then no service had been put on the release of the
row. -/
def RanBefore (host : Host) (events : List Event) (row : ℕ) (refs : Refs) : Prop :=
  ∃ first second, events = first ++ second ∧ refs = ((Box.fresh host).run first).host.refs ∧
    ∀ status running pins,
      .recreated row .release status running pins ∉ ((Box.fresh host).run first).trace

variable {host : Host} {events : List Event} {row : ℕ}

theorem RanBefore.mono {refs : Refs} (ran : RanBefore host events row refs) (event : Event) :
    RanBefore host (events ++ [event]) row refs := by
  obtain ⟨first, second, same, refs, none⟩ := ran
  exact ⟨first, second ++ [event], by rw [same, List.append_assoc], refs, none⟩

def PinsRanBefore (host : Host) (events : List Event) (row : ℕ) (pins : Pins) : Prop :=
  row < ((Box.fresh host).run events).table.count ∧
    ∃ refs, RanBefore host events row refs ∧
      pins = previousPins (((Box.fresh host).run events).manifest row) refs

theorem run_snoc (host : Host) (events : List Event) (event : Event) :
    (Box.fresh host).run (events ++ [event]) = ((Box.fresh host).run events).step event := by
  rw [Box.run_append]
  rfl

theorem PinsRanBefore.mono {pins : Pins} (ran : PinsRanBefore host events row pins) (event : Event) :
    PinsRanBefore host (events ++ [event]) row pins := by
  obtain ⟨known, refs, ran, same⟩ := ran
  refine ⟨?_, refs, ran.mono event, ?_⟩
  · rw [run_snoc]
    exact lt_of_lt_of_le known (count_step _ event)
  · rw [run_snoc, manifest_step _ event known]
    exact same

theorem Run.reaches_pin {run next : Run} {table : Table} {answer : Answer}
    (goes : (run.react table host answer).task = .run next) (stage : next.stage = .pin) :
    next = run ∨ (run.stage = .refs ∧ next = { run with refs := host.refs, stage := .pin }) := by
  have did := react_did run table host answer
  generalize run.react table host answer = reaction at did goes
  cases did with
  | stays =>
    cases goes
    exact .inl rfl
  | readsRefs refs =>
    cases goes
    exact .inr ⟨refs, rfl⟩
  | passes after passes =>
    cases goes
    have pin : after = .pin := stage
    subst pin
    generalize run.stage = before at passes
    cases passes
  | calls op after calls =>
    cases goes
    have pin : after = .pin := stage
    subst pin
    generalize run.stage = before at calls
    cases calls
  | recreates target after left recreates _ =>
    cases goes
    generalize run.stage = before at recreates
    cases recreates <;> by_cases all : left = [] <;> simp [all] at stage
  | writes seen target reason outcome _ _ =>
    cases goes
    cases target <;> cases stage
  | leaves | claims | finds | callThrew | writeThrew =>
    cases goes
    cases stage
  | _ => cases goes

variable {task : Task} {op : HostOp}

section

variable (calls : Task.Calls host task op)
include calls

theorem Task.Calls.previous {pins : Pins} (found : ((op.apply host).dirs row).previous = some pins) :
    (host.dirs row).previous = some pins ∨
      ∃ work : Run, task = .run work ∧ work.stage = .pin ∧ work.id = row ∧
        pins = previousPins work.manifest work.refs := by
  cases calls with
  | pin work stage =>
    simp only [HostOp.apply, Host.setDir] at found
    split at found
    · rename_i same
      exact .inr ⟨work, rfl, stage, same.symm, (Option.some.inj found).symm⟩
    · exact .inl found
  | save work stage =>
    simp only [HostOp.apply, Host.setDir] at found
    split at found
    · rename_i same
      rw [same]
      exact .inl found
    · exact .inl found
  | _ => exact .inl found

theorem Task.Calls.pinned_stays (pinned : (host.dirs row).previous ≠ none) : ((op.apply host).dirs row).previous ≠ none := by
  cases calls with
  | pin work stage =>
    simp only [HostOp.apply, Host.setDir]
    split
    · simp
    · exact pinned
  | save work stage =>
    simp only [HostOp.apply, Host.setDir]
    split
    · rename_i same
      exact same ▸ pinned
    · exact pinned
  | _ => exact pinned

theorem Task.Calls.rollback_pins {table : Table} {status : Status} {running : Refs} {pins : Pins}
    (found : .recreated row .previous status running pins ∈ op.entries table host) :
    (host.dirs row).previous = some pins := by
  have chosen : ∀ id, (host.dirs id).previous ≠ none → row = id →
      pins = ((host.dirs id).override .previous).getD [] → (host.dirs row).previous = some pins := by
    intro id present same pinned
    obtain ⟨kept, saved⟩ := Option.ne_none_iff_exists'.mp present
    rw [same, pinned]
    simp [UpdateDir.override, saved]
  cases calls with
  | rollsBack work _ _ _ present | resumeRollsBack work _ _ _ present =>
    simp only [HostOp.entries, List.mem_singleton, Entry.recreated.injEq] at found
    exact chosen work.id present found.1 found.2.2.2.2
  | _ => simp [HostOp.entries] at found

theorem Task.Calls.helpers_pinned (before : ∀ helper ∈ host.helpers, (host.dirs helper.row).previous ≠ none) :
    ∀ helper ∈ (op.apply host).helpers, ((op.apply host).dirs helper.row).previous ≠ none := by
  have launched : ∀ row target, host.swapMaterial row target →
      ∀ helper ∈ ((HostOp.launch row target).apply host).helpers,
        (host.dirs helper.row).previous ≠ none := by
    intro row target material helper member
    simp only [HostOp.apply, List.mem_append, List.mem_map, List.mem_singleton] at member
    rcases member with ⟨old, member, same⟩ | rfl
    · split at same
      · rw [← same]
        exact before old member
      · exact same ▸ before old member
    · simp only [Host.swapMaterial, Bool.and_eq_true] at material
      exact Option.isSome_iff_ne_none.mp material.2
  intro helper member
  cases calls with
  | launches work stage material => exact launched work.id .release material helper member
  | resumeLaunches work stage material => exact launched work.id .previous material helper member
  | pin work stage =>
    exact Task.Calls.pinned_stays (.pin work stage) (before helper member)
  | save work stage =>
    exact Task.Calls.pinned_stays (.save work stage) (before helper member)
  | _ => exact before helper member

end

structure Pinned (host : Host) (events : List Event) : Prop where
  looked : ∀ (j : ℕ) (work : Run), ((Box.fresh host).run events).tasks[j]? = some (.run work) →
    work.stage = .pin → RanBefore host events work.id work.refs
  previous : ∀ row pins, (((Box.fresh host).run events).host.dirs row).previous = some pins →
    PinsRanBefore host events row pins
  used : ∀ row status running pins,
    .recreated row .previous status running pins ∈ ((Box.fresh host).run events).trace →
    PinsRanBefore host events row pins
  helpers : ∀ helper ∈ ((Box.fresh host).run events).host.helpers,
    (((Box.fresh host).run events).host.dirs helper.row).previous ≠ none

theorem Pinned.fresh (host : Host) : Pinned host [] := by
  constructor <;> simp [Box.run, Box.fresh]

theorem Pinned.extend {event : Event} {after : Box}
    (pinned : Pinned host events) (step : after = ((Box.fresh host).run events).step event)
    (entries : List Entry) (trace : after.trace = entries ++ ((Box.fresh host).run events).trace)
    (looked : ∀ (j : ℕ) (work : Run), after.tasks[j]? = some (.run work) → work.stage = .pin →
      RanBefore host (events ++ [event]) work.id work.refs)
    (previous : ∀ row pins, (after.host.dirs row).previous = some pins →
      PinsRanBefore host events row pins)
    (used : ∀ row status running pins, .recreated row .previous status running pins ∈ entries →
      PinsRanBefore host events row pins)
    (helpers : ∀ helper ∈ after.host.helpers, (after.host.dirs helper.row).previous ≠ none) :
    Pinned host (events ++ [event]) := by
  rw [← run_snoc] at step
  constructor
  · rw [← step]
    exact looked
  · rw [← step]
    intro row pins found
    exact (previous row pins found).mono event
  · rw [← step, trace]
    intro row status running pins found
    rcases List.mem_append.mp found with new | old
    · exact (used row status running pins new).mono event
    · exact (pinned.used row status running pins old).mono event
  · rw [← step]
    exact helpers

theorem Swaps.ran_before (staged : Staged ((Box.fresh host).run events))
    (swaps : Swaps ((Box.fresh host).run events)) {i : ℕ} {work : Run}
    (current : ((Box.fresh host).run events).tasks[i]? = some (.run work))
    (stage : work.stage = .refs) (event : Event) :
    RanBefore host (events ++ [event]) work.id ((Box.fresh host).run events).host.refs := by
  refine ⟨events, [event], rfl, rfl, ?_⟩
  intro status running pins found
  have swapped := (swaps.released work.id status running pins found).2
  rw [staged.verifying current (.inl stage)] at swapped
  cases swapped

section

variable {event : Event} {after : Box} (pinned : Pinned host events)
include pinned

/-- A step that touches no directory and adds no helper. -/
theorem Pinned.quiet (after' : ((Box.fresh host).run events).step event = after)
    (trace : after.trace = ((Box.fresh host).run events).trace)
    (dirs : after.host.dirs = ((Box.fresh host).run events).host.dirs) (helpers : ∀ helper ∈ after.host.helpers,
      (((Box.fresh host).run events).host.dirs helper.row).previous ≠ none)
    (tasks : ∀ (j : ℕ) (work : Run), after.tasks[j]? = some (.run work) → work.stage = .pin →
      ((Box.fresh host).run events).tasks[j]? = some (.run work)) :
    Pinned host (events ++ [event]) := by
  refine pinned.extend after'.symm [] trace ?_ ?_ (by simp) ?_
  · intro j work found stage
    exact (pinned.looked j work (tasks j work found stage) stage).mono event
  · rw [dirs]
    exact pinned.previous
  · rw [dirs]
    exact helpers

theorem Pinned.spawns {task : Task} (spawns : ((Box.fresh host).run events).Spawns task)
    (after' : ((Box.fresh host).run events).step event = { ((Box.fresh host).run events).spawn task with
      now := ((Box.fresh host).run events).now + 1 }) : Pinned host (events ++ [event]) := by
  refine pinned.quiet after' rfl rfl pinned.helpers ?_
  intro j work found stage
  rcases append_cases found with ⟨-, same⟩ | old
  · cases spawns with
    | window _ =>
      rcases pickRun_cases ((Box.fresh host).run events).table ((Box.fresh host).run events).now
        with ends | ⟨next, goes, -, first, -⟩
      · rw [ends] at same
        cases same
      · rw [goes] at same
        cases same
        rw [first] at stage
        cases stage
    | _ => cases same
  · exact old

theorem Pinned.helps {i : ℕ} {answer : Answer} {helper : Helper}
    (found : ((Box.fresh host).run events).host.helpers[i]? = some helper)
    (after' : ((Box.fresh host).run events).step (.helper i answer) =
      { ((Box.fresh host).run events).helperStep i helper answer with
        now := ((Box.fresh host).run events).now + 1 }) :
    Pinned host (events ++ [.helper i answer]) := by
  obtain ⟨next, entries, stepped⟩ :=
    helperStep_stepped ((Box.fresh host).run events) i helper answer
  have dirs : next.dirs = ((Box.fresh host).run events).host.dirs := by
    have move := stepped.move
    cases move <;> rfl
  have dirs' : (((Box.fresh host).run events).helperStep i helper answer).host.dirs =
      ((Box.fresh host).run events).host.dirs := by
    rcases stepped.host with stays | ⟨stage, -, goes⟩
    · rw [stays, dirs]
    · rw [goes, dirs]
  have present := pinned.helpers helper (List.mem_of_getElem? found)
  refine pinned.extend after'.symm _ stepped.trace ?_ ?_ ?_ ?_
  · intro j work place stage
    rcases (helperStep_cases ((Box.fresh host).run events) i helper answer).2 with tasks | tasks
    · exact (pinned.looked j work (tasks ▸ place) stage).mono _
    · simp only [tasks] at place
      cases place
  · simp only [dirs']
    exact pinned.previous
  · intro row status running pins recreated
    apply pinned.previous
    have move := stepped.move
    cases move with
    | swaps stage =>
      simp only [List.mem_singleton, Entry.recreated.injEq] at recreated
      obtain ⟨rfl, target, -, -, same⟩ := recreated
      obtain ⟨kept, saved⟩ := Option.ne_none_iff_exists'.mp present
      rw [same, ← target]
      simp [UpdateDir.override, saved]
    | rollsBack kept left stage saved =>
      simp only [List.mem_singleton, Entry.recreated.injEq] at recreated
      obtain ⟨rfl, -, -, -, rfl⟩ := recreated
      exact saved
    | _ => simp at recreated
  · simp only [dirs']
    intro other member
    rcases stepped.host with stays | ⟨stage, -, goes⟩
    · rw [stays, stepped.move.helpers] at member
      exact pinned.helpers other member
    · rw [goes] at member
      rcases List.mem_or_eq_of_mem_set member with old | rfl
      · exact pinned.helpers other (stepped.move.helpers ▸ old)
      · exact present

theorem Pinned.acts (staged : Staged ((Box.fresh host).run events))
    (swaps : Swaps ((Box.fresh host).run events)) {i : ℕ} {answer : Answer} {task : Task}
    (current : ((Box.fresh host).run events).tasks[i]? = some task)
    (after' : ((Box.fresh host).run events).step (.advance i answer) =
      { ((Box.fresh host).run events).perform i (task.react ((Box.fresh host).run events).table
          ((Box.fresh host).run events).host ((Box.fresh host).run events).applyNowInFlight
          ((Box.fresh host).run events).now answer) with
        now := ((Box.fresh host).run events).now + 1 }) :
    Pinned host (events ++ [.advance i answer]) := by
  have calls := Box.added_cases ((Box.fresh host).run events) task answer
  refine pinned.extend after'.symm _ (Box.perform_trace _ i _) ?_ ?_ ?_ ?_
  · intro j next found stage
    rcases set_cases found with ⟨-, same⟩ | ⟨-, old⟩
    · have floor := Task.floorKept ((Box.fresh host).run events).table
        ((Box.fresh host).run events).host ((Box.fresh host).run events).applyNowInFlight
        ((Box.fresh host).run events).now task answer
      rcases floor.runs next same.symm with ⟨work, rfl, -⟩ | ⟨-, early, -⟩
      · rcases Run.reaches_pin same.symm stage with rfl | ⟨refs, rfl⟩
        · exact (pinned.looked i next current stage).mono _
        · exact swaps.ran_before staged current refs _
      · rw [stage] at early
        rcases early with early | early <;> cases early
    · exact (pinned.looked j next old stage).mono _
  · intro row pins found
    rcases calls with ⟨idle, -⟩ | ⟨calls, -, -⟩
    · simp only [Box.perform, idle] at found
      exact pinned.previous row pins found
    · rcases calls.previous found with old | ⟨work, rfl, stage, rfl, same⟩
      · exact pinned.previous row pins old
      · obtain ⟨known, release⟩ := staged.known i work current
        refine ⟨known, work.refs, pinned.looked i work current stage, ?_⟩
        rw [same]
        unfold Box.manifest Run.manifest
        rw [release]
  · intro row status running pins found
    rcases calls with ⟨-, none⟩ | ⟨calls, -, entries⟩
    · rcases none _ found with noted | ⟨change, -, same⟩
      · cases noted
      · cases same
    · rw [entries] at found
      exact pinned.previous row pins (calls.rollback_pins found)
  · rcases calls with ⟨idle, -⟩ | ⟨calls, -, -⟩
    · simp only [Box.perform, idle]
      exact pinned.helpers
    · exact calls.helpers_pinned pinned.helpers

theorem Pinned.step (staged : Staged ((Box.fresh host).run events))
    (swaps : Swaps ((Box.fresh host).run events)) (event : Event) : Pinned host (events ++ [event]) := by
  have moved := ((Box.fresh host).run events).step_moved event
  generalize after' : ((Box.fresh host).run events).step event = after at moved
  cases moved with
  | still => exact pinned.quiet after' rfl rfl pinned.helpers fun _ _ found _ => found
  | spawns _ _ spawns => exact pinned.spawns spawns after'
  | dies => exact pinned.quiet after' rfl rfl pinned.helpers (by simp [Box.die])
  | boots =>
    refine pinned.quiet after' rfl rfl pinned.helpers ?_
    intro j work found
    rcases Box.boot_cases ((Box.fresh host).run events) with ⟨tasks, -⟩ | ⟨id, -, tasks⟩
    all_goals
      simp only [tasks] at found
      cases (singleton_cases found).2
  | helperDies i helper found =>
    refine pinned.quiet after' rfl rfl ?_ fun _ _ found _ => found
    intro other member
    rcases List.mem_or_eq_of_mem_set member with old | rfl
    · exact pinned.helpers other old
    · exact pinned.helpers helper (List.mem_of_getElem? found)
  | acts i answer task current => exact pinned.acts staged swaps current after'
  | helps i answer helper found => exact pinned.helps found after'

end

theorem Box.step_trace (box : Box) (event : Event) : ∃ entries, (box.step event).trace = entries ++ box.trace := by
  have moved := box.step_moved event
  generalize box.step event = after at moved
  cases moved with
  | acts i answer task current => exact ⟨_, Box.perform_trace box i _⟩
  | helps i answer helper found =>
    obtain ⟨host, entries, stepped⟩ := helperStep_stepped box i helper answer
    exact ⟨entries, stepped.trace⟩
  | _ => exact ⟨[], rfl⟩

/-- A committed row has reached its status in the trace. -/
def Box.Recorded (box : Box) : Prop :=
  ∀ row, (box.table.row row).status = .committed →
    ∃ boot tree, .reached row .committed boot tree ∈ box.trace

theorem Box.Recorded.step {box : Box} (recorded : box.Recorded) (event : Event) : (box.step event).Recorded := by
  intro row after
  by_cases before : (box.table.row row).status = .committed
  · obtain ⟨boot, tree, found⟩ := recorded row before
    obtain ⟨entries, trace⟩ := box.step_trace event
    exact ⟨boot, tree, trace ▸ List.mem_append_right entries found⟩
  · refine ⟨box.boots, box.host.tree, ?_⟩
    have moved := box.step_moved event
    generalize box.step event = next at moved after
    cases moved with
    | acts i answer task current =>
      rw [show _ = _ from Box.perform_trace box i _]
      refine List.mem_append_left _ (List.mem_append_right _ ?_)
      change (((box.react task answer).db.apply box.table
        box.now).row row).status = .committed at after
      generalize (box.react task answer).db = write
        at after ⊢
      have did := DbWrite.apply_did box.table box.now row write
      generalize (write.apply box.table box.now).row row = changed at did after
      cases did with
      | advances target reason outcome =>
        have committed : target = .committed := after
        subst committed
        simp [DbWrite.changes]
      | supersedes | creates => cases after
      | _ => exact absurd after before
    | helps i answer helper found =>
      rw [show _ = _ from (helperStep_cases box i helper answer).1] at after
      exact absurd after before
    | boots =>
      exact absurd ((clearClaims_row box.table box.now row).1 ▸ after) before
    | _ => exact absurd after before

theorem Box.Recorded.fresh (host : Host) : (Box.fresh host).Recorded := by
  simp [Box.Recorded, Box.fresh, Table.empty, Row.absent]

/-- Everything there is to say about a run of the box, whatever happens. -/
structure Swapping (host : Host) (events : List Event) : Prop where
  claimed : Claimed ((Box.fresh host).run events)
  staged : Staged ((Box.fresh host).run events)
  targeted : ((Box.fresh host).run events).Targeted
  swaps : Swaps ((Box.fresh host).run events)
  evidence : Evidence ((Box.fresh host).run events)
  recorded : ((Box.fresh host).run events).Recorded
  pinned : Pinned host events

theorem Swapping.run (host : Host) (events : List Event) : Swapping host events := by
  induction events using List.reverseRecOn with
  | nil =>
    exact ⟨Claimed.fresh host, Staged.fresh host, by simp [Box.Targeted, Box.run, Box.fresh],
      Swaps.fresh host, Evidence.fresh host, Box.Recorded.fresh host, Pinned.fresh host⟩
  | append_singleton events event ih =>
    have pinned := ih.pinned.step ih.staged ih.swaps event
    constructor
    · rw [run_snoc]
      exact ih.claimed.step event
    · rw [run_snoc]
      exact ih.staged.step ih.claimed event
    · rw [run_snoc]
      exact ih.targeted.step event
    · rw [run_snoc]
      exact ih.swaps.step ih.claimed ih.staged event
    · rw [run_snoc]
      exact ih.evidence.step ih.claimed ih.targeted event
    · rw [run_snoc]
      exact ih.recorded.step event
    · exact pinned

theorem InTime.run (host : Host) (events : List Event)
    (along : Box.along Box.swapsBeforeBoot (Box.fresh host) events) : InTime ((Box.fresh host).run events) := by
  induction events using List.reverseRecOn with
  | nil => exact InTime.fresh host
  | append_singleton events event ih =>
    rw [Box.along_append, Bool.and_eq_true] at along
    have before := Swapping.run host events
    have meets : ((Box.fresh host).run events).swapsBeforeBoot event := by
      simpa [Box.along] using along.2
    rw [run_snoc]
    exact (ih along.1).step before.claimed before.staged before.swaps meets

/-- Along every run in which no boot comes between the launch of a release helper and its swap:
services are put on the release only while its row is `applying`, and never for a row that did not get
there; no snapshot of a row follows such a recreate, and every rollback pins what ran before the first
one; and a row is committed by a boot that found the orchestrator of the release running and every
deployed service healthy. -/
theorem swap_is_crash_safe (host : Host) (events : List Event)
    (along : Box.along Box.swapsBeforeBoot (Box.fresh host) events) :
    let box := (Box.fresh host).run events
    (∀ row status running pins, .recreated row .release status running pins ∈ box.trace →
        status = .applying) ∧
      (∀ row, (box.table.row row).status ∈
          [Status.pending, .verifying, .rejected, .superseded] →
        ∀ status running pins, .recreated row .release status running pins ∉ box.trace) ∧
      box.trace.Pairwise SnapshotFirst ∧
      (∀ row status running pins, .recreated row .previous status running pins ∈ box.trace →
        PinsRanBefore host events row pins) ∧
      (∀ row boot tree, .reached row .committed boot tree ∈ box.trace →
        ∃ refs, Proved box.trace (box.manifest row) boot row refs) ∧
      ∀ row, (box.table.row row).status = .committed →
        ∃ boot tree, .reached row .committed boot tree ∈ box.trace := by
  intro box
  have swapping := Swapping.run host events
  refine ⟨(InTime.run host events along).recreated, ?_, swapping.swaps.snapshots,
    swapping.pinned.used, ?_, swapping.recorded⟩
  · intro row early status running pins found
    have swapped := (swapping.swaps.released row status running pins found).2
    simp only [List.mem_cons, List.not_mem_nil, or_false] at early
    rcases early with early | early | early | early <;>
      (rw [early] at swapped; cases swapped)
  · intro row boot tree found
    exact (swapping.evidence.committed row boot tree found).2

theorem in_turn_swaps_in_time :
    Box.along Box.swapsBeforeBoot (Box.fresh bareHost) inTurn ∧
      ∀ row status running pins, .recreated row .release status running pins ∈
        ((Box.fresh bareHost).run inTurn).trace → status = .applying := by
  have along : Box.along Box.swapsBeforeBoot (Box.fresh bareHost) inTurn := by decide +kernel
  exact ⟨along, (swap_is_crash_safe bareHost inTurn along).1⟩

/-- The process restarts before the helper has swapped: the boot finds the old orchestrator healthy
and writes `rolled_back`, and then the helper swaps. -/
def lateSwap : List Event :=
  [.boot] ++ answers 0 [.done] ++ polled 1 (sharedRelease "a" 1) ++ handedOff 2 ++ [.crash] ++
    judged ++ answers 0 [.done] ++ [.helper 0 .done]

def Entry.late : Entry → Bool
  | .recreated _ .release status _ _ => status ≠ .applying
  | _ => false

theorem late_swap_is_not_applying :
    ¬∀ row status running pins, .recreated row .release status running pins ∈
      ((Box.fresh bareHost).run lateSwap).trace → status = .applying := by
  intro inTime
  have late : ((Box.fresh bareHost).run lateSwap).trace.any Entry.late := by decide
  obtain ⟨entry, found, late⟩ := List.any_eq_true.mp late
  unfold Entry.late at late
  split at late
  · simp only [ne_eq, decide_not, Bool.not_eq_true', decide_eq_false_iff_not] at late
    exact late (inTime _ _ _ _ found)
  · cases late

end Droplet.Update
