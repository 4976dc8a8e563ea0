import Droplet.Filing.TakenBack
import Droplet.Filing.Within

/-! The steps of a tick that apply a proposal and mark it, and the bound over every run that loses no mark. -/

namespace Droplet.Filing

variable {reading : Reading} {limits : Limits} {box : Box}

theorem spent_append (box : Box) (applied : UnattendedApply) (budget : Budget) :
    ({ box with applies := box.applies ++ [applied] } : Box).spent budget =
      box.spent budget ++ if budget.covers applied.kind then [applied.appliedAt] else [] := by
  unfold Box.spent
  rw [List.filter_append, List.map_append]
  by_cases covered : budget.covers applied.kind = true <;> simp [covered]

variable {activity : Activity}

theorem Within.counts_none (within : Within limits box) {n : ℕ}
    (live : box.world.activities[n]? = some (some activity))
    (ofTick : activity.position.ofTick = true) : box.counting = none := by
  by_contra counts
  have idle := ticking_false (within.alone counts) live
  rw [ofTick] at idle
  cases idle

theorem Within.others (within : Within limits box) {n m : ℕ} {activity other : Activity}
    (live : box.world.activities[n]? = some (some activity)) (ofTick : activity.position.ofTick = true)
    (there : box.world.activities[m]? = some (some other)) (apart : m ≠ n) :
    ∃ stage, other.position = .calls stage none := by
  have human : other.position.ofTick = false := by
    rw [Bool.eq_false_iff]
    intro second
    exact apart (within.one n m activity other live there ofTick second).symm
  cases place : other.position with
  | calls stage tick =>
    rw [place] at human
    cases tick with
    | none => exact ⟨stage, rfl⟩
    | some tick => cases human
  | works stage =>
    rw [place] at human
    cases human

variable {new : Option Activity}

theorem one_set (within : Within limits box) {n : ℕ}
    {activities : List (Option Activity)} (live : box.world.activities[n]? = some (some activity))
    (ofTick : activity.position.ofTick = true) (set_ : activities = box.world.activities.set n new) :
    ∀ (m k : ℕ) first second, activities[m]? = some (some first) →
      activities[k]? = some (some second) → first.position.ofTick = true →
        second.position.ofTick = true → m = k := by
  have here {m : ℕ} {a : Activity} (found : activities[m]? = some (some a))
      (did : a.position.ofTick = true) : m = n := by
    rw [set_] at found
    rcases Places.set_cases found with ⟨same, _⟩ | ⟨_, there⟩
    · exact same
    · exact within.one m n a activity there live did ofTick
  intro m k first second found found' did did'
  exact (here found did).trans (here found' did').symm

variable {what : Happened} {n ended : ℕ} {stage : CallStage} {tick : Tick} {db : Db} {answer : Answer}

theorem Within.applies (within : Within limits box)
    (now : answer.now = box.now)
    (live : box.world.activities[n]? = some (some ⟨ended, .calls stage (some tick)⟩))
    (runs : serve reading box.world.db answer stage = .ok (.returns db what)) :
    Within limits { box with
      world := (box.world.record (some (n, ended)) what db).setActivity n (afterReturn ended (some tick))
      applies := box.applies ++ [⟨box.now, tick.current.1, tick.current.2⟩] } := by
  obtain ⟨tracks, queued, free, applies⟩ := within.held n _ live
  obtain ⟨-, row, later, found, pending, there, is_, kind, instant⟩ := serve_returns_applies applies runs
  rw [now] at instant
  have spends : AllSpend box.world.db db := fun id => serve_spends runs
  have ofKind : row.kind = tick.current.2 := by
    obtain ⟨again, found', kind'⟩ := queued tick.current (.head _)
    cases Option.some_inj.mp (found.symm.trans found')
    exact kind'
  have none_ := within.counts_none live rfl
  obtain ⟨start, before, counted⟩ := tracks.counted
  set applied : UnattendedApply := ⟨box.now, tick.current.1, tick.current.2⟩ with applied_is
  set next : Box := { box with
    world := (box.world.record (some (n, ended)) what db).setActivity n (afterReturn ended (some tick))
    applies := box.applies ++ [applied] } with next_is
  have spent (budget : Budget) : next.spent budget =
      box.spent budget ++ if budget.covers tick.current.2 then [box.now] else [] :=
    spent_append box applied budget
  have activities : next.world.activities =
      box.world.activities.set n (some ⟨ended + 1, .works (.mark tick)⟩) := rfl
  have marks : next.Marking n tick.current.1 := by
    refine ⟨ended + 1, tick, ?_, rfl⟩
    rw [activities, List.getElem?_set_self (List.getElem?_eq_some_iff.mp live).1]
  refine ⟨within.unmarked.spends spends, ?_, ?_, one_set within live rfl activities, ?_, ?_, ?_, ?_⟩
  · intro entry member
    rcases List.mem_append.mp member with earlier | last
    · obtain ⟨row', found', was, kind', instant', mark⟩ := within.logged entry earlier
      obtain ⟨now_, there', still, same, at_, kept⟩ := logged_spends spends found' was kind' instant'
      refine ⟨now_, there', still, same, at_, ?_⟩
      rcases mark with marked | ⟨m, ended', tick', place, current⟩
      · exact .inl (kept.trans marked)
      · refine .inr ⟨m, ended', tick', ?_, current⟩
        rw [activities, List.getElem?_set_ne, place]
        intro here
        rw [← here, live] at place
        cases place
    · rw [List.mem_singleton.mp last]
      exact ⟨later, there, by simp [is_], kind.trans ofKind, instant, .inr ⟨n, marks⟩⟩
  · rw [next_is, List.map_append, List.nodup_append]
    refine ⟨within.distinct, List.nodup_singleton _, ?_⟩
    intro id member other last same
    obtain ⟨entry, earlier, rfl⟩ := List.mem_map.mp member
    obtain ⟨row', found', was, -⟩ := within.logged entry earlier
    rw [same, List.mem_singleton.mp last] at found'
    cases Option.some_inj.mp (found.symm.trans found')
    exact was pending
  · intro counts
    exact absurd none_ counts
  · intro counting counts
    exact absurd (none_.symm.trans counts) (by simp)
  · intro m a place
    rw [activities] at place
    rcases Places.set_cases place with ⟨_, new⟩ | ⟨apart, was⟩
    · rw [Option.some_inj.mp new]
      refine ⟨⟨tracks.fits, start, before, ?_⟩, queued.spends spends, applied,
        List.mem_append_right _ (List.mem_singleton_self _), rfl⟩
      intro budget
      have room := counted budget
      simp only [Option.any_none, Bool.false_eq_true, if_false, add_zero] at room
      rw [spent, Option.any_some]
      by_cases covered : budget.covers tick.current.2 = true
      · simp only [covered, if_true]
        rw [Windows.since_append]
        split <;> omega
      · simp only [covered, Bool.false_eq_true, if_false, List.append_nil]
        omega
    · obtain ⟨stage', human⟩ := within.others live rfl was apart
      rw [human]
      trivial
  · intro budget
    rw [spent]
    by_cases covered : budget.covers tick.current.2 = true
    · simp only [covered, if_true]
      apply (within.bounded budget).append
      have room := tracks.fits.room free covered
      have recent : Windows.since (box.spent budget) (box.now - budget.width) ≤
          Windows.since (box.spent budget) (start - budget.width) :=
        Windows.since_anti (sub_le_sub_right before _)
      have counts := counted budget
      simp only [Option.any_none, Bool.false_eq_true, if_false, add_zero] at counts
      omega
    · simp only [covered, Bool.false_eq_true, if_false, List.append_nil]
      exact within.bounded budget

theorem Within.marks (within : Within limits box)
    (live : box.world.activities[n]? = some (some ⟨ended, .works (.mark tick)⟩)) :
    Within limits { box with
      world := (box.world.record none .other (work box.world.db ended (.mark tick)).1).setActivity n
        (work box.world.db ended (.mark tick)).2 } := by
  obtain ⟨tracks, queued, applied, logged, current⟩ := within.held n _ live
  obtain ⟨start, before, counted⟩ := tracks.counted
  have none_ := within.counts_none live rfl
  set next : Box := { box with
    world := (box.world.record none .other (work box.world.db ended (.mark tick)).1).setActivity n
      (work box.world.db ended (.mark tick)).2 } with next_is
  have get (id : RowId) : next.world.db.proposals.get id = (box.world.db.proposals.get id).map fun row =>
      if id = tick.current.1 then { row with autoApplied := true } else row := updateProposal_get _
  have activities : next.world.activities =
      box.world.activities.set n (work box.world.db ended (.mark tick)).2 := rfl
  have later_queued : Queued next.world.db tick.rest := by
    intro entry member
    obtain ⟨row, found, kind⟩ := queued entry (.tail _ member)
    refine ⟨_, by rw [get, found, Option.map_some], ?_⟩
    split <;> exact kind
  refine ⟨?_, ?_, within.distinct, one_set within live rfl activities, ?_, ?_, ?_, within.bounded⟩
  · intro id row found pending
    rw [get, Option.map_eq_some_iff] at found
    obtain ⟨old, was, same⟩ := found
    split at same
    · rename_i here
      obtain ⟨known, found', decided, -⟩ := within.logged applied logged
      rw [current, ← here, was] at found'
      rw [← same] at pending
      exact absurd pending (Option.some_inj.mp found' ▸ decided)
    · rw [← same] at pending ⊢
      exact within.unmarked id old was pending
  · intro entry member
    obtain ⟨row, found, was, kind, instant, mark⟩ := within.logged entry member
    rw [get, found, Option.map_some]
    by_cases here : entry.id = tick.current.1
    · rw [if_pos here]
      exact ⟨_, rfl, was, kind, instant, .inl rfl⟩
    · rw [if_neg here]
      refine ⟨row, rfl, was, kind, instant, ?_⟩
      rcases mark with marked | ⟨m, ended', tick', place, current'⟩
      · exact .inl marked
      · refine .inr ⟨m, ended', tick', ?_, current'⟩
        rw [activities, List.getElem?_set_ne, place]
        intro same
        rw [← same, live] at place
        cases place
        exact here current'.symm
  · intro counts
    exact absurd none_ counts
  · intro counting counts
    exact absurd (none_.symm.trans counts) (by simp)
  · intro m a place
    rw [activities] at place
    rcases Places.set_cases place with ⟨_, new⟩ | ⟨apart, was⟩
    · have tracks' : Tracks limits next (tick.caps.spend tick.current.2) none := by
        refine ⟨tracks.fits.spend _, start, before, ?_⟩
        intro budget
        have counts := counted budget
        have same : next.spent budget = box.spent budget := rfl
        rw [same, spend_count]
        simpa using counts
      exact @proceed_within limits next a { tick with caps := tick.caps.spend tick.current.2 } ended tracks'
        later_queued new.symm
    · obtain ⟨stage', human⟩ := within.others live rfl was apart
      rw [human]
      trivial

variable {call : Option (ℕ × ℕ)}

theorem Idle.recorded {n : ℕ} (spends : AllSpend box.world.db db) :
    Idle box { box with world := (box.world.record call what db).setActivity n new } :=
  ⟨le_refl _, rfl, spends⟩

theorem Within.ends (within : Within limits box) {n : ℕ} (live : box.world.activities[n]? = some (some activity))
    (unmarking : ∀ tick, activity.position ≠ .works (.mark tick)) (spends : AllSpend box.world.db db) :
    Within limits { box with world := (box.world.record call what db).setActivity n none } :=
  within.set (.recorded spends) live unmarking rfl rfl (fun _ next => by cases next)
    fun _ next => by cases next

theorem Within.throws (within : Within limits box) {failure : Failure}
    (live : box.world.activities[n]? = some (some ⟨ended, .calls stage (some tick)⟩)) :
    Within limits { box with
      world := (box.world.record call what box.world.db).setActivity n
        (afterThrow ended failure (some tick)) } := by
  have nothing : AllSpend box.world.db box.world.db := fun id => .refl _
  have holds := within.held n _ live
  generalize gone : afterThrow ended failure (some tick) = new
  have idle : Idle box { box with world := (box.world.record call what box.world.db).setActivity n new } :=
    .recorded nothing
  refine within.set idle live (by simp) rfl rfl (fun _ _ _ => rfl) ?_
  intro a next
  exact (afterThrow_within (holds.idle idle) (gone.trans next)).1

theorem Within.serves (within : Within limits box) (n : ℕ)
    (now : answer.now = box.now) : Within limits (box.serves reading n answer) := by
  simp only [Box.serves, Box.step_, World.appliesNow, World.step]
  cases live : box.world.activities[n]? with
  | none =>
    simp only [Option.map_none, Option.toList_none, List.append_nil]
    exact within
  | some activity =>
  cases activity with
  | none =>
    simp only [Option.map_none, Option.toList_none, List.append_nil]
    exact within
  | some activity =>
  obtain ⟨ended, position⟩ := activity
  simp only [World.serves]
  cases position with
  | works stage =>
    simp only [Option.map_none, Option.toList_none, List.append_nil]
    by_cases mark : ∃ tick, stage = .mark tick
    · obtain ⟨tick, rfl⟩ := mark
      exact within.marks live
    have unmarked (tick : Tick) : stage ≠ .mark tick := fun same => mark ⟨tick, same⟩
    have spends : AllSpend box.world.db (work box.world.db ended stage).1 := fun id => work_spends unmarked
    refine within.set (.recorded spends) live ?_ rfl rfl (fun _ _ _ => rfl) ?_
    · intro tick same
      exact unmarked tick (Position.works.inj same)
    · intro a next
      have holds := within.held n _ live
      cases stage with
      | held actorId caps =>
        have tracks : Tracks limits box caps none := holds
        have after_ : ∃ stage, a = ⟨ended, .works stage⟩ ∧
            (stage = .ready actorId caps ∨ ∃ ids, stage = .free actorId caps ids) := by
          rw [work] at next
          split at next
          · exact ⟨_, (Option.some.inj next).symm, .inl rfl⟩
          · exact ⟨_, (Option.some.inj next).symm, .inr ⟨_, rfl⟩⟩
        obtain ⟨later, rfl, rfl | ⟨ids, rfl⟩⟩ := after_
        all_goals exact tracks.idle (Idle.recorded spends)
      | free actorId caps ids =>
        rw [← Option.some.inj next]
        exact holds.idle (Idle.recorded spends)
      | ready actorId caps =>
        simp only [work, Option.map_eq_some_iff] at next
        obtain ⟨position, found, rfl⟩ := next
        exact nextApply_within (Tracks.idle (Idle.recorded spends) holds) (readyIds_queued _) found
      | mark tick => exact absurd rfl (unmarked tick)
  | calls stage tick =>
    have holds := within.held n _ live
    dsimp only
    cases runs : serve reading box.world.db answer stage with
    | error failure =>
      cases tick with
      | none =>
        simp only [Option.map_none, Option.toList_none, List.append_nil]
        exact within.ends live (by simp) fun id => .refl _
      | some tick =>
        simp only [runs, Option.map_none, Option.toList_none, List.append_nil]
        exact within.throws live
    | ok progress =>
    cases progress with
    | goes later =>
      have nothing : AllSpend box.world.db box.world.db := fun id => .refl _
      cases tick with
      | none =>
        simp only [Option.map_none, Option.toList_none, List.append_nil]
        refine within.set (.recorded nothing) live (by simp) rfl rfl ?_ ?_
        · intro a next did
          rw [← Option.some.inj next] at did
          exact did
        · intro a next
          rw [← Option.some.inj next]
          trivial
      | some tick =>
        simp only [runs, Option.map_none, Option.toList_none, List.append_nil]
        refine within.set (.recorded nothing) live (by simp) rfl rfl (fun _ _ _ => rfl) ?_
        intro a next
        rw [← Option.some.inj next]
        obtain ⟨tracks, queued, free, applies⟩ := holds
        exact ⟨tracks.idle (Idle.recorded nothing), queued, free, serve_goes_applies applies runs⟩
    | returns db what =>
      cases tick with
      | none =>
        simp only [Option.map_none, Option.toList_none, List.append_nil]
        exact within.ends live (by simp) fun id => serve_spends runs
      | some tick =>
        obtain ⟨rfl, -⟩ := serve_returns_applies holds.2.2.2 runs
        simp only [runs, Option.map_some, Option.toList_some]
        exact within.applies now live runs

/-- Activity `n` has applied a proposal that it has yet to mark. -/
def World.marks (world : World) (n : ℕ) : Bool :=
  match world.activities[n]? with
  | some (some ⟨_, .works (.mark _)⟩) => true
  | _ => false

/-- No crash and no failure comes between an apply of the worker and its mark. -/
def Box.KeepsMarks (box : Box) : BoxEvent → Prop
  | .fails n => box.world.marks n = false
  | .crashes => ∀ n, box.world.marks n = false
  | _ => True

theorem not_marking {n : ℕ} (unmarked : box.world.marks n = false) (id : RowId) : ¬ box.Marking n id := by
  intro marking
  obtain ⟨ended, tick, there, _⟩ := marking
  rw [World.marks, there] at unmarked
  cases unmarked

theorem count_covers (within : Within limits box) (idle : box.world.ticking = false) (budget : Budget)
    (since_ : Instant) : Windows.since (box.spent budget) since_ ≤
      countSince box.world.db since_ budget.covers := by
  have counted (applied : UnattendedApply) (member : applied ∈ box.applies)
      (covered : budget.covers applied.kind = true) (recent : since_ ≤ applied.appliedAt) :
      applied.id ∈ foundIds box.world.db (countedSince since_ budget.covers) := by
    obtain ⟨row, found, _, kind, instant, mark⟩ := within.logged applied member
    have marked : row.autoApplied = true := by
      rcases mark with marked | ⟨n, ended, tick, there, _⟩
      · exact marked
      · have none_ := ticking_false idle there
        cases none_
    rw [mem_foundIds, found, Option.any_some]
    simp [countedSince, marked, kind, covered, instant, recent]
  have ids : Windows.since (box.spent budget) since_ = ((box.applies.filter fun applied =>
      budget.covers applied.kind && decide (since_ ≤ applied.appliedAt)).map
        UnattendedApply.id).length := by
    rw [Windows.since, Box.spent, List.countP_map, List.countP_filter, List.length_map,
      ← List.countP_eq_length_filter]
    apply List.countP_congr
    intro applied _
    simp [and_comm]
  rw [ids, countSince_eq]
  apply List.Subperm.length_le
  apply List.Nodup.subperm
  · exact within.distinct.sublist (List.filter_sublist.map _)
  · intro id member
    obtain ⟨applied, kept, rfl⟩ := List.mem_map.mp member
    obtain ⟨there, holds⟩ := List.mem_filter.mp kept
    obtain ⟨covered, recent⟩ := Bool.and_eq_true_iff.mp holds
    exact counted applied there covered (of_decide_eq_true recent)

theorem marking_append {after : Box} {n : ℕ} {id : RowId}
    (activities : after.world.activities = box.world.activities ++ [new]) (marking : box.Marking n id) :
    after.Marking n id := by
  obtain ⟨ended, tick, there, current⟩ := marking
  refine ⟨ended, tick, ?_, current⟩
  rw [activities]
  exact (List.getElem?_append_left (List.getElem?_eq_some_iff.mp there).1).trans there

section

variable (within : Within limits box)
include within

theorem Within.calls (call : Call) : Within limits (box.step reading limits (.calls call)) := by
  refine ⟨within.unmarked, ?_, within.distinct, ?_, ?_, within.counting, ?_, within.bounded⟩
  · intro applied member
    obtain ⟨row, found, was, kind, instant, mark⟩ := within.logged applied member
    exact ⟨row, found, was, kind, instant, mark.imp_right fun ⟨n, marking⟩ => ⟨n, marking_append rfl marking⟩⟩
  · intro n m first second found found' did did'
    rcases Places.append_cases found with ⟨_, new⟩ | before
    · rw [Option.some_inj.mp new] at did
      cases did
    rcases Places.append_cases found' with ⟨_, new⟩ | before'
    · rw [Option.some_inj.mp new] at did'
      cases did'
    exact within.one n m first second before before' did did'
  · intro counts
    have idle := within.alone counts
    apply ticking_of_forall
    intro n activity found
    rcases Places.append_cases found with ⟨_, new⟩ | before
    · rw [Option.some_inj.mp new]
      rfl
    · exact ticking_false idle before
  · intro n activity found
    rcases Places.append_cases found with ⟨_, new⟩ | before
    · rw [Option.some_inj.mp new]
      trivial
    · have idle : Idle box (box.step reading limits (.calls call)) := ⟨le_refl _, rfl, fun id => .refl _⟩
      exact (within.held n activity before).idle idle

theorem Within.fails {n : ℕ} (keeps : box.world.marks n = false) :
    Within limits (box.step reading limits (.fails n)) := by
  have nothing : AllSpend box.world.db box.world.db := fun id => .refl _
  rw [Box.step, Box.step_, World.step]
  split
  swap
  · exact within
  rename_i activity live
  obtain ⟨ended, position⟩ := activity
  have unmarking (tick : Tick) : position ≠ .works (.mark tick) := by
    rintro rfl
    rw [World.marks, live] at keeps
    cases keeps
  cases position with
  | works stage =>
    exact within.set ⟨le_refl _, rfl, nothing⟩ live unmarking rfl rfl
      (fun _ next => by cases next) fun _ next => by cases next
  | calls stage tick =>
    cases tick with
    | none => exact within.ends live unmarking nothing
    | some tick => exact within.throws live

theorem Within.proposes (id : RowId) (proposal : IngestProposal) :
    Within limits (box.step reading limits (.proposes id proposal)) := by
  rw [Box.step, Box.step_, World.step]
  split
  swap
  · exact within
  rename_i proposals made
  refine within.same ⟨le_refl _, rfl, ?_⟩ rfl rfl
  intro other
  obtain ⟨free, get⟩ := Table.create_some made
  have gets : (box.world.record none .other { box.world.db with proposals := proposals }).db.proposals.get
      other = proposals.get other := rfl
  rw [gets, get]
  split
  · rename_i same
    rw [same, free]
    exact .proposed _ rfl rfl
  · exact .refl _

theorem Within.counted (actorId : RowId) : Within limits (box.step reading limits (.counted actorId)) := by
  rw [Box.step]
  split
  swap
  · exact within
  rename_i caps come
  obtain ⟨counting, was, caps_⟩ := Option.bind_eq_some_iff.mp come
  obtain ⟨fits, hour, day⟩ := caps_fits caps_
  have idle := within.alone (by simp [was])
  obtain ⟨before, hours, days⟩ := within.counting counting was
  have tracks : Tracks limits box caps none := by
    refine ⟨fits, counting.now, before, ?_⟩
    intro budget
    cases budget with
    | hourly => exact hours _ hour
    | daily => exact days _ day
  refine ⟨within.unmarked, ?_, within.distinct, ?_, fun counts => absurd rfl counts, (by simp), ?_,
    within.bounded⟩
  · intro applied member
    obtain ⟨row, found, was, kind, instant, mark⟩ := within.logged applied member
    exact ⟨row, found, was, kind, instant, mark.imp_right fun ⟨n, marking⟩ => ⟨n, marking_append rfl marking⟩⟩
  · intro n m first second found found' did did'
    rcases Places.append_cases found with ⟨here, _⟩ | earlier
    swap
    · rw [ticking_false idle earlier] at did
      cases did
    rcases Places.append_cases found' with ⟨here', _⟩ | earlier
    swap
    · rw [ticking_false idle earlier] at did'
      cases did'
    exact here.trans here'.symm
  · intro n activity found
    have idle_ : Idle box { box.step_ reading (.ticks actorId caps) with counting := none } :=
      ⟨le_refl _, rfl, fun id => .refl _⟩
    rcases Places.append_cases found with ⟨_, new⟩ | earlier
    · rw [Option.some_inj.mp new]
      exact tracks.idle idle_
    · exact (within.held n activity earlier).idle idle_

theorem Within.crashes (keeps : ∀ n, box.world.marks n = false) :
    Within limits (box.step reading limits .crashes) := by
  have dead (n : ℕ) (activity : Activity) : ¬ (box.world.activities.map fun _ => none)[n]? =
      some (some activity) := by
    rw [List.getElem?_map]
    cases box.world.activities[n]? <;> simp
  refine ⟨within.unmarked, ?_, within.distinct, ?_, fun counts => absurd rfl counts, (by rintro _ ⟨⟩), ?_,
    within.bounded⟩
  · intro applied member
    obtain ⟨row, found, was, kind, instant, mark⟩ := within.logged applied member
    refine ⟨row, found, was, kind, instant, .inl ?_⟩
    rcases mark with marked | ⟨n, marking⟩
    · exact marked
    · exact absurd marking (not_marking (keeps n) _)
  · intro n m first second found
    exact absurd found (dead n first)
  · intro n activity found
    exact absurd found (dead n activity)

theorem Within.step (event : BoxEvent) (keeps : box.KeepsMarks event) :
    Within limits (box.step reading limits event) := by
  have nothing : AllSpend box.world.db box.world.db := fun id => .refl _
  have sweeping (n : ℕ) (go : Sweep → Sweep) : Within limits (box.sweeping n go) :=
    within.same ⟨le_refl _, rfl, nothing⟩ rfl rfl
  cases event with
  | passes ms =>
    have later : box.now ≤ box.now + (ms : ℤ) := Int.le_add_of_nonneg_right (Int.natCast_nonneg ms)
    exact within.same ⟨later, rfl, nothing⟩ rfl rfl
  | calls call => exact within.calls call
  | serves n ids resolved => exact within.serves n rfl
  | fails n => exact within.fails keeps
  | proposes id proposal => exact within.proposes id proposal
  | elsewhere | sweep => exact within.same ⟨le_refl _, rfl, nothing⟩ rfl rfl
  | tick =>
    rw [Box.step]
    split
    · exact within
    rename_i free
    simp only [Bool.or_eq_true, not_or, Bool.not_eq_true] at free
    refine within.still ⟨le_refl _, rfl, nothing⟩ rfl ?_ fun _ => free.1
    intro counting found
    cases found
    exact ⟨le_refl _, (by simp), (by simp)⟩
  | countHour =>
    refine within.still ⟨le_refl _, rfl, nothing⟩ rfl ?_ ?_
    · intro counting found
      obtain ⟨before, was, rfl⟩ := Option.map_eq_some_iff.mp found
      obtain ⟨earlier, _, day⟩ := within.counting before was
      refine ⟨earlier, ?_, day⟩
      intro k counts
      have idle := within.alone (by simp [was])
      rw [← Option.some_inj.mp counts]
      exact count_covers within idle .hourly _
    · intro counts
      apply within.alone
      intro none_
      exact counts (by rw [Box.step, none_, Option.map_none])
  | countDay =>
    refine within.still ⟨le_refl _, rfl, nothing⟩ rfl ?_ ?_
    · intro counting found
      obtain ⟨before, was, rfl⟩ := Option.map_eq_some_iff.mp found
      obtain ⟨earlier, hour, _⟩ := within.counting before was
      refine ⟨earlier, hour, ?_⟩
      intro k counts
      have idle := within.alone (by simp [was])
      rw [← Option.some_inj.mp counts]
      exact count_covers within idle .daily _
    · intro counts
      apply within.alone
      intro none_
      exact counts (by rw [Box.step, none_, Option.map_none])
  | countFails => exact within.still ⟨le_refl _, rfl, nothing⟩ rfl (by rintro _ ⟨⟩) fun counts => absurd rfl counts
  | counted actorId => exact within.counted actorId
  | sweepHour n | sweepDay n | sweepHeld n => exact sweeping n _
  | sweepFrees n =>
    rw [Box.step, Box.sweepFrees]
    split
    · exact within.same ⟨le_refl _, rfl, fun id => freeHeld_spends _⟩ rfl rfl
    · exact within
  | crashes => exact within.crashes keeps

end

theorem start_within (limits : Limits) (db : Db) (now : Instant) : Within limits (.start db now) where
  unmarked := by
    intro id row found
    cases found
  logged := by
    intro applied member
    cases member
  distinct := List.nodup_nil
  one := by
    intro n m first second found
    cases found
  alone := fun counts => absurd rfl counts
  counting := by
    intro counting found
    cases found
  held := by
    intro n activity found
    cases found
  bounded := by
    intro budget
    exact Windows.bounded_nil

theorem Within.human (within : Within limits box) (ids : NewIds) (resolved : Option ℕ)
    (live : box.world.activities[n]? = some (some ⟨ended, .calls stage none⟩)) :
    (box.step reading limits (.serves n ids resolved)).applies = box.applies ∧
      (∀ since_ covers, countSince (box.step reading limits (.serves n ids resolved)).world.db since_ covers =
        countSince box.world.db since_ covers) ∧
      ∀ m, m ≠ n → (box.step reading limits (.serves n ids resolved)).world.activities[m]? =
        box.world.activities[m]? := by
  simp only [Box.step, Box.serves, Box.step_, World.appliesNow, World.step, live, World.serves,
    Option.map_none, Option.toList_none, List.append_nil, true_and]
  constructor
  · intro since_ covers
    apply AllSpend.countSince_eq _ within.unmarked
    intro id
    split
    · exact .refl _
    · rename_i runs
      exact serve_spends runs
    · exact .refl _
  · intro m apart
    have kept {call : Option (ℕ × ℕ)} {what : Happened} {db : Db} {new : Option Activity} :
        ((box.world.record call what db).setActivity n new).activities[m]? = box.world.activities[m]? :=
      List.getElem?_set_ne (Ne.symm apart)
    split <;> exact kept

/-- In every run that loses no mark, no hour has more unattended applies than its cap, no day more creates,
and no call of a person changes what the caps count. -/
theorem unattended_within_budget (reading : Reading) (limits : Limits) (db : Db) (now : Instant)
    (events : List BoxEvent)
    (kept : Stepping.Along (Box.step reading limits) Box.KeepsMarks (.start db now) events) :
    (∀ budget, Windows.Bounded ((Box.after reading limits db now events).spent budget) budget.width
      (budget.cap limits)) ∧
    ∀ n ended stage ids resolved,
      (Box.after reading limits db now events).world.activities[n]? =
          some (some ⟨ended, .calls stage none⟩) →
        ((Box.after reading limits db now events).step reading limits (.serves n ids resolved)).applies =
            (Box.after reading limits db now events).applies ∧
          (∀ since_ covers, countSince ((Box.after reading limits db now events).step reading limits
              (.serves n ids resolved)).world.db since_ covers =
            countSince (Box.after reading limits db now events).world.db since_ covers) ∧
          ∀ m, m ≠ n → ((Box.after reading limits db now events).step reading limits
              (.serves n ids resolved)).world.activities[m]? =
            (Box.after reading limits db now events).world.activities[m]? := by
  have keeps (box : Box) (event : BoxEvent) (within : Within limits box) (keeps : box.KeepsMarks event) :
      Within limits (box.step reading limits event) := within.step event keeps
  have within : Within limits (Box.after reading limits db now events) :=
    kept.keeps keeps (start_within limits db now)
  exact ⟨within.bounded, fun n ended stage ids resolved live => within.human ids resolved live⟩

/-- Two proposals to apply unattended, and a tick that has applied the first. -/
def firstApplied : List BoxEvent :=
  [.proposes 1 { IngestProposal.sample .CREATE_CUSTOMER with policyClass := .AUTO },
    .proposes 2 { IngestProposal.sample .CREATE_CUSTOMER with policyClass := .AUTO },
    .tick, .countHour, .countDay, .counted 100] ++
      List.replicate 5 (.serves 0 ⟨21, 22, 23, 24, 25, 26⟩ none)

def secondTick : List BoxEvent :=
  [.passes 60000, .tick, .countHour, .countDay, .counted 100] ++
    List.replicate 5 (.serves 1 ⟨31, 32, 33, 34, 35, 36⟩ none)

def markedApply : List BoxEvent :=
  firstApplied ++ [.serves 0 ⟨21, 22, 23, 24, 25, 26⟩ none] ++ secondTick

theorem marked_apply_is_counted :
    Windows.Bounded ((Box.after .sample ⟨1, 10⟩ .sample 0 markedApply).spent .hourly)
      (Budget.width .hourly) (Budget.cap ⟨1, 10⟩ .hourly) := by
  have kept : Stepping.Along (Box.step .sample ⟨1, 10⟩) Box.KeepsMarks (.start .sample 0) markedApply := by
    apply Stepping.Along.of_forall
    intro event member box
    cases event with
    | fails | crashes => simp [markedApply, firstApplied, secondTick, List.replicate] at member
    | _ => trivial
  exact (unattended_within_budget .sample ⟨1, 10⟩ .sample 0 markedApply kept).1 .hourly

/-- A crash before the mark: the apply is in nobody's count, and the next tick applies the second one in the
same hour, where the cap is one. -/
theorem crash_spends_nobodys_budget :
    Windows.within ((Box.after .sample ⟨1, 10⟩ .sample 0
      (firstApplied ++ [.crashes] ++ secondTick)).spent .hourly) 0 HOUR_MS = 2 := by
  decide

end Droplet.Filing
