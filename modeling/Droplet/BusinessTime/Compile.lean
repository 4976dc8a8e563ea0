import Droplet.Lib.Fallible
import Droplet.BusinessTime.Operations

/-! What compilation does to a calendar: the checks pass a typed calendar through
unchanged, every segment starts on its own day and ends before the one after next, and
merging keeps the wall clock minutes of the windows. -/

namespace Droplet.BusinessTime

open ZonedTime Fallible IntervalScan

variable (intl : Intl)

theorem parseClock_bound (value : Option (Json ℚ)) (allow24 : Bool) (minutes : ℕ)
    (parsed : parseClock value allow24 = .ok minutes) : minutes ≤ 1440 ∧ (allow24 = false → minutes < 1440) := by
  simp only [parseClock] at parsed
  split at parsed
  · cases parsed
  · next hours minute _ =>
    split at parsed
    · cases parsed
    · split at parsed
      · next midnight =>
        obtain rfl := Except.ok.inj parsed
        exact ⟨le_rfl, fun refused => by simp [refused] at midnight⟩
      · split at parsed
        · cases parsed
        · obtain rfl := Except.ok.inj parsed
          exact ⟨by omega, fun _ => by omega⟩

theorem minutesOf_eq (value : String) (allow24 : Bool) (minutes : ℕ)
    (parsed : parseClockText value allow24 = .ok minutes) : minutesOf value allow24 = minutes := by
  simp [minutesOf, parsed]

def windowMinutes (w : BusinessWindow) : Segment :=
  (minutesOf w.start false,
    if minutesOf w.end true < minutesOf w.start false then minutesOf w.end true + 1440
    else minutesOf w.end true)

def Checked (w : BusinessWindow) : Prop :=
  (∃ s, parseClockText w.start false = .ok s) ∧ ∃ e, parseClockText w.end true = .ok e

variable (w : BusinessWindow)

theorem windowMinutes_bounds (checked : Checked w) :
    (windowMinutes w).1 < 1440 ∧ (windowMinutes w).1 ≤ (windowMinutes w).2 ∧
      (windowMinutes w).2 < 2880 := by
  obtain ⟨⟨s, start⟩, e, stop⟩ := checked
  have startBound := (parseClock_bound _ _ _ start).2 rfl
  have stopBound := (parseClock_bound _ _ _ stop).1
  simp only [windowMinutes, minutesOf_eq _ _ _ start, minutesOf_eq _ _ _ stop]
  split <;> omega

theorem field_day : w.toJson.field "day" = some (.num w.day) := by
  rfl

theorem field_start : w.toJson.field "start" = some (.str w.start) := by
  rfl

theorem field_end : w.toJson.field "end" = some (.str w.end) := by
  rfl

def WellFormed (w : BusinessWindow) : Prop := 0 ≤ w.day ∧ w.day ≤ 6 ∧ Checked w

theorem checkWindow_ok_iff (w result : BusinessWindow) (i : ℕ) :
    checkWindow w.toJson i = .ok result ↔ result = w ∧ WellFormed w := by
  have object : ∃ members, w.toJson = .obj members := ⟨_, rfl⟩
  obtain ⟨members, shape⟩ := object
  unfold checkWindow
  simp only [field_day, field_start, field_end]
  rw [shape]
  simp only [Rat.den_intCast, Rat.num_intCast, true_and]
  split
  · next range =>
    rw [pure_bind, bind_ok_iff]
    constructor
    · intro accepted
      obtain ⟨s, start, accepted⟩ := accepted
      obtain ⟨e, stop, accepted⟩ := bind_ok_iff.mp accepted
      rw [pure_ok_iff] at accepted
      exact ⟨accepted.symm, range.1, range.2, ⟨s, start⟩, e, stop⟩
    · intro formed
      obtain ⟨rfl, _, _, ⟨s, start⟩, e, stop⟩ := formed
      refine ⟨s, start, ?_⟩
      rw [bind_ok_iff]
      exact ⟨e, stop, rfl⟩
  · next range =>
    simp only [throw_bind, reduceCtorEq, false_iff]
    intro formed
    exact range ⟨formed.2.1, formed.2.2.1⟩

theorem checkWindows_ok_iff (windows result : List BusinessWindow) (i : ℕ) :
    checkWindows (windows.map BusinessWindow.toJson) i = .ok result ↔
      result = windows ∧ ∀ w ∈ windows, WellFormed w := by
  induction windows generalizing result i with
  | nil => simp [checkWindows, eq_comm]
  | cons w rest ih =>
    simp only [List.map_cons, checkWindows, bind_ok_iff, pure_ok_iff, checkWindow_ok_iff, ih,
      List.mem_cons, forall_eq_or_imp]
    constructor
    · intro accepted
      obtain ⟨first, ⟨rfl, formed⟩, others, ⟨rfl, allFormed⟩, rfl⟩ := accepted
      exact ⟨rfl, formed, allFormed⟩
    · intro formed
      exact ⟨w, ⟨rfl, formed.2.1⟩, rest, ⟨rfl, formed.2.2⟩, formed.1.symm⟩

theorem checkHolidays_ok_iff (holidays result : List String) :
    checkHolidays (holidays.map Json.str) = .ok result ↔
      result = holidays ∧ ∀ h ∈ holidays, isCalendarYmd h = true := by
  induction holidays generalizing result with
  | nil =>
    have none : checkHolidays ([].map Json.str) = .ok [] := rfl
    rw [none, Except.ok.injEq, eq_comm]
    simp
  | cons h rest ih =>
    simp only [List.map_cons, checkHolidays, List.mem_cons, forall_eq_or_imp]
    split
    · next date =>
      simp only [bind_ok_iff, pure_ok_iff, ih, date, true_and]
      constructor
      · intro accepted
        obtain ⟨others, ⟨rfl, dates⟩, rfl⟩ := accepted
        exact ⟨rfl, dates⟩
      · intro dates
        exact ⟨rest, ⟨rfl, dates.2⟩, dates.1.symm⟩
    · next other => simp [other]

structure Shaped (calendar : BusinessCalendar) : Prop where
  zone : isValidIanaZone intl calendar.timezone = true
  fewWindows : calendar.windows.length ≤ MAX_WINDOWS
  fewHolidays : calendar.holidays.length ≤ MAX_HOLIDAYS
  windows : ∀ w ∈ calendar.windows, WellFormed w
  holidays : ∀ h ∈ calendar.holidays, isCalendarYmd h = true

theorem checkShape_ok_iff (calendar checked : BusinessCalendar) :
    checkShape intl calendar.toJson = .ok checked ↔ checked = calendar ∧ Shaped intl calendar := by
  have zone : calendar.toJson.field "timezone" = some (.str calendar.timezone) := rfl
  have windows : calendar.toJson.field "windows" =
      some (.arr (calendar.windows.map BusinessWindow.toJson)) := rfl
  have holidays : calendar.toJson.field "holidays" = some (.arr (calendar.holidays.map Json.str)) := rfl
  have object : ∃ members, calendar.toJson = .obj members := ⟨_, rfl⟩
  obtain ⟨members, shape⟩ := object
  unfold checkShape
  simp only [zone, windows, holidays]
  rw [shape]
  simp only [isZoneField]
  by_cases valid : isValidIanaZone intl calendar.timezone = true
  · simp only [valid, if_true, pure_bind, List.length_map]
    by_cases many : calendar.windows.length > MAX_WINDOWS
    · simp only [if_pos many, throw_bind, reduceCtorEq, false_iff]
      intro shaped
      exact absurd shaped.2.fewWindows (not_le.mpr many)
    by_cases long : calendar.holidays.length > MAX_HOLIDAYS
    · simp only [if_neg many, if_pos long, throw_bind, reduceCtorEq, false_iff]
      intro shaped
      exact absurd shaped.2.fewHolidays (not_le.mpr long)
    simp only [if_neg many, if_neg long, bind_ok_iff, pure_ok_iff, checkWindows_ok_iff, checkHolidays_ok_iff]
    constructor
    · intro accepted
      obtain ⟨_, ⟨rfl, formed⟩, _, ⟨rfl, dates⟩, rfl⟩ := accepted
      exact ⟨rfl, valid, not_lt.mp many, not_lt.mp long, formed, dates⟩
    · intro shaped
      exact ⟨_, ⟨rfl, shaped.2.windows⟩, _, ⟨rfl, shaped.2.holidays⟩, shaped.1.symm⟩
  · simp only [valid, Bool.false_eq_true, if_false, throw_bind, reduceCtorEq, false_iff]
    intro shaped
    exact valid shaped.2.zone

/-- The segments of a weekday before they are merged. -/
def rawSegments (windows : List BusinessWindow) (day : ℕ) : List Segment :=
  (windows.filter (fun w => decide (w.day = (day : ℤ) ∧ (windowMinutes w).1 < (windowMinutes w).2))).map
    windowMinutes

variable (windows : List BusinessWindow)

theorem perDay_eq (day : ℕ) (checked : ∀ w ∈ windows, Checked w) :
    perDay windows day = .ok (rawSegments windows day) := by
  induction windows with
  | nil => rfl
  | cons w rest ih =>
    have others := ih (fun window member => checked window (List.mem_cons_of_mem w member))
    obtain ⟨⟨s, start⟩, e, stop⟩ := checked w List.mem_cons_self
    have minutes : windowMinutes w = (s, if e < s then e + 1440 else e) := by
      simp only [windowMinutes, minutesOf_eq _ _ _ start, minutesOf_eq _ _ _ stop]
    have startBound := (parseClock_bound _ _ _ start).2 rfl
    have length : s < (if e < s then e + 1440 else e) ↔ e ≠ s := by
      split <;> omega
    simp only [perDay, start, stop, others, ok_bind, rawSegments, List.filter_cons]
    by_cases mine : w.day = day ∧ e ≠ s
    · have taken : decide (w.day = (day : ℤ) ∧ (windowMinutes w).1 < (windowMinutes w).2) = true := by
        rw [minutes, decide_eq_true_iff]
        exact ⟨mine.1, length.mpr mine.2⟩
      have kept : ¬ (e = s ∨ w.day ≠ day) := by
        intro skip
        rcases skip with zero | other
        · exact mine.2 zero
        · exact other mine.1
      rw [if_neg kept, if_pos taken, List.map_cons, minutes]
      rfl
    · have dropped : decide (w.day = (day : ℤ) ∧ (windowMinutes w).1 < (windowMinutes w).2) = false := by
        rw [minutes, decide_eq_false_iff_not, length]
        exact mine
      have skip : e = s ∨ w.day ≠ day := by
        by_cases zero : e = s
        · exact Or.inl zero
        · exact Or.inr (fun same => mine ⟨same, zero⟩)
      rw [if_pos skip, if_neg (by rw [dropped]; decide)]
      rfl

theorem mem_rawSegments {day : ℕ} {segment : Segment} :
    segment ∈ rawSegments windows day ↔
      ∃ w ∈ windows, w.day = day ∧ segment.1 < segment.2 ∧ windowMinutes w = segment := by
  simp only [rawSegments, List.mem_map, List.mem_filter, decide_eq_true_iff]
  constructor
  · intro found
    obtain ⟨w, ⟨member, same, length⟩, rfl⟩ := found
    exact ⟨w, member, same, length, rfl⟩
  · intro found
    obtain ⟨w, member, same, length, rfl⟩ := found
    exact ⟨w, ⟨member, same, length⟩, rfl⟩

/-- Where a merged segment can lie: it starts on its own day and ends before the day
after the next. -/
def Bounded (segment : Segment) : Prop :=
  segment.1 < 1440 ∧ segment.1 < segment.2 ∧ segment.2 < 2880

theorem mergeStep_bounded (merged : List Segment) (next : Segment)
    (before : ∀ segment ∈ merged, Bounded segment) (bounded : Bounded next) :
    ∀ segment ∈ mergeStep merged next, Bounded segment := by
  intro segment member
  cases merged with
  | nil =>
    simp only [mergeStep, List.mem_singleton] at member
    exact member ▸ bounded
  | cons last rest =>
    have lastBounded := before last List.mem_cons_self
    simp only [mergeStep] at member
    split at member
    · rcases List.mem_cons.mp member with rfl | older
      · simp only [Bounded] at *
        omega
      · exact before segment (List.mem_cons_of_mem last older)
    · rcases List.mem_cons.mp member with rfl | older
      · exact bounded
      · exact before segment older

theorem mergeStep_ne_nil (merged : List Segment) (next : Segment) : mergeStep merged next ≠ [] := by
  cases merged with
  | nil => simp [mergeStep]
  | cons last rest =>
    simp only [mergeStep]
    split <;> simp

variable (segments merged : List Segment)

theorem foldl_mergeStep_bounded
    (before : ∀ segment ∈ merged, Bounded segment) (bounded : ∀ segment ∈ segments, Bounded segment) :
    ∀ segment ∈ segments.foldl mergeStep merged, Bounded segment := by
  induction segments generalizing merged with
  | nil => exact before
  | cons next rest ih =>
    apply ih (mergeStep merged next)
    · exact mergeStep_bounded merged next before (bounded next List.mem_cons_self)
    · intro segment member
      exact bounded segment (List.mem_cons_of_mem next member)

theorem mergeSegments_bounded (segments : List Segment) (bounded : ∀ segment ∈ segments, Bounded segment) :
    ∀ segment ∈ mergeSegments segments, Bounded segment := by
  intro segment member
  rw [mergeSegments, List.mem_reverse] at member
  apply foldl_mergeStep_bounded _ [] (by simp) _ segment member
  intro raw rawMember
  exact bounded raw ((List.mem_insertionSort segmentOrder).mp rawMember)

theorem foldl_mergeStep_ne_nil (some : merged ≠ []) : segments.foldl mergeStep merged ≠ [] := by
  induction segments generalizing merged with
  | nil => exact some
  | cons next rest ih => exact ih _ (mergeStep_ne_nil merged next)

@[simp] theorem mergeSegments_isEmpty (segments : List Segment) :
    (mergeSegments segments).isEmpty = segments.isEmpty := by
  have sorted := (List.perm_insertionSort segmentOrder segments).length_eq
  cases segments with
  | nil => rfl
  | cons segment rest =>
    rw [mergeSegments]
    cases order : (segment :: rest).insertionSort segmentOrder with
    | nil => simp [order] at sorted
    | cons first others =>
      have some := foldl_mergeStep_ne_nil others _ (mergeStep_ne_nil [] first)
      simpa [List.isEmpty_iff] using some

section Merging

variable (clock : ℕ → ℤ)

/-- Where two windows meet on the wall clock, they meet on this clock, and in the same order. -/
def Meet (first second : Segment) : Prop :=
  clock first.1 ≤ clock second.1 ∧ clock second.1 ≤ clock first.2 ∧
    (first.2 ≤ second.2 → clock first.2 ≤ clock second.2) ∧
    (second.2 ≤ first.2 → clock second.2 ≤ clock first.2)

/-- A merged segment has the time of some windows, and no other. -/
structure Merges (windows : List Segment) (segment : Segment) : Prop where
  first : ∃ w ∈ windows, w.1 = segment.1
  last : ∃ w ∈ windows, w.2 = segment.2 ∧ clock segment.1 ≤ clock w.1
  covered : ∀ t, clock segment.1 ≤ t → t < clock segment.2 →
    ∃ w ∈ windows, clock segment.1 ≤ clock w.1 ∧ clock w.1 ≤ t ∧ t < clock w.2

variable {clock} {segments done merged : List Segment}

theorem Merges.grows {segment : Segment} (merges : Merges clock done segment)
    (more : ∀ w ∈ done, w ∈ segments) : Merges clock segments segment where
  first := merges.first.imp fun w found => ⟨more w found.1, found.2⟩
  last := merges.last.imp fun w found => ⟨more w found.1, found.2⟩
  covered := fun t low high => (merges.covered t low high).imp fun w found => ⟨more w found.1, found.2⟩

/-- Every merged segment has the time of windows, and every window is in one. -/
def Merged (clock : ℕ → ℤ) (done merged : List Segment) : Prop :=
  (∀ segment ∈ merged, Merges clock done segment) ∧
    ∀ w ∈ done, ∃ segment ∈ merged, clock segment.1 ≤ clock w.1 ∧ clock w.2 ≤ clock segment.2

theorem mergeStep_merged (next : Segment) (before : Merged clock done merged)
    (meets : ∀ w ∈ done, w ≠ next → next.1 ≤ w.2 → Meet clock w next) :
    Merged clock (next :: done) (mergeStep merged next) := by
  obtain ⟨merges, inside⟩ := before
  have kept : ∀ segment ∈ merged, Merges clock (next :: done) segment := fun segment member =>
    (merges segment member).grows fun w => List.mem_cons_of_mem next
  have single : Merges clock (next :: done) next :=
    ⟨⟨next, .head _, rfl⟩, ⟨next, .head _, rfl, le_rfl⟩, fun t low high => ⟨next, .head _, le_rfl, low, high⟩⟩
  cases merged with
  | nil =>
    refine ⟨fun segment member => List.mem_singleton.mp member ▸ single, ?_⟩
    intro w member
    rcases List.mem_cons.mp member with rfl | old
    · exact ⟨w, .head _, le_rfl, le_rfl⟩
    · obtain ⟨segment, none, -⟩ := inside w old
      cases none
  | cons last rest =>
    simp only [mergeStep]
    split
    · rename_i touches
      obtain ⟨w, member, ends, opens⟩ := (merges last (.head _)).last
      obtain ⟨first, -, covered⟩ := kept last (.head _)
      rcases le_or_gt next.2 last.2 with within | beyond
      · rw [max_eq_left within]
        refine ⟨kept, ?_⟩
        intro v found
        rcases List.mem_cons.mp found with rfl | old
        · refine ⟨last, .head _, ?_⟩
          by_cases same : w = v
          · rw [← same, ends]
            exact ⟨opens, le_rfl⟩
          · obtain ⟨starts, -, -, closes⟩ := meets w member same (ends ▸ touches)
            rw [ends] at closes
            exact ⟨opens.trans starts, closes within⟩
        · exact inside v old
      · rw [max_eq_right beyond.le]
        have other : w ≠ next := by
          rintro rfl
          omega
        obtain ⟨starts, joins, closes, -⟩ := meets w member other (ends ▸ touches)
        rw [ends] at joins closes
        have longer := closes beyond.le
        refine ⟨?_, ?_⟩
        · intro segment found
          rcases List.mem_cons.mp found with rfl | old
          · refine ⟨first, ⟨next, .head _, rfl, opens.trans starts⟩, ?_⟩
            intro t low high
            by_cases early : t < clock last.2
            · exact covered t low early
            · exact ⟨next, .head _, opens.trans starts, by omega, high⟩
          · exact kept segment (.tail _ old)
        · intro v found
          rcases List.mem_cons.mp found with rfl | old
          · exact ⟨_, .head _, opens.trans starts, le_rfl⟩
          · obtain ⟨segment, place, wide⟩ := inside v old
            rcases List.mem_cons.mp place with rfl | before
            · exact ⟨_, .head _, wide.1, wide.2.trans longer⟩
            · exact ⟨segment, .tail _ before, wide⟩
    · refine ⟨?_, ?_⟩
      · intro segment member
        rcases List.mem_cons.mp member with rfl | old
        · exact single
        · exact kept segment old
      · intro w member
        rcases List.mem_cons.mp member with rfl | old
        · exact ⟨w, .head _, le_rfl, le_rfl⟩
        · obtain ⟨segment, found, wide⟩ := inside w old
          exact ⟨segment, .tail _ found, wide⟩

theorem foldl_mergeStep_merged (before : Merged clock done merged)
    (sorted : segments.Pairwise fun v w => v.1 ≤ w.1) (later : ∀ v ∈ done, ∀ w ∈ segments, v.1 ≤ w.1)
    (meets : ∀ v w, (v ∈ done ∨ v ∈ segments) → w ∈ segments → v ≠ w → v.1 ≤ w.1 → w.1 ≤ v.2 →
      Meet clock v w) :
    ∃ all, (∀ w, w ∈ all ↔ w ∈ done ∨ w ∈ segments) ∧
      Merged clock all (segments.foldl mergeStep merged) := by
  induction segments generalizing done merged with
  | nil => exact ⟨done, by simp, before⟩
  | cons next rest ih =>
    obtain ⟨least, sorted⟩ := List.pairwise_cons.mp sorted
    have step := mergeStep_merged next before fun w member different =>
      meets w next (.inl member) (.head _) different (later w member next (.head _))
    obtain ⟨all, whole, done_⟩ := ih step sorted
      (by
        intro v member w found
        rcases List.mem_cons.mp member with rfl | old
        · exact least w found
        · exact later v old w (.tail _ found))
      (by
        intro v w member found
        refine meets v w ?_ (.tail _ found)
        simp only [List.mem_cons] at member ⊢
        tauto)
    refine ⟨all, ?_, done_⟩
    intro w
    rw [whole]
    simp only [List.mem_cons]
    tauto

/-- Merging loses no time and adds none, on every clock that keeps the order of windows that meet. -/
theorem mergeSegments_merged
    (meets : ∀ v ∈ segments, ∀ w ∈ segments, v ≠ w → v.1 ≤ w.1 → w.1 ≤ v.2 → Meet clock v w) :
    Merged clock segments (mergeSegments segments) := by
  have total : Std.Total segmentOrder := ⟨fun x y => by unfold segmentOrder; omega⟩
  have trans : IsTrans Segment segmentOrder := ⟨fun x y z => by unfold segmentOrder; omega⟩
  have sorted := (List.pairwise_insertionSort segmentOrder segments).imp fun {v w} order =>
    show v.1 ≤ w.1 by unfold segmentOrder at order; omega
  obtain ⟨all, whole, done⟩ := @foldl_mergeStep_merged clock _ [] [] ⟨nofun, nofun⟩ sorted nofun
    (by
      intro v w member found
      simp only [List.not_mem_nil, List.mem_insertionSort, false_or] at member found
      exact meets v member w found)
  have same : ∀ w, w ∈ all ↔ w ∈ segments := by
    intro w
    simp [whole, List.mem_insertionSort]
  constructor
  · intro segment member
    exact (done.1 segment (List.mem_reverse.mp member)).grows fun w => (same w).mp
  · intro w member
    obtain ⟨segment, found, wide⟩ := done.2 w ((same w).mpr member)
    exact ⟨segment, List.mem_reverse.mpr found, wide⟩

end Merging

variable (calendar : BusinessCalendar) (c : Compiled)

theorem compile_ok_iff :
    compile intl calendar = .ok c ↔ checkShape intl calendar.toJson = .ok calendar ∧
      c = ⟨calendar.timezone,
        (List.range 7).map (fun day => mergeSegments (rawSegments calendar.windows day)),
        calendar.holidays,
        (List.range 7).all (fun day => (rawSegments calendar.windows day).isEmpty)⟩ := by
  have compiled : ∀ cal, checkShape intl calendar.toJson = .ok cal →
      cal = calendar ∧ (List.range 7).mapM (perDay calendar.windows) =
        .ok ((List.range 7).map (rawSegments calendar.windows)) := by
    intro cal accepted
    obtain ⟨same, shaped⟩ := (checkShape_ok_iff intl calendar cal).mp accepted
    refine ⟨same, mapM_ok _ _ _ ?_⟩
    intro day _
    exact perDay_eq calendar.windows day (fun w member => (shaped.windows w member).2.2)
  unfold compile
  rw [bind_ok_iff]
  constructor
  · intro result
    obtain ⟨cal, accepted, result⟩ := result
    obtain ⟨rfl, days⟩ := compiled cal accepted
    rw [days, ok_bind, pure_ok_iff] at result
    refine ⟨accepted, ?_⟩
    rw [← result]
    simp [Function.comp_def]
  · intro result
    obtain ⟨accepted, rfl⟩ := result
    refine ⟨calendar, accepted, ?_⟩
    rw [(compiled calendar accepted).2, ok_bind, pure_ok_iff]
    simp [Function.comp_def]

theorem segmentsOf_compiled (n : ℤ) (compiled : compile intl calendar = .ok c) :
    segmentsOf c n = mergeSegments (rawSegments calendar.windows (weekdayOfDay n)) := by
  obtain ⟨_, rfl⟩ := (compile_ok_iff intl calendar c).mp compiled
  have week : weekdayOfDay n < 7 := by
    simp only [weekdayOfDay]
    omega
  simp [segmentsOf, week]

theorem segmentsOf_bounded (n : ℤ) (compiled : compile intl calendar = .ok c) :
    ∀ segment ∈ segmentsOf c n, Bounded segment := by
  obtain ⟨accepted, _⟩ := (compile_ok_iff intl calendar c).mp compiled
  have shaped := ((checkShape_ok_iff intl calendar calendar).mp accepted).2
  rw [segmentsOf_compiled intl calendar c n compiled]
  apply mergeSegments_bounded
  intro segment member
  obtain ⟨w, window, _, length, rfl⟩ := (mem_rawSegments _).mp member
  have bounds := windowMinutes_bounds w (shaped.windows w window).2.2
  exact ⟨bounds.1, length, bounds.2.2⟩

theorem rawSegments_of_empty (n : ℤ) (compiled : compile intl calendar = .ok c)
    (empty : c.empty = true) : rawSegments calendar.windows (weekdayOfDay n) = [] := by
  obtain ⟨_, rfl⟩ := (compile_ok_iff intl calendar c).mp compiled
  simp only [List.all_eq_true, List.mem_range, List.isEmpty_iff] at empty
  apply empty
  simp only [weekdayOfDay]
  omega

end Droplet.BusinessTime
