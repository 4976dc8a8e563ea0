import Droplet.BusinessTime.Clock
import Droplet.BusinessTime.Compile
import Droplet.BusinessTime.Scan

/-! When the scan measures what the documentation says: the union of the real extents of
the calendar's windows. Merging happens on the wall clock and days are read one after
the other, so both a clock that jumps inside merged windows and a day whose windows
open after those of the next one can lose time. -/

namespace Droplet.BusinessTime

open ZonedTime Gregorian IntervalScan Fallible

variable (intl : Intl)

/-- `t` is in the real extent `[instantAt(n, s), instantAt(n, e))`. -/
def Extent (c : Compiled) (n : ℤ) (segment : Segment) (t : ℤ) : Prop :=
  ∃ x y, instantAt intl c n segment.1 = .ok x ∧ instantAt intl c n segment.2 = .ok y ∧
    x ≤ t ∧ t < y

def OnHoliday (c : Compiled) (n : ℤ) : Prop :=
  ∃ ymd, ymdOfDay n = .ok ymd ∧ ymd ∈ c.holidays

/-- Business time as the calendar means it: in the extent of a window of some day that is
no holiday. -/
def InWindow (calendar : BusinessCalendar) (c : Compiled) (t : ℤ) : Prop :=
  ∃ n, ¬ OnHoliday c n ∧ ∃ w ∈ calendar.windows,
    w.day = weekdayOfDay n ∧ Extent intl c n (windowMinutes w) t

/-- A merged segment of day `n` has this extent. -/
def Opens (c : Compiled) (n : ℤ) (iv : Interval) : Prop :=
  ¬ OnHoliday c n ∧ ∃ segment ∈ segmentsOf c n,
    instantAt intl c n segment.1 = .ok iv.s ∧ instantAt intl c n segment.2 = .ok iv.e

/-- Every day from `n` to `m` has its instants, so a scan that starts at `n` gets to `m`. -/
def Reads (c : Compiled) (n m : ℤ) : Prop :=
  ∀ k, n ≤ k → k ≤ m → ∃ list, intervalsOf intl c k = .ok list

/-- The days the scan from `a` reads. -/
def Scanned (c : Compiled) (a n : ℤ) : Prop :=
  ∃ day, localDay intl c a = .ok day ∧ day - 1 ≤ n ∧ n ≤ day - 1 + MAX_SCAN_DAYS ∧
    Reads intl c (day - 1) n

/-- The span ends within the scan: there is no time to count, or a day of the scan still
has some at `b`. -/
def SpanInside (c : Compiled) (a b : ℤ) : Prop :=
  c.empty = true ∨ ∃ n, Scanned intl c a n ∧ ∃ iv, Opens intl c n iv ∧ b ≤ iv.e

/-- Nothing of the windows is lost or added between `a` and `b`: an instant is in a window
exactly when it is in a merged segment of a scanned day before which no scanned day
opens later than the instant. -/
def InOrder (calendar : BusinessCalendar) (c : Compiled) (a b : ℤ) : Prop :=
  ∀ t, a ≤ t → t < b → (InWindow intl calendar c t ↔
    ∃ n, Scanned intl c a n ∧ (∃ iv, Opens intl c n iv ∧ iv.Holds t) ∧
      ∀ m, Scanned intl c a m → m < n → ∀ iv, Opens intl c m iv → iv.s ≤ t)

/-- `w` is a window of day `n`, which is no holiday. -/
def DayWindow (calendar : BusinessCalendar) (c : Compiled) (n : ℤ) (w : Segment) : Prop :=
  ¬ OnHoliday c n ∧ w ∈ rawSegments calendar.windows (weekdayOfDay n)

/-- Its real extent is `[x, y)`. -/
def Spans (c : Compiled) (n : ℤ) (w : Segment) (x y : ℤ) : Prop :=
  instantAt intl c n w.1 = .ok x ∧ instantAt intl c n w.2 = .ok y

/-- Day `n` is not before the eve of the local day of `a`. -/
def FromEve (c : Compiled) (a n : ℤ) : Prop := ∃ day, localDay intl c a = .ok day ∧ day - 1 ≤ n

/-- A window of day `n` or of a later one opens before `b`. -/
def Due (calendar : BusinessCalendar) (c : Compiled) (b n : ℤ) : Prop :=
  ∃ m w x, n ≤ m ∧ DayWindow calendar c m w ∧ instantAt intl c m w.1 = .ok x ∧ x < b

/-- The clock of the zone keeps the order of the windows between `a` and `b`. -/
structure InStep (calendar : BusinessCalendar) (c : Compiled) (a b : ℤ) : Prop where
  /-- No window of a day before the eve is still open at `a`. -/
  eve : ∀ n w x y, DayWindow calendar c n w → Spans intl c n w x y → x < y → x < b → a < y →
    FromEve intl c a n
  /-- Windows of one day that meet on the wall clock meet as instants, in the same order. -/
  joined : ∀ n v w x y x' y', FromEve intl c a n → Due intl calendar c b n →
    DayWindow calendar c n v → DayWindow calendar c n w → v ≠ w → v.1 ≤ w.1 → w.1 ≤ v.2 →
    Spans intl c n v x y → Spans intl c n w x' y' →
      x ≤ x' ∧ x' ≤ y ∧ (v.2 ≤ w.2 → y ≤ y') ∧ (w.2 ≤ v.2 → y' ≤ y)
  /-- No window of an earlier day opens after one of a later day. -/
  ascending : ∀ m n v w x y x' y', FromEve intl c a m → m < n →
    DayWindow calendar c m v → DayWindow calendar c n w →
    Spans intl c m v x y → x < y → Spans intl c n w x' y' → x' < y' → x' < b → a < y' → x ≤ max a x'

variable (c : Compiled)

theorem mem_extentsOf (n : ℤ) (segments : List Segment) (list : List Interval)
    (returns : extentsOf intl c n segments = .ok list) (iv : Interval) :
    iv ∈ list ↔ ∃ segment ∈ segments,
      instantAt intl c n segment.1 = .ok iv.s ∧ instantAt intl c n segment.2 = .ok iv.e := by
  induction segments generalizing list with
  | nil =>
    obtain rfl := Except.ok.inj returns
    simp
  | cons segment rest ih =>
    obtain ⟨s, e⟩ := segment
    simp only [extentsOf] at returns
    obtain ⟨start, startOk, returns⟩ := bind_ok_iff.mp returns
    obtain ⟨stop, stopOk, returns⟩ := bind_ok_iff.mp returns
    obtain ⟨others, othersOk, returns⟩ := bind_ok_iff.mp returns
    have tail := ih others othersOk
    rw [pure_ok_iff] at returns
    subst returns
    simp only [List.mem_cons, exists_eq_or_imp, startOk, stopOk, Except.ok.injEq, ← tail]
    split
    · next positive =>
      rw [List.mem_cons]
      constructor
      · intro member
        rcases member with rfl | member
        · exact Or.inl ⟨rfl, rfl⟩
        · exact Or.inr member
      · intro member
        rcases member with ⟨low, high⟩ | member
        · left
          cases iv
          simp_all
        · exact Or.inr member
    · next flat =>
      constructor
      · exact Or.inr
      · intro member
        rcases member with ⟨low, high⟩ | member
        · have nonempty := iv.lt
          omega
        · exact member

theorem mem_intervalsOf (n : ℤ) (list : List Interval) (returns : intervalsOf intl c n = .ok list)
    (iv : Interval) : iv ∈ list ↔ Opens intl c n iv := by
  unfold intervalsOf at returns
  obtain ⟨ymd, ymdOk, returns⟩ := bind_ok_iff.mp returns
  have holiday : OnHoliday c n ↔ ymd ∈ c.holidays := by
    simp [OnHoliday, ymdOk]
  unfold Opens
  rw [holiday]
  split at returns
  · next closed =>
    rw [pure_ok_iff] at returns
    subst returns
    have member : ymd ∈ c.holidays := by simpa using closed
    simp [member]
  · next running =>
    obtain ⟨out, outOk, returns⟩ := bind_ok_iff.mp returns
    rw [pure_ok_iff] at returns
    subst returns
    have member : ymd ∉ c.holidays := by simpa using running
    rw [List.mem_insertionSort, mem_extentsOf intl c n _ out outOk]
    simp [member]

theorem intervalsOf_sorted (n : ℤ) (list : List Interval)
    (returns : intervalsOf intl c n = .ok list) : list.Pairwise (fun x y => x.s ≤ y.s) := by
  unfold intervalsOf at returns
  obtain ⟨ymd, _, returns⟩ := bind_ok_iff.mp returns
  split at returns
  · rw [pure_ok_iff] at returns
    subst returns
    exact List.Pairwise.nil
  · obtain ⟨out, _, returns⟩ := bind_ok_iff.mp returns
    rw [pure_ok_iff] at returns
    subst returns
    have total : Std.Total startOrder := ⟨fun x y => le_total x.s y.s⟩
    have trans : IsTrans Interval startOrder := ⟨fun _ _ _ => le_trans⟩
    exact List.pairwise_insertionSort startOrder out

theorem reads_succ (n m : ℤ) (list : List Interval) (first : intervalsOf intl c n = .ok list) :
    Reads intl c n m ↔ Reads intl c (n + 1) m := by
  constructor
  · intro reads k low high
    exact reads k (by omega) high
  · intro reads k low high
    by_cases here : k = n
    · exact ⟨list, here ▸ first⟩
    · exact reads k (by omega) high

theorem mem_yielded_scanDays (days : ℕ) (n : ℤ) (iv : Interval) :
    iv ∈ yielded (scanDays intl c days n) ↔
      ∃ m, n ≤ m ∧ m < n + days ∧ Reads intl c n m ∧ Opens intl c m iv := by
  induction days generalizing n with
  | zero =>
    simp only [scanDays, yielded, List.not_mem_nil, Nat.cast_zero, add_zero, false_iff]
    intro found
    obtain ⟨m, low, high, _⟩ := found
    omega
  | succ days ih =>
    simp only [scanDays]
    cases first : intervalsOf intl c n with
    | error failure =>
      simp only [yielded, List.not_mem_nil, false_iff]
      intro found
      obtain ⟨m, low, _, reads, _⟩ := found
      obtain ⟨list, ok⟩ := reads n le_rfl low
      simp [first] at ok
    | ok list =>
      simp only [yielded, List.mem_append, mem_intervalsOf intl c n list first, ih (n + 1)]
      push_cast
      constructor
      · intro found
        rcases found with opens | ⟨m, low, high, reads, opens⟩
        · refine ⟨n, le_rfl, by omega, ?_, opens⟩
          intro k lower upper
          exact ⟨list, le_antisymm upper lower ▸ first⟩
        · exact ⟨m, by omega, by omega, (reads_succ intl c n m list first).mpr reads, opens⟩
      · intro found
        obtain ⟨m, low, high, reads, opens⟩ := found
        by_cases here : m = n
        · exact Or.inl (here ▸ opens)
        · exact Or.inr ⟨m, by omega, by omega, (reads_succ intl c n m list first).mp reads, opens⟩

theorem openAt_scanDays (days : ℕ) (n t : ℤ) :
    OpenAt (yielded (scanDays intl c days n)) t ↔
      ∃ m, n ≤ m ∧ m < n + days ∧ Reads intl c n m ∧ (∃ iv, Opens intl c m iv ∧ iv.Holds t) ∧
        ∀ k, n ≤ k → k < m → ∀ iv, Opens intl c k iv → iv.s ≤ t := by
  induction days generalizing n with
  | zero =>
    simp only [scanDays, yielded, OpenAt, Nat.cast_zero, add_zero, false_iff]
    intro found
    obtain ⟨m, low, high, _⟩ := found
    omega
  | succ days ih =>
    simp only [scanDays]
    cases first : intervalsOf intl c n with
    | error failure =>
      simp only [yielded, OpenAt, false_iff]
      intro found
      obtain ⟨m, low, _, reads, _⟩ := found
      obtain ⟨list, ok⟩ := reads n le_rfl low
      simp [first] at ok
    | ok list =>
      simp only [yielded, openAt_append, ih (n + 1),
        openAt_iff_of_sorted list t (intervalsOf_sorted intl c n list first),
        mem_intervalsOf intl c n list first]
      push_cast
      constructor
      · intro found
        rcases found with holds | ⟨early, m, low, high, reads, holds, ordered⟩
        · refine ⟨n, le_rfl, by omega, ?_, holds, by omega⟩
          intro k lower upper
          exact ⟨list, le_antisymm upper lower ▸ first⟩
        · refine ⟨m, by omega, by omega, (reads_succ intl c n m list first).mpr reads, holds, ?_⟩
          intro k lower upper iv opens
          by_cases here : k = n
          · exact early iv (here ▸ opens)
          · exact ordered k (by omega) upper iv opens
      · intro found
        obtain ⟨m, low, high, reads, holds, ordered⟩ := found
        by_cases here : m = n
        · exact Or.inl (here ▸ holds)
        · refine Or.inr ⟨fun iv opens => ordered n le_rfl (by omega) iv opens, m, by omega,
            by omega, (reads_succ intl c n m list first).mp reads, holds, ?_⟩
          intro k lower upper
          exact ordered k (by omega) upper

theorem listed_ok_iff (a : ℤ) (list : List Interval) :
    listed intl c a = .ok list ↔ ∃ day, localDay intl c a = .ok day ∧
      list = yielded (scanDays intl c (MAX_SCAN_DAYS + 1) (day - 1)) := by
  unfold listed intervalsFrom
  cases localDay intl c a with
  | error failure => simp
  | ok day => simp [eq_comm]

theorem mem_listed (a : ℤ) (list : List Interval) (returns : listed intl c a = .ok list)
    (iv : Interval) : iv ∈ list ↔ ∃ n, Scanned intl c a n ∧ Opens intl c n iv := by
  obtain ⟨day, dayOk, rfl⟩ := (listed_ok_iff intl c a list).mp returns
  rw [mem_yielded_scanDays]
  push_cast
  constructor
  · intro found
    obtain ⟨m, low, high, reads, opens⟩ := found
    exact ⟨m, ⟨day, dayOk, low, by omega, reads⟩, opens⟩
  · intro found
    obtain ⟨m, ⟨other, otherOk, low, high, reads⟩, opens⟩ := found
    obtain rfl := Except.ok.inj (dayOk.symm.trans otherOk)
    exact ⟨m, low, by omega, reads, opens⟩

theorem openAt_listed (a t : ℤ) (list : List Interval) (returns : listed intl c a = .ok list) :
    OpenAt list t ↔ ∃ n, Scanned intl c a n ∧ (∃ iv, Opens intl c n iv ∧ iv.Holds t) ∧
      ∀ m, Scanned intl c a m → m < n → ∀ iv, Opens intl c m iv → iv.s ≤ t := by
  obtain ⟨day, dayOk, rfl⟩ := (listed_ok_iff intl c a list).mp returns
  rw [openAt_scanDays]
  push_cast
  constructor
  · intro found
    obtain ⟨n, low, high, reads, holds, ordered⟩ := found
    refine ⟨n, ⟨day, dayOk, low, by omega, reads⟩, holds, ?_⟩
    intro m scanned before iv opens
    obtain ⟨other, otherOk, lower, _, _⟩ := scanned
    obtain rfl := Except.ok.inj (dayOk.symm.trans otherOk)
    exact ordered m lower before iv opens
  · intro found
    obtain ⟨n, ⟨other, otherOk, low, high, reads⟩, holds, ordered⟩ := found
    obtain rfl := Except.ok.inj (dayOk.symm.trans otherOk)
    refine ⟨n, low, by omega, reads, holds, ?_⟩
    intro k lower before iv opens
    refine ordered k ⟨day, dayOk, lower, by omega, ?_⟩ before iv opens
    intro j first last
    exact reads j first (by omega)

variable (calendar : BusinessCalendar)

theorem inWindow_of_empty (c : Compiled) (t : ℤ) (compiled : compile intl calendar = .ok c)
    (empty : c.empty = true) : ¬ InWindow intl calendar c t := by
  intro inside
  obtain ⟨n, _, w, member, day, x, y, start, stop, low, high⟩ := inside
  have none := rawSegments_of_empty intl calendar c n compiled empty
  have flat : ¬ (windowMinutes w).1 < (windowMinutes w).2 := by
    intro length
    have listed : windowMinutes w ∈ rawSegments calendar.windows (weekdayOfDay n) :=
      (mem_rawSegments _).mpr ⟨w, member, day, length, rfl⟩
    simp [none] at listed
  obtain ⟨accepted, _⟩ := (compile_ok_iff intl calendar c).mp compiled
  have shaped := ((checkShape_ok_iff intl calendar calendar).mp accepted).2
  have bounds := windowMinutes_bounds w (shaped.windows w member).2.2
  have same : (windowMinutes w).1 = (windowMinutes w).2 := by omega
  rw [same, stop] at start
  have equal := Except.ok.inj start
  omega

theorem opens_of_empty (c : Compiled) (n : ℤ) (iv : Interval)
    (compiled : compile intl calendar = .ok c) (empty : c.empty = true) : ¬ Opens intl c n iv := by
  intro opens
  obtain ⟨_, segment, member, _⟩ := opens
  rw [segmentsOf_compiled intl calendar c n compiled,
    rawSegments_of_empty intl calendar c n compiled empty] at member
  simp [mergeSegments] at member

theorem inOrder_of_empty (c : Compiled) (a b : ℤ) (compiled : compile intl calendar = .ok c)
    (empty : c.empty = true) : InOrder intl calendar c a b := by
  intro t _ _
  constructor
  · intro window
    exact (inWindow_of_empty intl calendar c t compiled empty window).elim
  · intro found
    obtain ⟨n, _, ⟨iv, opens, _⟩, _⟩ := found
    exact (opens_of_empty intl calendar c n iv compiled empty opens).elim

theorem businessMsBetween_eq_covered (c : Compiled) (list : List Interval) (a b : ℤ)
    (compiled : compile intl calendar = .ok c) (hours : c.empty = false)
    (list_eq : listed intl c a = .ok list) (reached : ∃ iv ∈ list, b ≤ iv.e) (order : a ≤ b) :
    businessMsBetween intl a b (some calendar) = .ok (covered a list b) := by
  rcases lt_or_eq_of_le order with less | equal
  · rw [businessMsBetween_ok_iff intl a b _ _ less]
    exact .scanned compiled hours list_eq reached
  · subst equal
    rw [businessMsBetween_self, covered_before_pos a a list le_rfl]

theorem businessMsBetween_of_empty (c : Compiled) (a b : ℤ)
    (compiled : compile intl calendar = .ok c) (empty : c.empty = true) (order : a ≤ b) :
    businessMsBetween intl a b (some calendar) = .ok 0 := by
  rcases lt_or_eq_of_le order with less | equal
  · rw [businessMsBetween_ok_iff intl a b _ _ less]
    exact .never compiled empty
  · subst equal
    exact businessMsBetween_self intl a _

section InStep

variable {intl} {calendar : BusinessCalendar} {c : Compiled} {a b n t : ℤ}

theorem instantAt_same_day {s r : ℕ} {x : ℤ} (at_ : instantAt intl c n s = .ok x)
    (same : s / 1440 = r / 1440) (late : r < 2880) : ∃ y, instantAt intl c n r = .ok y := by
  have inside : ∀ {ymd : String} {s r : ℕ} {x : ℤ}, s < 1440 → r < 1440 →
      zonedDateMinuteToUtc intl ymd s c.tz = .ok x → ∃ y, zonedDateMinuteToUtc intl ymd r c.tz = .ok y := by
    intro ymd s r x small little found
    simp only [zonedDateMinuteToUtc, if_neg (show ¬ s > 1440 by omega), if_neg (show ¬ s = 1440 by omega),
      if_neg (show ¬ r > 1440 by omega), if_neg (show ¬ r = 1440 by omega), pure_bind, bind_ok_iff] at found ⊢
    obtain ⟨date, parsed, found⟩ := found
    cases resolved : intl.resolve c.tz with
    | none => simp [resolved] at found
    | some zone => exact ⟨_, date, parsed, rfl⟩
  unfold instantAt at at_ ⊢
  by_cases next : s ≥ 1440
  · rw [if_pos next, bind_ok_iff] at at_
    rw [if_pos (show r ≥ 1440 by omega)]
    obtain ⟨ymd, text, found⟩ := at_
    obtain ⟨y, known⟩ := inside (by omega) (show r - 1440 < 1440 by omega) found
    exact ⟨y, by rw [text, ok_bind, known]⟩
  · rw [if_neg next, bind_ok_iff] at at_
    rw [if_neg (show ¬ r ≥ 1440 by omega)]
    obtain ⟨ymd, text, found⟩ := at_
    obtain ⟨y, known⟩ := inside (by omega) (show r < 1440 by omega) found
    exact ⟨y, by rw [text, ok_bind, known]⟩

variable {list : List Interval}

theorem extentsOf_known {segments : List Segment}
    (returns : extentsOf intl c n segments = .ok list) (segment : Segment) (member : segment ∈ segments) :
    ∃ x y, Spans intl c n segment x y := by
  induction segments generalizing list with
  | nil => cases member
  | cons first rest ih =>
    simp only [extentsOf] at returns
    obtain ⟨start, startOk, returns⟩ := bind_ok_iff.mp returns
    obtain ⟨stop, stopOk, returns⟩ := bind_ok_iff.mp returns
    obtain ⟨others, othersOk, -⟩ := bind_ok_iff.mp returns
    rcases List.mem_cons.mp member with rfl | later
    · exact ⟨start, stop, startOk, stopOk⟩
    · exact ih othersOk later

variable (compiled : compile intl calendar = .ok c)
include compiled

theorem rawSegments_bounded (w : Segment) (member : w ∈ rawSegments calendar.windows (weekdayOfDay n)) :
    Bounded w := by
  obtain ⟨accepted, -⟩ := (compile_ok_iff intl calendar c).mp compiled
  have shaped := ((checkShape_ok_iff intl calendar calendar).mp accepted).2
  obtain ⟨window, found, -, length, rfl⟩ := (mem_rawSegments _).mp member
  have bounds := windowMinutes_bounds window (shaped.windows window found).2.2
  exact ⟨bounds.1, length, bounds.2.2⟩

/-- On the wall clock itself windows that meet are always in order. -/
theorem segmentsOf_wall : Merged (fun minute => minute) (rawSegments calendar.windows (weekdayOfDay n))
    (segmentsOf c n) := by
  rw [segmentsOf_compiled intl calendar c n compiled]
  apply mergeSegments_merged
  intro v _ w _ _ starts joins
  simpa [Meet] using ⟨starts, joins⟩

omit compiled in
theorem extentsOf_of_reads {list : List Interval} (reads : intervalsOf intl c n = .ok list)
    (working : ¬ OnHoliday c n) : ∃ out, extentsOf intl c n (segmentsOf c n) = .ok out := by
  unfold intervalsOf at reads
  obtain ⟨ymd, ymdOk, reads⟩ := bind_ok_iff.mp reads
  have open_ : ymd ∉ c.holidays := fun holiday => working ⟨ymd, ymdOk, holiday⟩
  rw [if_neg (by simpa using open_)] at reads
  obtain ⟨out, outOk, -⟩ := bind_ok_iff.mp reads
  exact ⟨out, outOk⟩

theorem spans_of_reads (reads : intervalsOf intl c n = .ok list) {w : Segment}
    (window : DayWindow calendar c n w) : ∃ x y, Spans intl c n w x y := by
  obtain ⟨working, member⟩ := window
  obtain ⟨out, outOk⟩ := extentsOf_of_reads reads working
  obtain ⟨segment, found, low, high⟩ := (segmentsOf_wall compiled).2 w member
  obtain ⟨x, y, start, stop⟩ := extentsOf_known outOk segment found
  have outer := segmentsOf_bounded intl calendar c n compiled segment found
  have inner := rawSegments_bounded compiled w member
  simp only [Bounded, Nat.cast_le] at outer inner low high
  obtain ⟨x', first⟩ := @instantAt_same_day intl c n _ w.1 _ start (by omega) (by omega)
  by_cases next : w.2 ≥ 1440
  · obtain ⟨y', second⟩ := @instantAt_same_day intl c n _ w.2 _ stop (by omega) (by omega)
    exact ⟨x', y', first, second⟩
  · obtain ⟨y', second⟩ := @instantAt_same_day intl c n _ w.2 _ start (by omega) (by omega)
    exact ⟨x', y', first, second⟩

/-- The clock of day `n`. -/
def dayClock (intl : Intl) (c : Compiled) (n : ℤ) (minute : ℕ) : ℤ :=
  (instantAt intl c n minute).toOption.getD 0

omit compiled in
theorem dayClock_eq {minute : ℕ} {x : ℤ} (at_ : instantAt intl c n minute = .ok x) :
    dayClock intl c n minute = x := by
  rw [dayClock, at_]
  rfl

variable (steps : InStep intl calendar c a b)
include steps

theorem InStep.merged (from_ : FromEve intl c a n) (due : Due intl calendar c b n)
    (working : ¬ OnHoliday c n) (reads : intervalsOf intl c n = .ok list) :
    Merged (dayClock intl c n) (rawSegments calendar.windows (weekdayOfDay n)) (segmentsOf c n) := by
  rw [segmentsOf_compiled intl calendar c n compiled]
  apply mergeSegments_merged
  intro v first w second different starts joins
  obtain ⟨x, y, spans⟩ := spans_of_reads compiled reads ⟨working, first⟩
  obtain ⟨x', y', spans'⟩ := spans_of_reads compiled reads ⟨working, second⟩
  rw [Meet, dayClock_eq spans.1, dayClock_eq spans.2, dayClock_eq spans'.1, dayClock_eq spans'.2]
  exact steps.joined n v w x y x' y' from_ due ⟨working, first⟩ ⟨working, second⟩ different starts joins spans spans'

/-- An instant of a merged segment is one of a window that does not open before it. -/
theorem InStep.window {iv : Interval} (from_ : FromEve intl c a n)
    (due : Due intl calendar c b n) (reads : intervalsOf intl c n = .ok list) (opens : Opens intl c n iv)
    (holds : iv.Holds t) : ∃ w x y, DayWindow calendar c n w ∧ Spans intl c n w x y ∧ iv.s ≤ x ∧ x ≤ t ∧ t < y := by
  obtain ⟨working, segment, member, start, stop⟩ := opens
  have merges := (steps.merged compiled from_ due working reads).1 segment member
  obtain ⟨w, found, first, low, high⟩ := merges.covered t (dayClock_eq start ▸ holds.1) (dayClock_eq stop ▸ holds.2)
  obtain ⟨x, y, spans⟩ := spans_of_reads compiled reads ⟨working, found⟩
  rw [dayClock_eq spans.1] at first low
  rw [dayClock_eq start] at first
  rw [dayClock_eq spans.2] at high
  exact ⟨w, x, y, ⟨working, found⟩, spans, first, low, high⟩

theorem InStep.opens (from_ : FromEve intl c a n) (due : Due intl calendar c b n)
    (reads : intervalsOf intl c n = .ok list) {w : Segment} {x y : ℤ} (window : DayWindow calendar c n w)
    (spans : Spans intl c n w x y) (low : x ≤ t) (high : t < y) : ∃ iv, Opens intl c n iv ∧ iv.Holds t := by
  obtain ⟨working, member⟩ := window
  obtain ⟨segment, found, first, last⟩ := (steps.merged compiled from_ due working reads).2 w member
  obtain ⟨out, outOk⟩ := extentsOf_of_reads reads working
  obtain ⟨s, e, start, stop⟩ := extentsOf_known outOk segment found
  rw [dayClock_eq start, dayClock_eq spans.1] at first
  rw [dayClock_eq stop, dayClock_eq spans.2] at last
  exact ⟨⟨s, e, by omega⟩, ⟨working, segment, found, start, stop⟩, first.trans low, high.trans_le last⟩

/-- Nothing is lost or added between `a` and `b` where the clock keeps the windows' order. -/
theorem InStep.inOrder (inside : SpanInside intl c a b) : InOrder intl calendar c a b := by
  rcases inside with none | ⟨last, ⟨today, dayOk, eve, limit, reads⟩, far, opensFar, reaches⟩
  · exact inOrder_of_empty intl calendar c a b compiled none
  have scanned : ∀ n, today - 1 ≤ n → n ≤ last → Scanned intl c a n := fun n low high =>
    ⟨today, dayOk, low, high.trans limit, fun k first upTo => reads k first (upTo.trans high)⟩
  have listed : ∀ m, Scanned intl c a m → ∃ list, intervalsOf intl c m = .ok list := by
    rintro m ⟨day, -, low, -, read⟩
    exact read m low le_rfl
  have from_ : ∀ m, Scanned intl c a m → FromEve intl c a m := by
    rintro m ⟨day, known, low, -, -⟩
    exact ⟨day, known, low⟩
  intro t low high
  constructor
  · rintro ⟨n, working, window, member, day, x, y, start, stop, first, second⟩
    have member' : windowMinutes window ∈ rawSegments calendar.windows (weekdayOfDay n) := by
      refine (mem_rawSegments _).mpr ⟨window, member, day, ?_, rfl⟩
      obtain ⟨accepted, -⟩ := (compile_ok_iff intl calendar c).mp compiled
      have shaped := ((checkShape_ok_iff intl calendar calendar).mp accepted).2
      refine lt_of_le_of_ne (windowMinutes_bounds window (shaped.windows window member).2.2).2.1 fun same => ?_
      rw [same, stop] at start
      have equal := Except.ok.inj start
      omega
    have onDay : DayWindow calendar c n (windowMinutes window) := ⟨working, member'⟩
    have spans : Spans intl c n (windowMinutes window) x y := ⟨start, stop⟩
    have due : ∀ m, m ≤ n → Due intl calendar c b m := fun m before =>
      ⟨n, _, x, before, onDay, start, by omega⟩
    -- What an earlier day opens is open by `t`.
    have early : ∀ m, Scanned intl c a m → m < n → ∀ iv, Opens intl c m iv → iv.s ≤ t := by
      intro m scan before iv opens
      obtain ⟨list, read⟩ := listed m scan
      obtain ⟨v, x', y', earlier, spans', wide, at_, length⟩ :=
        steps.window compiled (from_ m scan) (due m before.le) read opens ⟨le_rfl, iv.lt⟩
      have ordered := steps.ascending m n v _ x' y' x y (from_ m scan) before earlier onDay spans'
        (by omega) spans (by omega) (by omega) (by omega)
      omega
    obtain ⟨day', dayOk', soon⟩ := steps.eve n _ x y onDay spans (by omega) (by omega) (by omega)
    cases dayOk.symm.trans dayOk'
    rcases le_or_gt n last with within | beyond
    · obtain ⟨list, read⟩ := listed n (scanned n soon within)
      exact ⟨n, scanned n soon within,
        steps.opens compiled ⟨today, dayOk, soon⟩ (due n le_rfl) read onDay spans first second, early⟩
    · have opened := early last (scanned last eve le_rfl) beyond far opensFar
      exact ⟨last, scanned last eve le_rfl, ⟨far, opensFar, opened, high.trans_le reaches⟩,
        fun m scan before => early m scan (before.trans beyond)⟩
  · rintro ⟨n, scan, ⟨iv, opens, holds⟩, -⟩
    obtain ⟨list, read⟩ := listed n scan
    obtain ⟨working, segment, member, start, stop⟩ := id opens
    obtain ⟨w, found, same⟩ := ((segmentsOf_wall compiled).1 segment member).first
    have due : Due intl calendar c b n :=
      ⟨n, w, iv.s, le_rfl, ⟨working, found⟩, same ▸ start, holds.1.trans_lt high⟩
    obtain ⟨w, x, y, ⟨-, found⟩, spans, -, first, second⟩ :=
      steps.window compiled (from_ n scan) due read opens holds
    obtain ⟨window, there, day, -, rfl⟩ := (mem_rawSegments _).mp found
    exact ⟨n, working, window, there, day, x, y, spans.1, spans.2, first, second⟩

end InStep

/-- From `a` on to every end up to `b` the measure is that of the windows exactly when the
scan meets their instants in order. -/
theorem businessMsBetween_eq_measure_iff (calendar : BusinessCalendar) (c : Compiled) (a b : ℤ)
    (compiled : compile intl calendar = .ok c) (inside : SpanInside intl c a b) :
    (∀ u, a ≤ u → u ≤ b → businessMsBetween intl a u (some calendar) =
        .ok (measure (InWindow intl calendar c) a u)) ↔
      InOrder intl calendar c a b := by
  cases empty : c.empty with
  | true =>
    constructor
    · intro _
      exact inOrder_of_empty intl calendar c a b compiled empty
    · intro _ u low _
      rw [businessMsBetween_of_empty intl calendar c a u compiled empty low,
        measure_congr _ (fun _ => False) a u]
      · simp
      · intro t _ _
        simp [inWindow_of_empty intl calendar c t compiled empty]
  | false =>
    rcases inside with none | ⟨n, scanned, iv, opens, far⟩
    · simp [none] at empty
    obtain ⟨day, dayOk, _⟩ := id scanned
    have list_eq := (listed_ok_iff intl c a _).mpr ⟨day, dayOk, rfl⟩
    have member := (mem_listed intl c a _ list_eq iv).mpr ⟨n, scanned, opens⟩
    have equal := covered_eq_measure_iff (InWindow intl calendar c) a b
      (yielded (scanDays intl c (MAX_SCAN_DAYS + 1) (day - 1)))
    simp only [counted_iff, openAt_listed intl c a _ _ list_eq] at equal
    have value : ∀ u, a ≤ u → u ≤ b → businessMsBetween intl a u (some calendar) =
        .ok (covered a (yielded (scanDays intl c (MAX_SCAN_DAYS + 1) (day - 1))) u) := by
      intro u low high
      exact businessMsBetween_eq_covered intl calendar c _ a u compiled empty list_eq
        ⟨iv, member, high.trans far⟩ low
    constructor
    · intro measured t low high
      have counted := equal.mp (fun u lower upper => Except.ok.inj
        ((value u lower upper).symm.trans (measured u lower upper))) t low high
      rw [← counted]
      simp [low]
    · intro ordered u low high
      rw [value u low high]
      congr 1
      apply equal.mpr _ u low high
      intro t lower upper
      rw [ordered t lower upper]
      simp [lower]

/-- Pyongyang in the spring of 2018, when 23:30 on Friday 4 May became midnight. -/
def pyongyangZone : Zone :=
  ⟨"Asia/Pyongyang", fun t => if t < 1525446000000 then 30600000 else 32400000⟩

theorem pyongyangZone_step : StepZone pyongyangZone := by
  have edge : ∀ t, pyongyangZone.offset t ≠ pyongyangZone.offset (t - 1) → t = 1525446000000 := by
    intro t jumps
    simp only [pyongyangZone] at jumps
    split at jumps <;> split at jumps <;> omega
  constructor
  · intro t u first second before
    have atT := edge t first
    have atU := edge u second
    omega
  · intro t
    simp only [pyongyangZone]
    split <;> split <;> simp

/-- Ten minutes late on Friday, on a clock that does not exist that night, and the first
five of Saturday. -/
def lateFriday : BusinessCalendar :=
  ⟨"Asia/Pyongyang", [⟨5, "23:40", "23:50"⟩, ⟨6, "00:00", "00:05"⟩], []⟩

def lateFridayCompiled : Compiled :=
  ⟨"Asia/Pyongyang", [[], [], [], [], [], [(1420, 1430)], [(0, 5)]], [], false⟩

def pyongyang : Intl := Intl.only pyongyangZone (by decide)

theorem lateFriday_clock :
    ((instantAt pyongyang lateFridayCompiled 17655 1420).toOption = some 1525446600000 ∧
      (instantAt pyongyang lateFridayCompiled 17655 1430).toOption = some 1525447200000) ∧
    ((instantAt pyongyang lateFridayCompiled 17656 0).toOption = some 1525446000000 ∧
      (instantAt pyongyang lateFridayCompiled 17656 5).toOption = some 1525446300000) ∧
    (windowMinutes ⟨5, "23:40", "23:50"⟩ = (1420, 1430) ∧
      windowMinutes ⟨6, "00:00", "00:05"⟩ = (0, 5)) ∧
    (localDay pyongyang lateFridayCompiled 1525442400000).toOption = some 17655 ∧
    (intervalsOf pyongyang lateFridayCompiled 17654).toOption = some [] ∧
    (intervalsOf pyongyang lateFridayCompiled 17655).toOption =
      some [⟨1525446600000, 1525447200000, by decide⟩] := by
  decide

theorem lateFriday_friday (t : ℤ) (low : 1525446600000 ≤ t) (high : t < 1525447200000) :
    InWindow pyongyang lateFriday lateFridayCompiled t := by
  obtain ⟨⟨opens, closes⟩, _, ⟨minutes, _⟩, _⟩ := lateFriday_clock
  refine ⟨17655, by simp [OnHoliday, lateFridayCompiled], ⟨5, "23:40", "23:50"⟩,
    by simp [lateFriday], by decide, 1525446600000, 1525447200000, ?_, ?_, low, high⟩
  · rw [minutes]
    exact ok_of_toOption opens
  · rw [minutes]
    exact ok_of_toOption closes

theorem lateFriday_saturday (t : ℤ) (low : 1525446000000 ≤ t) (high : t < 1525446300000) :
    InWindow pyongyang lateFriday lateFridayCompiled t := by
  obtain ⟨_, ⟨opens, closes⟩, ⟨_, minutes⟩, _⟩ := lateFriday_clock
  refine ⟨17656, by simp [OnHoliday, lateFridayCompiled], ⟨6, "00:00", "00:05"⟩,
    by simp [lateFriday], by decide, 1525446000000, 1525446300000, ?_, ?_, low, high⟩
  · rw [minutes]
    exact ok_of_toOption opens
  · rw [minutes]
    exact ok_of_toOption closes

theorem lateFriday_inside : SpanInside pyongyang lateFridayCompiled 1525442400000 1525447200000 := by
  obtain ⟨⟨opens, closes⟩, _, _, first, thursday, friday⟩ := lateFriday_clock
  refine Or.inr ⟨17655, ⟨17655, ok_of_toOption first, by decide, by decide, ?_⟩,
    ⟨1525446600000, 1525447200000, by decide⟩, ⟨?_, (1420, 1430), by decide,
      ok_of_toOption opens, ok_of_toOption closes⟩, le_rfl⟩
  · intro k low high
    have days : k = 17654 ∨ k = 17655 := by omega
    rcases days with rfl | rfl
    · exact ⟨[], ok_of_toOption thursday⟩
    · exact ⟨_, ok_of_toOption friday⟩
  · simp [OnHoliday, lateFridayCompiled]

/-- The hour and a half before the change by two windows that overlap, and the first five minutes after. -/
def fridayNight : BusinessCalendar :=
  ⟨"Asia/Pyongyang", [⟨5, "22:00", "23:00"⟩, ⟨5, "22:30", "23:30"⟩, ⟨6, "00:00", "00:05"⟩], []⟩

def fridayNightCompiled : Compiled :=
  ⟨"Asia/Pyongyang", [[], [], [], [], [], [(1320, 1410)], [(0, 5)]], [], false⟩

theorem zonedWallClockToUtc_offset (y : ℤ) (mo d h mi s : ℕ) (zone : Zone) :
    ∃ t, zonedWallClockToUtc y mo d h mi s zone = dateUTC y mo d h mi s - zone.offset t := by
  unfold zonedWallClockToUtc
  dsimp only
  split
  · rename_i first found
    have member := (List.min?_eq_some_iff.mp found).1
    simp only [List.mem_filter, List.mem_map, List.mem_eraseDups, List.mem_cons, List.not_mem_nil, or_false] at member
    obtain ⟨⟨off, rfl | rfl, rfl⟩, -⟩ := member <;> exact ⟨_, rfl⟩
  · exact ⟨_, rfl⟩

/-- A day of Pyongyang begins eight and a half or nine hours before that of UTC, unless its year has but
two digits. -/
theorem instantAt_pyongyang {n x : ℤ} {minute : ℕ} (small : minute < 1440)
    (at_ : instantAt pyongyang fridayNightCompiled n minute = .ok x) :
    n < year100 ∧ x < 1000000000000 ∨ n * 86400000 + minute * 60000 - 32400000 ≤ x ∧
      x ≤ n * 86400000 + minute * 60000 - 30600000 := by
  simp only [instantAt, if_neg (show ¬ minute ≥ 1440 by omega), zonedDateMinuteToUtc,
    if_neg (show ¬ minute > 1440 by omega), if_neg (show ¬ minute = 1440 by omega), pure_bind, bind_ok_iff,
    show pyongyang.resolve fridayNightCompiled.tz = some pyongyangZone from rfl, pure_ok_iff] at at_
  obtain ⟨ymd, text, date, parsed, rfl⟩ := at_
  obtain ⟨rfl, -⟩ := ymdOfDay_parse n ymd date text parsed
  obtain ⟨t, same⟩ := zonedWallClockToUtc_offset (ofDay n).year (ofDay n).month
    (ofDay n).day (minute / 60) (minute % 60) 0 pyongyangZone
  have offset : 30600000 ≤ pyongyangZone.offset t ∧ pyongyangZone.offset t ≤ 32400000 := by
    simp only [pyongyangZone]
    split <;> omega
  rw [same]
  by_cases late : year100 ≤ n
  · rw [dateUTC_ofDay n minute late, DAY_MS, MINUTE_MS]
    omega
  · left
    have early : (ofDay n).year < 100 :=
      daysBeforeYear_strictMono.lt_iff_lt.mp ((yearOf_spec n).1.trans_lt (not_le.mp late))
    obtain ⟨⟨low, high, -, inMonth⟩, year, -⟩ := parseYmd_valid ymd _ parsed
    have months := daysInMonth_le (isLeap (ofDay n).year) (ofDay n).month low high
    have years := daysBeforeYear_strictMono.monotone (show 1900 + (ofDay n).year ≤ 1999 by omega)
    have last : daysBeforeYear 1999 = 10592 := by decide
    have bounds := daysBeforeMonth_bounds (isLeap (1900 + (ofDay n).year)) (ofDay n).month
    have leap := leapDay_bounds (isLeap (1900 + (ofDay n).year))
    simp only [dateUTC, if_pos (show 0 ≤ (ofDay n).year ∧ (ofDay n).year ≤ 99 by omega),
      show ((ofDay n).month - 1 : ℤ) / 12 = 0 by omega,
      show ((((ofDay n).month : ℤ) - 1) % 12).toNat + 1 = (ofDay n).month by omega, toDay, add_zero,
      DAY_MS, MINUTE_MS]
    omega

theorem fridayNight_windows {n : ℤ} {w : Segment} (window : DayWindow fridayNight fridayNightCompiled n w) :
    n % 7 = 1 ∧ (w = (1320, 1380) ∨ w = (1350, 1410)) ∨ n % 7 = 2 ∧ w = (0, 5) := by
  obtain ⟨entry, member, day, -, rfl⟩ := (mem_rawSegments _).mp window.2
  simp only [weekdayOfDay] at day
  simp only [fridayNight, List.mem_cons, List.not_mem_nil, or_false] at member
  rcases member with rfl | rfl | rfl <;> dsimp only at day
  · exact .inl ⟨by omega, .inl (by decide)⟩
  · exact .inl ⟨by omega, .inr (by decide)⟩
  · exact .inr ⟨by omega, by decide⟩

theorem fridayNight_clock :
    ((instantAt pyongyang fridayNightCompiled 17655 1320).toOption = some 1525440600000 ∧
      (instantAt pyongyang fridayNightCompiled 17655 1380).toOption = some 1525444200000) ∧
    ((instantAt pyongyang fridayNightCompiled 17655 1350).toOption = some 1525442400000 ∧
      (instantAt pyongyang fridayNightCompiled 17655 1410).toOption = some 1525446000000) ∧
    ((instantAt pyongyang fridayNightCompiled 17656 0).toOption = some 1525446000000 ∧
      (instantAt pyongyang fridayNightCompiled 17656 5).toOption = some 1525446300000) ∧
    (localDay pyongyang fridayNightCompiled 1525442400000).toOption = some 17655 := by
  decide

theorem fridayNight_days {n x y : ℤ} {w : Segment} (window : DayWindow fridayNight fridayNightCompiled n w)
    (spans : Spans pyongyang fridayNightCompiled n w x y) (opens : x < 1525446300000)
    (closes : 1525442400000 < y) : n = 17655 ∨ n = 17656 := by
  have days := fridayNight_windows window
  have century : year100 = -683003 := by decide
  have small : w.1 < 1440 ∧ w.2 < 1440 := by
    rcases days with ⟨-, rfl | rfl⟩ | ⟨-, rfl⟩ <;> decide
  have first := instantAt_pyongyang small.1 spans.1
  have last := instantAt_pyongyang small.2 spans.2
  omega

theorem fridayNight_eve {n : ℤ} (eve : FromEve pyongyang fridayNightCompiled 1525442400000 n) : 17654 ≤ n := by
  obtain ⟨day, known, low⟩ := eve
  rw [ok_of_toOption fridayNight_clock.2.2.2] at known
  cases known
  omega

theorem fridayNight_inStep : InStep pyongyang fridayNight fridayNightCompiled 1525442400000 1525446300000 where
  eve := by
    intro n w x y window spans _ opens closes
    have days := fridayNight_days window spans opens closes
    exact ⟨17655, ok_of_toOption fridayNight_clock.2.2.2, by omega⟩
  joined := by
    intro n v w x y x' y' eve due first second different starts joins spans spans'
    obtain ⟨m, u, z, later, window, opens, before⟩ := due
    have low := fridayNight_eve eve
    have week := fridayNight_windows window
    have small : u.1 < 1440 := by
      rcases week with ⟨-, rfl | rfl⟩ | ⟨-, rfl⟩ <;> decide
    have near := instantAt_pyongyang small opens
    have century : year100 = -683003 := by decide
    have early : n ≤ 17656 := by
      rw [century] at near
      omega
    have friday : n = 17655 ∧ v = (1320, 1380) ∧ w = (1350, 1410) := by
      rcases fridayNight_windows first with ⟨day, rfl | rfl⟩ | ⟨day, rfl⟩ <;>
        rcases fridayNight_windows second with ⟨day', rfl | rfl⟩ | ⟨day', rfl⟩ <;>
          simp at different starts joins ⊢
      omega
    obtain ⟨rfl, rfl, rfl⟩ := friday
    obtain ⟨⟨start, stop⟩, ⟨start', stop'⟩, -⟩ := fridayNight_clock
    cases (ok_of_toOption start).symm.trans spans.1
    cases (ok_of_toOption stop).symm.trans spans.2
    cases (ok_of_toOption start').symm.trans spans'.1
    cases (ok_of_toOption stop').symm.trans spans'.2
    decide
  ascending := by
    intro m n v w x y x' y' eve before first second spans length spans' length' opens closes
    have low := fridayNight_eve eve
    have last := fridayNight_days second spans' opens closes
    have days := fridayNight_windows first
    obtain ⟨rfl, small⟩ : m = 17655 ∧ v.1 ≤ 1350 := by
      rcases days with ⟨day, rfl | rfl⟩ | ⟨day, rfl⟩ <;> simp <;> omega
    have near := instantAt_pyongyang (by omega) spans.1
    have century : year100 = -683003 := by decide
    omega

theorem fridayNight_inside : SpanInside pyongyang fridayNightCompiled 1525442400000 1525446300000 := by
  obtain ⟨-, -, ⟨opens, closes⟩, today⟩ := fridayNight_clock
  refine .inr ⟨17656, ⟨17655, ok_of_toOption today, by decide, by decide, ?_⟩,
    ⟨1525446000000, 1525446300000, by decide⟩, ⟨by simp [OnHoliday, fridayNightCompiled], (0, 5), by decide,
      ok_of_toOption opens, ok_of_toOption closes⟩, le_rfl⟩
  intro k low high
  have days : k = 17654 ∨ k = 17655 ∨ k = 17656 := by omega
  rcases days with rfl | rfl | rfl
  · exact ⟨[], ok_of_toOption (by decide)⟩
  · exact ⟨[⟨1525440600000, 1525446000000, by decide⟩], ok_of_toOption (by decide)⟩
  · exact ⟨[⟨1525446000000, 1525446300000, by decide⟩], ok_of_toOption (by decide)⟩

end Droplet.BusinessTime
