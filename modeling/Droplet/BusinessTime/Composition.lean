import Droplet.BusinessTime.Clock
import Droplet.BusinessTime.Measure
import Droplet.BusinessTime.Inverse

/-! Business time composes. Every call starts its scan one local day before its own start,
so two calls read different days; on a clock that only goes forward both measure the
same set of instants. -/

namespace Droplet.BusinessTime

open ZonedTime IntervalScan Fallible

variable (intl : Intl)

/-- In the extent of a merged segment of some day from `lo` on. -/
def OpenFrom (c : Compiled) (lo t : ℤ) : Prop :=
  ∃ n iv, lo ≤ n ∧ Opens intl c n iv ∧ iv.Holds t

theorem instantAt_next (c : Compiled) (n : ℤ) (minute : ℕ) (small : minute < 1440) :
    instantAt intl c n (minute + 1440) = instantAt intl c (n + 1) minute := by
  have late : minute + 1440 ≥ 1440 := by omega
  have early : ¬ minute ≥ 1440 := by omega
  simp only [instantAt, if_pos late, if_neg early, Nat.add_sub_cancel]

section Strict

variable {intl} {calendar : BusinessCalendar} {c : Compiled} {lo floor : ℤ}

theorem Opens.ends (compiled : compile intl calendar = .ok c) {n : ℤ} {iv : Interval} (opens : Opens intl c n iv) :
    (∃ s, s < 1440 ∧ instantAt intl c n s = .ok iv.s) ∧
      ∃ m e, n ≤ m ∧ m ≤ n + 1 ∧ e < 1440 ∧ instantAt intl c m e = .ok iv.e := by
  obtain ⟨_, segment, member, start, stop⟩ := opens
  have bounded := segmentsOf_bounded intl calendar c n compiled segment member
  refine ⟨⟨segment.1, bounded.1, start⟩, ?_⟩
  by_cases late : segment.2 < 1440
  · exact ⟨n, segment.2, le_rfl, by omega, late, stop⟩
  · have small : segment.2 - 1440 < 1440 := by
      have high := bounded.2.2
      omega
    refine ⟨n + 1, segment.2 - 1440, by omega, le_rfl, small, ?_⟩
    rw [← instantAt_next intl c n _ small, Nat.sub_add_cancel (not_lt.mp late)]
    exact stop

section

variable (clock : StrictClock intl c lo floor)
include clock

section

variable (compiled : compile intl calendar = .ok c)
include compiled

theorem StrictClock.starts {n m : ℤ} {first second : Interval}
    (from_lo : lo ≤ n) (before : n < m) (opens : Opens intl c n first)
    (later : Opens intl c m second) : first.s < second.s := by
  obtain ⟨⟨s, small, start⟩, _⟩ := opens.ends compiled
  obtain ⟨⟨r, little, later⟩, _⟩ := later.ends compiled
  exact clock.strict n m s r _ _ from_lo small little (Or.inl before) start later

theorem StrictClock.closes {n m : ℤ} {iv : Interval} {r : ℕ} {y : ℤ}
    (from_lo : lo ≤ n) (before : n + 1 < m) (opens : Opens intl c n iv) (small : r < 1440)
    (clockAt : instantAt intl c m r = .ok y) : iv.e < y := by
  obtain ⟨_, k, e, low, high, little, stop⟩ := opens.ends compiled
  exact clock.strict k m e r _ _ (by omega) little small (Or.inl (by omega)) stop clockAt

/-- What a scan from an instant reads of the days from `lo` on. -/
theorem openFrom_iff (a b t : ℤ) (after : floor ≤ a)
    (reached : ∃ n iv, Scanned intl c a n ∧ Opens intl c n iv ∧ b ≤ iv.e) (low : a ≤ t) (high : t < b) :
    OpenFrom intl c lo t ↔ ∃ n, Scanned intl c a n ∧ (∃ iv, Opens intl c n iv ∧ iv.Holds t) ∧
      ∀ m, Scanned intl c a m → m < n → ∀ iv, Opens intl c m iv → iv.s ≤ t := by
  obtain ⟨last, far, ⟨day, dayOk, first, limit, reads⟩, farOpens, farEnd⟩ := reached
  obtain ⟨above, ⟨midnight, midnightAt⟩, midnights⟩ := clock.agrees a day after dayOk
  have reachedMidnight : midnight ≤ a :=
    (midnights day midnight (by omega) midnightAt).mpr le_rfl
  have from_lo : ∀ m, Scanned intl c a m → lo ≤ m := by
    intro m scanned
    obtain ⟨other, otherOk, lower, _⟩ := scanned
    obtain rfl := Except.ok.inj (dayOk.symm.trans otherOk)
    omega
  have earlier : ∀ n iv, Opens intl c n iv → iv.Holds t →
      ∀ m, Scanned intl c a m → m < n → ∀ other, Opens intl c m other → other.s ≤ t := by
    intro n iv opens holds m scanned before other otherOpens
    have starts := clock.starts compiled (from_lo m scanned) before otherOpens opens
    exact starts.le.trans holds.1
  constructor
  · intro opened
    obtain ⟨n, iv, lower, opens, holds⟩ := opened
    have started : day - 1 ≤ n := by
      by_contra long
      have before : n + 1 < day := by omega
      have ended := clock.closes compiled lower before opens (by decide) midnightAt
      have running := holds.2
      omega
    by_cases within : n ≤ last
    · have scanned : Scanned intl c a n :=
        ⟨day, dayOk, started, by omega, fun k from_k to_k => reads k from_k (by omega)⟩
      exact ⟨n, scanned, ⟨iv, opens, holds⟩, earlier n iv opens holds⟩
    · -- The window of a later day is still covered by the one that reaches `b`.
      have starts := clock.starts compiled (by omega) (not_le.mp within) farOpens opens
      have inFar : far.Holds t := ⟨starts.le.trans holds.1, by omega⟩
      exact ⟨last, ⟨day, dayOk, first, limit, reads⟩, ⟨far, farOpens, inFar⟩, earlier last far farOpens inFar⟩
  · intro found
    obtain ⟨n, scanned, ⟨iv, opens, holds⟩, _⟩ := found
    exact ⟨n, iv, from_lo n scanned, opens, holds⟩

theorem covered_eq_openFrom (a b : ℤ) (list : List Interval)
    (after : floor ≤ a) (list_eq : listed intl c a = .ok list) (order : a ≤ b)
    (reached : ∃ iv ∈ list, b ≤ iv.e) : covered a list b = measure (OpenFrom intl c lo) a b := by
  obtain ⟨iv, member, far⟩ := reached
  obtain ⟨n, scanned, opens⟩ := (mem_listed intl c a list list_eq iv).mp member
  apply (covered_eq_measure_iff (OpenFrom intl c lo) a b list).mpr _ b order le_rfl
  intro t low high
  rw [counted_iff, openAt_listed intl c a t list list_eq,
    openFrom_iff clock compiled a b t after ⟨n, iv, scanned, opens, far⟩ low high]
  simp [low]

theorem scanned_later (a t n : ℤ) (iv : Interval) (after : floor ≤ a)
    (scanned : Scanned intl c a n) (opens : Opens intl c n iv) (low : a ≤ t) (high : t ≤ iv.e) :
    Scanned intl c t n := by
  obtain ⟨day, dayOk, first, limit, reads⟩ := scanned
  obtain ⟨above, ⟨midnight, midnightAt⟩, midnights⟩ := clock.agrees a day after dayOk
  have reached : midnight ≤ a := (midnights day midnight (by omega) midnightAt).mpr le_rfl
  obtain ⟨_, m, e, lower, upper, small, stop⟩ := opens.ends compiled
  obtain ⟨k, kOk⟩ := clock.dated t m e iv.e (by omega) (by omega) small stop high
  obtain ⟨aboveK, ⟨other, otherAt⟩, midnightsK⟩ := clock.agrees t k (by omega) kOk
  have later : day ≤ k := (midnightsK day midnight (by omega) midnightAt).mp (by omega)
  have close : k - 1 ≤ n := by
    by_contra long
    have before : n + 1 < k := by omega
    have ended := clock.closes compiled (by omega) before opens (by decide) otherAt
    have passed := (midnightsK k other (by omega) otherAt).mpr le_rfl
    omega
  refine ⟨k, kOk, close, by omega, ?_⟩
  intro j from_j to_j
  exact reads j (by omega) to_j

end

end

end Strict

/-- The measure of a span in either direction. -/
noncomputable def signedMeasure (P : ℤ → Prop) (a b : ℤ) : ℤ :=
  if a ≤ b then measure P a b else -measure P b a

theorem signedMeasure_eq (P : ℤ → Prop) (z a b : ℤ) (below : z ≤ a) (under : z ≤ b) :
    signedMeasure P a b = measure P z b - measure P z a := by
  simp only [signedMeasure]
  split
  · next order =>
    have whole := measure_add P z a b below order
    omega
  · next order =>
    have whole := measure_add P z b a under (by omega)
    omega

theorem signedMeasure_add (P : ℤ → Prop) (a b c : ℤ) :
    signedMeasure P a b + signedMeasure P b c = signedMeasure P a c := by
  have first : min a (min b c) ≤ a := min_le_left a (min b c)
  have second : min a (min b c) ≤ b := (min_le_right a (min b c)).trans (min_le_left b c)
  have third : min a (min b c) ≤ c := (min_le_right a (min b c)).trans (min_le_right b c)
  calc
    signedMeasure P a b + signedMeasure P b c =
        (measure P (min a (min b c)) b - measure P (min a (min b c)) a) +
          (measure P (min a (min b c)) c - measure P (min a (min b c)) b) := by
      rw [signedMeasure_eq P _ a b first second, signedMeasure_eq P _ b c second third]
    _ = measure P (min a (min b c)) c - measure P (min a (min b c)) a := by ring
    _ = signedMeasure P a c := (signedMeasure_eq P _ a c first third).symm

theorem exists_measure (calendar : Option BusinessCalendar) (floor : ℤ) (regular : Regular intl calendar floor) :
    ∃ P : ℤ → Prop, ∀ a b v, floor ≤ a → a ≤ b →
      businessMsBetween intl a b calendar = .ok v → v = measure P a b := by
  have returned : ∀ a b v, a ≤ b → businessMsBetween intl a b calendar = .ok v →
      a = b ∧ v = 0 ∨ a < b ∧ Covers intl a b calendar v := by
    intro a b v order returns
    rcases lt_or_eq_of_le order with less | equal
    · exact Or.inr ⟨less, (businessMsBetween_ok_iff intl a b v calendar less).mp returns⟩
    · subst equal
      rw [businessMsBetween_self] at returns
      exact Or.inl ⟨rfl, (Except.ok.inj returns).symm⟩
  have suffices_covers : ∀ P : ℤ → Prop, (∀ a b v, floor ≤ a → a < b →
      Covers intl a b calendar v → v = measure P a b) → ∀ a b v, floor ≤ a → a ≤ b →
      businessMsBetween intl a b calendar = .ok v → v = measure P a b := by
    intro P values a b v after order returns
    rcases returned a b v order returns with ⟨equal, zero⟩ | ⟨less, covers⟩
    · subst equal
      rw [measure_self, zero]
    · exact values a b v after less covers
  cases calendar with
  | none =>
    refine ⟨fun _ => True, suffices_covers _ ?_⟩
    intro a b v _ less covers
    cases covers
    rw [measure_true a b less.le]
  | some cal =>
    cases compiled : compile intl cal with
    | error failure =>
      refine ⟨fun _ => False, suffices_covers _ ?_⟩
      intro a b v _ _ covers
      obtain ⟨c, other, _⟩ := covers.compiled
      rw [compiled] at other
      cases other
    | ok c =>
      obtain ⟨lo, clock⟩ := regular cal rfl c compiled
      refine ⟨OpenFrom intl c lo, suffices_covers _ ?_⟩
      intro a b v after less covers
      obtain ⟨other, same, value⟩ := covers.compiled
      rw [compiled] at same
      obtain rfl := Except.ok.inj same
      rcases value with ⟨empty, zero⟩ | ⟨list, list_eq, reached, equal⟩
      · rw [zero, measure_congr _ (fun _ => False) a b, measure_false]
        intro t _ _
        simp only [iff_false]
        intro opened
        obtain ⟨n, iv, _, opens, _⟩ := opened
        exact opens_of_empty intl cal c n iv compiled empty opens
      · rw [equal]
        exact covered_eq_openFrom clock compiled a b list after list_eq less.le reached

/-- Splitting a span at any instant neither loses nor gains time, in either direction. -/
theorem businessMsBetween_add (a b c x y z floor : ℤ) (calendar : Option BusinessCalendar)
    (regular : Regular intl calendar floor) (fromA : floor ≤ a) (fromB : floor ≤ b)
    (fromC : floor ≤ c) (first : businessMsBetween intl a b calendar = .ok x)
    (second : businessMsBetween intl b c calendar = .ok y)
    (whole : businessMsBetween intl a c calendar = .ok z) : x + y = z := by
  obtain ⟨P, values⟩ := exists_measure intl calendar floor regular
  have signed : ∀ a b v, floor ≤ a → floor ≤ b → businessMsBetween intl a b calendar = .ok v →
      v = signedMeasure P a b := by
    intro a b v fromA fromB returns
    simp only [signedMeasure]
    split
    · next order => exact values a b v fromA order returns
    · next order =>
      have back := values b a (-v) fromB (by omega)
        ((businessMsBetween_swap intl a b v calendar).mp returns)
      omega
  calc
    x + y = signedMeasure P a b + signedMeasure P b c := by
      rw [signed a b x fromA fromB first, signed b c y fromB fromC second]
    _ = signedMeasure P a c := signedMeasure_add P a b c
    _ = z := (signed a c z fromA fromC whole).symm

theorem exists_least_covered (pos m u : ℤ) (list : List Interval) (positive : 0 < m)
    (reached : m ≤ covered pos list u) : ∃ t, IsLeast {u | m ≤ covered pos list u} t ∧ t ≤ u := by
  have bounded : ∀ z, m ≤ covered pos list z → pos ≤ z := by
    intro z enough
    by_contra early
    rw [covered_before_pos pos z list (by omega)] at enough
    omega
  obtain ⟨t, member, least⟩ := Int.exists_least_of_bdd ⟨pos, bounded⟩ ⟨u, reached⟩
  exact ⟨t, ⟨member, least⟩, least u reached⟩

theorem Reaches.rest {start first second t floor : ℤ} {calendar : Option BusinessCalendar}
    (regular : Regular intl calendar floor) (after : floor ≤ start) (some_first : 0 < first)
    (some_second : 0 < second) (reaches : Reaches intl start (first + second) calendar t) :
    ∃ middle, Reaches intl start first calendar middle ∧ Reaches intl middle second calendar t := by
  cases reaches with
  | always =>
    refine ⟨start + first, .always, ?_⟩
    rw [← add_assoc]
    exact .always
  | @scanned cal c list t compiled hours list_eq least =>
    obtain ⟨lo, clock⟩ := regular cal rfl c compiled
    obtain ⟨total, _, iv, member, far⟩ := least_covered start (first + second) t list least
    obtain ⟨middle, leastMiddle, early⟩ :=
      exists_least_covered start first t list some_first (by omega)
    obtain ⟨part, later, _⟩ := least_covered start first middle list leastMiddle
    obtain ⟨n, scanned, opens⟩ := (mem_listed intl c start list list_eq iv).mp member
    have scannedLater := scanned_later clock compiled start middle n iv after scanned opens
      later.le (early.trans far)
    obtain ⟨day, dayOk, _⟩ := id scannedLater
    have rest_eq := (listed_ok_iff intl c middle _).mpr ⟨day, dayOk, rfl⟩
    have restMember := (mem_listed intl c middle _ rest_eq iv).mpr ⟨n, scannedLater, opens⟩
    -- Both scans measure the same set, so from `middle` on they differ by `first`.
    have split : ∀ u, middle ≤ u → u ≤ t → covered start list u = first +
        covered middle (yielded (scanDays intl c (MAX_SCAN_DAYS + 1) (day - 1))) u := by
      intro u low high
      have upToMiddle := covered_eq_openFrom clock compiled start middle list after list_eq later.le
        ⟨iv, member, early.trans far⟩
      have fromMiddle := covered_eq_openFrom clock compiled middle u _ (by omega) rest_eq low
        ⟨iv, restMember, high.trans far⟩
      calc
        covered start list u = measure (OpenFrom intl c lo) start u :=
          covered_eq_openFrom clock compiled start u list after list_eq (by omega)
            ⟨iv, member, high.trans far⟩
        _ = measure (OpenFrom intl c lo) start middle + measure (OpenFrom intl c lo) middle u :=
          (measure_add _ start middle u later.le low).symm
        _ = first + covered middle (yielded (scanDays intl c (MAX_SCAN_DAYS + 1) (day - 1))) u := by
          rw [← upToMiddle, ← fromMiddle, part]
    refine ⟨middle, .scanned compiled hours list_eq leastMiddle, .scanned compiled hours rest_eq ⟨?_, ?_⟩⟩
    · have atT := split t early le_rfl
      simp only [Set.mem_ofPred_eq]
      omega
    · intro u enough
      simp only [Set.mem_ofPred_eq] at enough
      by_contra before
      by_cases low : middle ≤ u
      · have atU := split u low (by omega)
        have bound : t ≤ u := least.2 (by
          simp only [Set.mem_ofPred_eq]
          omega)
        omega
      · rw [covered_before_pos middle u _ (by omega)] at enough
        omega

theorem addBusinessMs_add (start t floor : ℤ) (m1 m2 : ℕ) (calendar : Option BusinessCalendar)
    (regular : Regular intl calendar floor) (after : floor ≤ start)
    (returns : addBusinessMs intl start ((m1 : ℤ) + m2) calendar = .ok t) :
    ∃ middle, addBusinessMs intl start m1 calendar = .ok middle ∧
      addBusinessMs intl middle m2 calendar = .ok t := by
  rcases Nat.eq_zero_or_pos m1 with zero | firstPositive
  · refine ⟨start, ?_, ?_⟩
    · rw [zero, Nat.cast_zero, addBusinessMs_zero]
    · simpa [zero] using returns
  rcases Nat.eq_zero_or_pos m2 with zero | secondPositive
  · refine ⟨t, ?_, ?_⟩
    · simpa [zero] using returns
    · rw [zero, Nat.cast_zero, addBusinessMs_zero]
  have some_first : 0 < (m1 : ℤ) := by omega
  have some_second : 0 < (m2 : ℤ) := by omega
  rw [addBusinessMs_ok_iff intl start _ t calendar (by omega)] at returns
  obtain ⟨middle, reaches, rest⟩ := returns.rest intl regular after some_first some_second
  exact ⟨middle, (addBusinessMs_ok_iff intl start m1 middle calendar some_first).mpr reaches,
    (addBusinessMs_ok_iff intl middle m2 t calendar some_second).mpr rest⟩

/-- On a clock that goes forward and agrees with the local day, lengths add up: two
additions in a row are one, and a span is the sum of its parts in any order of the
three instants. -/
theorem business_time_composes (calendar : Option BusinessCalendar) (floor : ℤ)
    (regular : Regular intl calendar floor) :
    (∀ (start t : ℤ) (m1 m2 : ℕ), floor ≤ start →
        addBusinessMs intl start ((m1 : ℤ) + m2) calendar = .ok t →
        ∃ middle, addBusinessMs intl start m1 calendar = .ok middle ∧
          addBusinessMs intl middle m2 calendar = .ok t) ∧
      ∀ a b c x y z : ℤ, floor ≤ a → floor ≤ b → floor ≤ c →
        businessMsBetween intl a b calendar = .ok x →
        businessMsBetween intl b c calendar = .ok y →
        businessMsBetween intl a c calendar = .ok z → x + y = z := by
  constructor
  · intro start t m1 m2 after returns
    exact addBusinessMs_add intl start t floor m1 m2 calendar regular after returns
  · intro a b c x y z fromA fromB fromC first second whole
    exact businessMsBetween_add intl a b c x y z floor calendar regular fromA fromB fromC first
      second whole

theorem utcOffice_regular : Regular (Intl.only utcZone (by decide)) (some utcOffice) ((year100 + 1) * DAY_MS) := by
  intro cal same c compiled
  obtain rfl := Option.some.inj same
  obtain ⟨_, rfl⟩ := (compile_ok_iff _ utcOffice c).mp compiled
  refine ⟨year100, ?_⟩
  rw [← sub_zero ((year100 + 1) * DAY_MS)]
  exact @strictClock_fixed _ _ "UTC" 0 rfl

-- Three hours and five from Friday 2026-10-02 18:00, and Monday 10:00 to Friday 18:00 by way
-- of Monday 12:00.
theorem business_time_composes_over_weekend :
    let runtime := Intl.only utcZone (by decide)
    (∃ middle, addBusinessMs runtime 1790964000000 (10800000 : ℕ) (some utcOffice) = .ok middle ∧
        addBusinessMs runtime middle (18000000 : ℕ) (some utcOffice) = .ok 1791219600000) ∧
      (7200000 : ℤ) + -10800000 = -3600000 := by
  have composes := business_time_composes (Intl.only utcZone (by decide)) (some utcOffice)
    ((year100 + 1) * DAY_MS) utcOffice_regular
  constructor
  · apply composes.1 1790964000000 1791219600000 10800000 18000000 (by decide)
    exact ok_of_toOption (by decide)
  · exact composes.2 1791194400000 1791201600000 1790964000000 _ _ _ (by decide) (by decide)
      (by decide) (ok_of_toOption (by decide)) (ok_of_toOption (by decide))
      (ok_of_toOption (by decide))

end Droplet.BusinessTime
