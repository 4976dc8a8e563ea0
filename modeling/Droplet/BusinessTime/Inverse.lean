import Droplet.BusinessTime.Scan

/-! `addBusinessMs` and `businessMsBetween` are inverse to each other from one start:
both read the same scan, so nothing depends on the order in which it lists its
intervals. -/

namespace Droplet.BusinessTime

open ZonedTime IntervalScan Fallible

variable (intl : Intl)

variable {calendar : Option BusinessCalendar}

theorem Covers.shorten {a b v u : ℤ} (covers : Covers intl a b calendar v) (after : a ≤ u)
    (within : u ≤ b) : ∃ w, Covers intl a u calendar w ∧ 0 ≤ w ∧ w ≤ v := by
  cases covers with
  | always => exact ⟨u - a, .always, by omega, by omega⟩
  | never compiled empty => exact ⟨0, .never compiled empty, le_rfl, le_rfl⟩
  | @scanned cal c list compiled hours list_eq reached =>
    obtain ⟨iv, member, far⟩ := reached
    exact ⟨covered a list u, .scanned compiled hours list_eq ⟨iv, member, within.trans far⟩,
      covered_nonneg a u list, covered_mono a list within⟩

theorem businessMsBetween_nonneg (a b v : ℤ) (calendar : Option BusinessCalendar) (order : a ≤ b)
    (returns : businessMsBetween intl a b calendar = .ok v) : 0 ≤ v := by
  rcases lt_or_eq_of_le order with less | equal
  · have covers := (businessMsBetween_ok_iff intl a b v calendar less).mp returns
    obtain ⟨w, _, low, high⟩ := covers.shorten intl order le_rfl
    omega
  · subst equal
    rw [businessMsBetween_self] at returns
    exact le_of_eq (Except.ok.inj returns)

/-- A span that is measured is measured up to every instant inside it, and the measure
does not decrease on the way. -/
theorem businessMsBetween_shorten (a b v u : ℤ) (calendar : Option BusinessCalendar)
    (returns : businessMsBetween intl a b calendar = .ok v) (after : a ≤ u) (within : u ≤ b) :
    ∃ w, businessMsBetween intl a u calendar = .ok w ∧ 0 ≤ w ∧ w ≤ v := by
  rcases lt_or_eq_of_le after with less | equal
  · have covers := (businessMsBetween_ok_iff intl a b v calendar (by omega)).mp returns
    obtain ⟨w, shorter, low, high⟩ := covers.shorten intl after within
    exact ⟨w, (businessMsBetween_ok_iff intl a u w calendar less).mpr shorter, low, high⟩
  · subst equal
    exact ⟨0, businessMsBetween_self intl a calendar, le_rfl,
      businessMsBetween_nonneg intl a b v calendar within returns⟩

@[simp] theorem addBusinessMs_zero (start : ℤ) (calendar : Option BusinessCalendar) :
    addBusinessMs intl start 0 calendar = .ok start := by
  simp [addBusinessMs]

theorem Reaches.covers {start length t : ℤ} (reaches : Reaches intl start length calendar t)
    (positive : 0 < length) : start < t ∧ Covers intl start t calendar length := by
  cases reaches with
  | always =>
    have covers : Covers intl start (start + length) none (start + length - start) := .always
    rw [add_sub_cancel_left] at covers
    exact ⟨by omega, covers⟩
  | @scanned cal c list t compiled hours list_eq least =>
    obtain ⟨total, after, reached⟩ := least_covered start length t list least
    exact ⟨after, total ▸ .scanned compiled hours list_eq reached⟩

theorem Reaches.before {start length t u : ℤ} (reaches : Reaches intl start length calendar t)
    (early : u < t) : ∃ w, Covers intl start u calendar w ∧ w < length := by
  cases reaches with
  | always => exact ⟨u - start, .always, by omega⟩
  | @scanned cal c list t compiled hours list_eq least =>
    obtain ⟨_, _, iv, member, far⟩ := least_covered start length t list least
    refine ⟨covered start list u, .scanned compiled hours list_eq ⟨iv, member, by omega⟩, ?_⟩
    by_contra enough
    have bound : t ≤ u := least.2 (not_lt.mp enough)
    omega

theorem between_of_add (start length t : ℤ) (calendar : Option BusinessCalendar)
    (nonneg : 0 ≤ length) (returns : addBusinessMs intl start length calendar = .ok t) :
    start ≤ t ∧ businessMsBetween intl start t calendar = .ok length := by
  rcases lt_or_eq_of_le nonneg with positive | zero
  · have reaches := (addBusinessMs_ok_iff intl start length t calendar positive).mp returns
    obtain ⟨after, covers⟩ := reaches.covers intl positive
    exact ⟨after.le, (businessMsBetween_ok_iff intl start t length calendar after).mpr covers⟩
  · subst zero
    rw [addBusinessMs_zero] at returns
    obtain rfl := Except.ok.inj returns
    exact ⟨le_rfl, businessMsBetween_self intl start calendar⟩

theorem between_before_add (start length t u : ℤ) (calendar : Option BusinessCalendar)
    (nonneg : 0 ≤ length) (returns : addBusinessMs intl start length calendar = .ok t)
    (after : start ≤ u) (early : u < t) : ∃ v, businessMsBetween intl start u calendar = .ok v ∧ v < length := by
  rcases lt_or_eq_of_le nonneg with positive | zero
  · rcases lt_or_eq_of_le after with less | equal
    · have reaches := (addBusinessMs_ok_iff intl start length t calendar positive).mp returns
      obtain ⟨v, covers, small⟩ := reaches.before intl early
      exact ⟨v, (businessMsBetween_ok_iff intl start u v calendar less).mpr covers, small⟩
    · subst equal
      exact ⟨0, businessMsBetween_self intl start calendar, positive⟩
  · subst zero
    rw [addBusinessMs_zero] at returns
    obtain rfl := Except.ok.inj returns
    omega

/-- The instant returned is the least at which the length asked for is measured. -/
theorem addBusinessMs_least_inverse (start t : ℤ) (m : ℕ) (calendar : Option BusinessCalendar)
    (returns : addBusinessMs intl start m calendar = .ok t) :
    businessMsBetween intl start t calendar = .ok (m : ℤ) ∧
      ∀ u, start ≤ u → u < t →
        ∃ v, businessMsBetween intl start u calendar = .ok v ∧ v < (m : ℤ) := by
  refine ⟨(between_of_add intl start m t calendar (Int.natCast_nonneg m) returns).2, ?_⟩
  intro u after early
  exact between_before_add intl start m t u calendar (Int.natCast_nonneg m) returns after early

def utcZone : Zone := ⟨"UTC", fun _ => 0⟩

def utcOffice : BusinessCalendar :=
  ⟨"UTC", [⟨1, "09:00", "17:00"⟩, ⟨2, "09:00", "17:00"⟩, ⟨3, "09:00", "17:00"⟩,
    ⟨4, "09:00", "17:00"⟩, ⟨5, "09:00", "17:00"⟩], []⟩

-- Eight hours from Friday 2026-10-02 18:00 fill Monday's window: due at its close.
theorem addBusinessMs_least_inverse_at_close :
    let runtime := Intl.only utcZone (by decide)
    businessMsBetween runtime 1790964000000 1791219600000 (some utcOffice) =
        .ok ((28800000 : ℕ) : ℤ) ∧
      ∀ u, 1790964000000 ≤ u → u < 1791219600000 →
        ∃ v, businessMsBetween runtime 1790964000000 u (some utcOffice) = .ok v ∧
          v < ((28800000 : ℕ) : ℤ) :=
  addBusinessMs_least_inverse (Intl.only utcZone (by decide)) 1790964000000 1791219600000 28800000
    (some utcOffice) (ok_of_toOption (by decide))

end Droplet.BusinessTime
