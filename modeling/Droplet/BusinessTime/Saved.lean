import Droplet.BusinessTime.Compile

/-! Saving a calendar twice saves the same one: what `validateCalendarForSave` returns is
already in normal form. -/

namespace Droplet.BusinessTime

open ZonedTime Fallible

variable (intl : Intl)

section EraseDups

variable {α : Type} [BEq α] [LawfulBEq α]

theorem eraseDups_of_nodup (list : List α) (distinct : list.Nodup) : list.eraseDups = list := by
  induction list with
  | nil => rfl
  | cons x rest ih =>
    obtain ⟨fresh, others⟩ := List.nodup_cons.mp distinct
    have kept : rest.filter (fun y => !y == x) = rest := by
      rw [List.filter_eq_self]
      intro y member
      simp only [Bool.not_eq_true', beq_eq_false_iff_ne]
      intro same
      exact fresh (same ▸ member)
    rw [List.eraseDups_cons, kept, ih others]

theorem eraseDups_nodup (list : List α) : list.eraseDups.Nodup := by
  induction length : list.length using Nat.strong_induction_on generalizing list with
  | _ size ih =>
    cases list with
    | nil => simp
    | cons x rest =>
      have shorter : (rest.filter (fun y => !y == x)).length < size := by
        have bound := List.length_filter_le (fun y => !y == x) rest
        rw [List.length_cons] at length
        omega
      rw [List.eraseDups_cons, List.nodup_cons]
      refine ⟨?_, ih _ shorter _ rfl⟩
      rw [List.mem_eraseDups]
      simp

theorem eraseDups_length_le (list : List α) : list.eraseDups.length ≤ list.length := by
  have distinct := eraseDups_nodup list
  apply List.Subperm.length_le
  apply distinct.subperm
  intro x member
  exact List.mem_eraseDups.mp member

end EraseDups

theorem windowOrder_total : Std.Total windowOrder := by
  constructor
  intro a b
  simp only [windowOrder]
  omega

theorem windowOrder_trans : IsTrans BusinessWindow windowOrder := by
  constructor
  intro a b c first second
  simp only [windowOrder] at *
  omega

theorem checkLengths_ok_iff (windows : List BusinessWindow) (checked : ∀ w ∈ windows, Checked w) :
    checkLengths windows = .ok () ↔
      ∀ w ∈ windows, minutesOf w.start false ≠ minutesOf w.end true := by
  induction windows with
  | nil => simp [checkLengths]
  | cons w rest ih =>
    have others := ih (fun window member => checked window (List.mem_cons_of_mem w member))
    obtain ⟨⟨s, start⟩, e, stop⟩ := checked w List.mem_cons_self
    simp only [checkLengths, start, stop, ok_bind, List.mem_cons, forall_eq_or_imp,
      minutesOf_eq _ _ _ start, minutesOf_eq _ _ _ stop]
    split
    · next same => simp [same]
    · next different => simp [different, others]

structure Saved (calendar : BusinessCalendar) : Prop where
  shaped : Shaped intl calendar
  some_window : calendar.windows.length ≠ 0
  lengths : ∀ w ∈ calendar.windows, minutesOf w.start false ≠ minutesOf w.end true
  canonical : ∃ zone, intl.resolve calendar.timezone = some zone ∧
    zone.canonical = calendar.timezone
  ordered : calendar.windows.Pairwise windowOrder
  sorted : calendar.holidays.Pairwise (· ≤ ·)
  distinct : calendar.holidays.Nodup

theorem Saved.validate (calendar : BusinessCalendar) (saved : Saved intl calendar) :
    validateCalendarForSave intl calendar.toJson = .ok calendar := by
  obtain ⟨zone, resolved, same⟩ := saved.canonical
  have checked : ∀ w ∈ calendar.windows, Checked w :=
    fun w member => (saved.shaped.windows w member).2.2
  have total := windowOrder_total
  have trans := windowOrder_trans
  have shape := (checkShape_ok_iff intl calendar calendar).mpr ⟨rfl, saved.shaped⟩
  have lengths := (checkLengths_ok_iff calendar.windows checked).mpr saved.lengths
  have timezone : canonicalZone intl calendar.timezone = .ok calendar.timezone := by
    simp only [canonicalZone, saved.shaped.zone, if_true, resolved, same]
  simp only [validateCalendarForSave, shape, ok_bind, if_neg saved.some_window, lengths, timezone]
  rw [saved.ordered.insertionSort_eq, eraseDups_of_nodup _ saved.distinct, saved.sorted.insertionSort_eq]
  rfl

theorem canonicalZone_valid (tz timezone : String) (returns : canonicalZone intl tz = .ok timezone) :
    isValidIanaZone intl timezone = true ∧
      ∃ zone, intl.resolve timezone = some zone ∧ zone.canonical = timezone := by
  unfold canonicalZone at returns
  split at returns
  · next valid =>
    cases resolved : intl.resolve tz with
    | none => simp [resolved] at returns
    | some zone =>
      simp only [resolved, Except.ok.injEq] at returns
      subst returns
      have own := intl.resolve_canonical tz zone resolved
      have short := intl.canonical_short tz zone resolved
      have letter : startsWithLetter zone.canonical = true := by
        unfold isValidIanaZone at valid
        split at valid
        · cases valid
        · simp only [resolved, Bool.and_eq_true] at valid
          exact valid.1
      have nonempty : utf16Length zone.canonical ≠ 0 := by
        unfold startsWithLetter at letter
        split at letter
        · next c rest letters =>
          simp only [utf16Length, letters, List.map_cons, List.sum_cons]
          split <;> omega
        · cases letter
      have range : ¬ (utf16Length zone.canonical = 0 ∨ utf16Length zone.canonical > 64) := by
        omega
      refine ⟨?_, zone, own, rfl⟩
      simp only [isValidIanaZone, if_neg range, own, letter, Bool.and_self]
  · cases returns

theorem saved_of_validate (input calendar : BusinessCalendar)
    (accepted : validateCalendarForSave intl input.toJson = .ok calendar) : Saved intl calendar := by
  have total := windowOrder_total
  have trans := windowOrder_trans
  simp only [validateCalendarForSave] at accepted
  obtain ⟨checked, shape, rest⟩ := bind_ok_iff.mp accepted
  obtain ⟨rfl, shaped⟩ := (checkShape_ok_iff intl input checked).mp shape
  by_cases none : checked.windows.length = 0
  · simp [none] at rest
  · simp only [if_neg none] at rest
    obtain ⟨_, lengths, tail⟩ := bind_ok_iff.mp rest
    obtain ⟨timezone, zoneOk, last⟩ := bind_ok_iff.mp tail
    rw [pure_ok_iff] at last
    subst last
    obtain ⟨zone, canonical⟩ := canonicalZone_valid intl _ _ zoneOk
    have different := (checkLengths_ok_iff checked.windows
      (fun w member => (shaped.windows w member).2.2)).mp lengths
    refine ⟨⟨zone, ?_, ?_, ?_, ?_⟩, ?_, ?_, canonical, ?_, ?_, ?_⟩
    · simpa only [List.length_insertionSort] using shaped.fewWindows
    · rw [List.length_insertionSort]
      exact (eraseDups_length_le checked.holidays).trans shaped.fewHolidays
    · intro w member
      exact shaped.windows w ((List.mem_insertionSort windowOrder).mp member)
    · intro h member
      exact shaped.holidays h (List.mem_eraseDups.mp ((List.mem_insertionSort _).mp member))
    · simpa only [List.length_insertionSort] using none
    · intro w member
      exact different w ((List.mem_insertionSort windowOrder).mp member)
    · exact List.pairwise_insertionSort windowOrder _
    · exact List.pairwise_insertionSort _ _
    · exact (List.perm_insertionSort _ _).nodup_iff.mpr (eraseDups_nodup _)

end Droplet.BusinessTime
