import Mathlib

/-! Paths of segments: which path lies under which, where a separator or the end follows. -/

namespace Segments

universe u

variable {α : Type u} {sep : α} {whole part other : List α}

/-- After the part the path ends, or a separator follows. -/
def Under (sep : α) (whole part : List α) : Prop :=
  ∃ rest, whole = part ++ rest ∧ ∀ c ∈ rest.head?, c = sep

theorem Under.trans (first : Under sep whole part) (second : Under sep part other) : Under sep whole other := by
  obtain ⟨rest, rfl, starts⟩ := first
  obtain ⟨between, rfl, begins⟩ := second
  refine ⟨between ++ rest, by rw [List.append_assoc], ?_⟩
  cases between with
  | nil => exact starts
  | cons c between => exact begins

theorem Under.either (first : Under sep whole part) (second : Under sep whole other) :
    Under sep part other ∨ Under sep other part := by
  obtain ⟨rest, is, starts⟩ := first
  obtain ⟨tail, also, begins⟩ := second
  rw [is] at also
  rcases List.append_eq_append_iff.mp also with longer | shorter
  · obtain ⟨middle, rfl, cut⟩ := longer
    refine .inr ⟨middle, rfl, ?_⟩
    cases middle with
    | nil => simp
    | cons c middle => exact fun d there => starts d (cut ▸ there)
  · obtain ⟨middle, rfl, cut⟩ := shorter
    refine .inl ⟨middle, rfl, ?_⟩
    cases middle with
    | nil => simp
    | cons c middle => exact fun d there => begins d (cut ▸ there)

theorem Under.strict (under : Under sep whole part) (differ : whole ≠ part) : part ++ [sep] <+: whole := by
  obtain ⟨rest, rfl, starts⟩ := under
  cases rest with
  | nil => exact absurd (List.append_nil part) differ
  | cons c rest =>
    cases starts c rfl
    exact ⟨rest, by simp⟩

theorem under_of_strict (inside : part ++ [sep] <+: whole) : Under sep whole part ∧ whole ≠ part := by
  obtain ⟨rest, rfl⟩ := inside
  refine ⟨⟨sep :: rest, by simp, by simp⟩, ?_⟩
  intro same
  have longer := congrArg List.length same
  simp at longer

variable [DecidableEq α]

def strip (sep : α) (path : List α) : List α := path.rdropWhile (· = sep)

theorem strip_append (sep : α) (path : List α) : ∃ seps, path = strip sep path ++ seps ∧ ∀ c ∈ seps, c = sep := by
  refine ⟨path.rtakeWhile (· = sep), ?_, ?_⟩
  · rw [strip, List.rdropWhile_append_rtakeWhile]
  · intro c there
    simpa using List.mem_rtakeWhile_imp there

theorem under_strip (closed : part.getLast? ≠ some sep) :
    Under sep (strip sep whole) part ↔ Under sep whole part := by
  obtain ⟨seps, is, all⟩ := strip_append sep whole
  constructor
  · intro under
    rw [is]
    refine Under.trans ⟨seps, rfl, ?_⟩ under
    intro c first
    exact all c (List.mem_of_mem_head? first)
  · intro under
    rw [is] at under
    obtain ⟨rest, cut, starts⟩ := under
    rcases List.append_eq_append_iff.mp cut with longer | shorter
    · -- the part would end among the separators
      obtain ⟨middle, rfl, tail⟩ := longer
      cases end_ : middle.getLast? with
      | none =>
        rw [List.getLast?_eq_none_iff] at end_
        exact ⟨[], by rw [end_, List.append_nil, List.append_nil], by simp⟩
      | some c =>
        have last : c = sep := all c (tail ▸ List.mem_append_left _ (List.mem_of_getLast? end_))
        refine absurd ?_ closed
        rw [List.getLast?_append, end_, last]
        rfl
    · obtain ⟨middle, whole_, rfl⟩ := shorter
      refine ⟨middle, whole_, ?_⟩
      cases middle with
      | nil => simp
      | cons c middle => exact starts

end Segments
