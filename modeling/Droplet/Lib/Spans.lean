import Mathlib

/-! Spans of integers one behind the other. A span from `first` to `last` holds nothing where
`last` is less than `first`; a span may be empty without a gap before the next one. -/

namespace Spans

variable {α : Type} (first last : α → ℤ)

/-- The second begins behind the first and does not end before it. -/
structure Abuts (a b : α) : Prop where
  begins : first b = last a + 1
  ends : last a ≤ last b

def Holds (id : ℤ) (span : α) : Prop := first span ≤ id ∧ id ≤ last span

variable {first last}

variable (spans : List α)

theorem ends_before (chain : spans.IsChain (Abuts first last)) : spans.Pairwise (fun a b => last a < first b) := by
  have ordered : spans.Pairwise (fun a b => last a < first b ∧ last a ≤ last b) := by
    have trans : IsTrans α (fun a b => last a < first b ∧ last a ≤ last b) := by
      constructor
      intro a b c left right
      exact ⟨by omega, by omega⟩
    apply List.isChain_iff_pairwise.mp
    apply chain.imp
    intro a b abuts
    have begins := abuts.begins
    exact ⟨by omega, abuts.ends⟩
  exact ordered.imp And.left

theorem covers (head tail : α) (id : ℤ) (chain : spans.IsChain (Abuts first last))
    (atHead : spans.head? = some head) (atTail : spans.getLast? = some tail) (low : first head ≤ id)
    (high : id ≤ last tail) : ∃ (i : ℕ) (span : α), spans[i]? = some span ∧ Holds first last id span := by
  induction spans generalizing head with
  | nil => cases atHead
  | cons span rest ih =>
    rw [List.head?_cons, Option.some.injEq] at atHead
    subst atHead
    by_cases inside : id ≤ last span
    · exact ⟨0, span, rfl, low, inside⟩
    · cases rest with
      | nil =>
        rw [List.getLast?_singleton, Option.some.injEq] at atTail
        subst atTail
        exact absurd high inside
      | cons next others =>
        obtain ⟨abuts, later⟩ := List.isChain_cons_cons.mp chain
        have begins := abuts.begins
        obtain ⟨i, found, at_i, holds⟩ := ih next later rfl
          (by rwa [List.getLast?_cons_cons] at atTail) (by omega)
        exact ⟨i + 1, found, at_i, holds⟩

theorem index_unique (chain : spans.IsChain (Abuts first last)) (id : ℤ) (i j : ℕ) (a b : α)
    (atI : spans[i]? = some a) (atJ : spans[j]? = some b) (inA : Holds first last id a)
    (inB : Holds first last id b) : i = j := by
  have before := List.pairwise_iff_getElem.mp (ends_before spans chain)
  obtain ⟨boundI, rfl⟩ := List.getElem?_eq_some_iff.mp atI
  obtain ⟨boundJ, rfl⟩ := List.getElem?_eq_some_iff.mp atJ
  obtain ⟨lowA, highA⟩ := inA
  obtain ⟨lowB, highB⟩ := inB
  rcases lt_trichotomy i j with less | same | greater
  · have order := before i j boundI boundJ less
    omega
  · exact same
  · have order := before j i boundJ boundI greater
    omega

/-- Every number from the beginning of the first span to the end of the last one is in
exactly one of them. -/
theorem partitions (head tail : α) (chain : spans.IsChain (Abuts first last))
    (atHead : spans.head? = some head) (atTail : spans.getLast? = some tail) (id : ℤ)
    (low : first head ≤ id) (high : id ≤ last tail) :
    ∃! i : ℕ, ∃ span, spans[i]? = some span ∧ Holds first last id span := by
  obtain ⟨i, span, found, holds⟩ := covers spans head tail id chain atHead atTail low high
  refine ⟨i, ⟨span, found, holds⟩, ?_⟩
  intro j other
  obtain ⟨twin, foundToo, holdsToo⟩ := other
  exact index_unique spans chain id j i twin span foundToo found holdsToo holds

end Spans
