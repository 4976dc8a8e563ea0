import Mathlib

/-! Relations without cycles: what adding an edge does, and when a set closed under the edges
shows that a vertex is out of reach. -/

namespace Droplet.EdgeGraph

open Relation

variable {α : Type}

/-- No vertex comes back to itself. -/
def Acyclic (edge : α → α → Prop) : Prop := ∀ x, ¬ TransGen edge x x

def With (edge : α → α → Prop) (a b : α) : α → α → Prop := fun x y => edge x y ∨ (x = a ∧ y = b)

theorem Acyclic.mono {edge fewer : α → α → Prop} (acyclic : Acyclic edge)
    (sub : ∀ x y, fewer x y → edge x y) : Acyclic fewer := by
  intro x cycle
  exact acyclic x (TransGen.mono sub x x cycle)

theorem path_with (edge : α → α → Prop) (a b x y : α) (path : TransGen (With edge a b) x y) :
    TransGen edge x y ∨ (ReflTransGen edge x a ∧ ReflTransGen edge b y) := by
  induction path with
  | single step =>
    rcases step with old | ⟨rfl, rfl⟩
    · exact .inl (.single old)
    · exact .inr ⟨.refl, .refl⟩
  | tail _ step ih =>
    rcases step with old | ⟨rfl, rfl⟩
    · rcases ih with whole | ⟨front, back⟩
      · exact .inl (whole.tail old)
      · exact .inr ⟨front, back.tail old⟩
    · rcases ih with whole | ⟨front, _⟩
      · exact .inr ⟨whole.to_reflTransGen, .refl⟩
      · exact .inr ⟨front, .refl⟩

theorem Acyclic.with {edge : α → α → Prop} (acyclic : Acyclic edge) (a b : α) (apart : a ≠ b)
    (unreached : ¬ TransGen edge b a) : Acyclic (With edge a b) := by
  intro x cycle
  rcases path_with edge a b x x cycle with old | ⟨front, back⟩
  · exact acyclic x old
  · rcases reflTransGen_iff_eq_or_transGen.mp (back.trans front) with same | path
    · exact apart same
    · exact unreached path

/-- A set that holds the start, with every edge out of it, and never ends at the target. -/
theorem unreached_of_closed (edge : α → α → Prop) (reached : α → Prop) (start target : α)
    (from_start : reached start) (closed : ∀ x y, reached x → edge x y → reached y ∧ y ≠ target) :
    ¬ TransGen edge start target := by
  have inside : ∀ y, TransGen edge start y → reached y ∧ y ≠ target := by
    intro y path
    induction path with
    | single step => exact closed start _ from_start step
    | tail _ step ih => exact closed _ _ ih.1 step
  intro path
  exact (inside target path).2 rfl

end Droplet.EdgeGraph
