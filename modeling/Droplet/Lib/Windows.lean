import Mathlib

/-! How many of a list of instants fall within a window, and bounds on every window of one width. -/

namespace Windows

/-- Both ends belong to the window. -/
def within (times : List ℤ) (start width : ℤ) : ℕ :=
  times.countP fun t => decide (start ≤ t ∧ t ≤ start + width)

def since (times : List ℤ) (start : ℤ) : ℕ := times.countP fun t => decide (start ≤ t)

def Bounded (times : List ℤ) (width : ℤ) (cap : ℕ) : Prop := ∀ start, within times start width ≤ cap

variable {times : List ℤ} {width : ℤ} {cap : ℕ} {now : ℤ}

theorem bounded_nil : Bounded [] width cap := fun _ => Nat.zero_le _

theorem since_append (start : ℤ) :
    since (times ++ [now]) start = since times start + if start ≤ now then 1 else 0 := by
  simp [since, List.countP_append, List.countP_singleton]

theorem since_anti {start later : ℤ} (after : start ≤ later) : since times later ≤ since times start := by
  apply List.countP_mono_left
  intro t _ there
  simp only [decide_eq_true_eq] at there ⊢
  exact after.trans there

theorem within_le_since (start : ℤ) : within times start width ≤ since times start := by
  apply List.countP_mono_left
  intro t _ there
  simp only [decide_eq_true_eq] at there ⊢
  exact there.1

/-- One more instant, at the end, where fewer than the cap lie in the window that ends there. -/
theorem Bounded.append (bounded : Bounded times width cap) (room : since times (now - width) < cap) :
    Bounded (times ++ [now]) width cap := by
  intro start
  have before := bounded start
  have one : within (times ++ [now]) start width =
      within times start width + if start ≤ now ∧ now ≤ start + width then 1 else 0 := by
    simp [within, List.countP_append, List.countP_singleton]
  rw [one]
  split
  · rename_i inside
    have fewer : within times start width ≤ since times (now - width) :=
      (within_le_since start).trans (since_anti (by omega))
    omega
  · omega

end Windows
