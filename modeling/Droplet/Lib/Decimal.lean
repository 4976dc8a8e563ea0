import Mathlib

/-! Decimal text of a fixed width: what zero padding writes, what reading the digits
gives back, and that the text order is the number order. -/

namespace Decimal

/-- Text padded on the left with zeros to `width`. -/
def padStart (width : ℕ) (text : List Char) : List Char :=
  List.replicate (width - text.length) '0' ++ text

def pad (width n : ℕ) : List Char := padStart width (Nat.toDigits 10 n)

/-- Exactly `width` digits, the number taken modulo `10 ^ width`. -/
def fixed : ℕ → ℕ → List Char
  | 0, _ => []
  | width + 1, n => fixed width (n / 10) ++ [Nat.digitChar (n % 10)]

def value (digits : List Char) : ℕ := Nat.ofDigitChars 10 digits 0

@[simp] theorem fixed_length (width n : ℕ) : (fixed width n).length = width := by
  induction width generalizing n with
  | zero => rfl
  | succ width ih => simp [fixed, ih]

theorem fixed_zero (width : ℕ) : fixed width 0 = List.replicate width '0' := by
  induction width with
  | zero => rfl
  | succ width ih =>
    rw [List.replicate_succ', ← ih]
    rfl

theorem pad_eq_fixed (width n : ℕ) (bound : n < 10 ^ (width + 1)) : pad (width + 1) n = fixed (width + 1) n := by
  induction width generalizing n with
  | zero =>
    have small : n < 10 := by simpa using bound
    simp [pad, padStart, fixed, Nat.toDigits_of_lt_base small, Nat.mod_eq_of_lt small]
  | succ width ih =>
    by_cases small : n < 10
    · have zero : n / 10 = 0 := by omega
      rw [fixed, zero, fixed_zero]
      simp [pad, padStart, Nat.toDigits_of_lt_base small, Nat.mod_eq_of_lt small]
    · have tail : n / 10 < 10 ^ (width + 1) := by
        rw [Nat.pow_succ] at bound
        omega
      rw [fixed, ← ih (n / 10) tail]
      simp only [pad, padStart, Nat.toDigits_of_base_le (by decide : 1 < 10) (by omega : 10 ≤ n),
        List.length_append, List.length_singleton, List.append_assoc]
      congr 2
      omega

theorem fixed_isDigit (width n : ℕ) (c : Char) (member : c ∈ fixed width n) : c.isDigit = true := by
  induction width generalizing n with
  | zero => cases member
  | succ width ih =>
    simp only [fixed, List.mem_append, List.mem_singleton] at member
    rcases member with member | rfl
    · exact ih (n / 10) member
    · simp [Nat.isDigit_digitChar, Nat.mod_lt]

theorem value_fixed (width n : ℕ) (bound : n < 10 ^ width) : value (fixed width n) = n := by
  induction width generalizing n with
  | zero =>
    have zero : n = 0 := by simpa using bound
    simp [value, fixed, zero]
  | succ width ih =>
    have tail : n / 10 < 10 ^ width := by
      rw [Nat.pow_succ] at bound
      omega
    have front : Nat.ofDigitChars 10 (fixed width (n / 10)) 0 = n / 10 := ih (n / 10) tail
    simp only [value, fixed]
    rw [Nat.ofDigitChars_append, front, Nat.ofDigitChars_cons_digitChar_of_lt_ten (Nat.mod_lt n (by decide)),
      Nat.ofDigitChars_nil]
    omega

theorem value_append (front back : List Char) :
    value (front ++ back) = value front * 10 ^ back.length + value back := by
  rw [value, Nat.ofDigitChars_append, Nat.ofDigitChars_eq_ofDigitChars_zero, Nat.mul_comm]
  rfl

theorem value_zeros (digits : List Char) (n : ℕ) :
    value (digits ++ List.replicate n '0') = value digits * 10 ^ n := by
  rw [value, Nat.ofDigitChars_append, Nat.ofDigitChars_replicate_zero, Nat.mul_comm]
  rfl

theorem value_cons (c : Char) (digits : List Char) :
    value (c :: digits) = (c.toNat - 48) * 10 ^ digits.length + value digits := by
  rw [show c :: digits = [c] ++ digits from rfl, value_append]
  simp [value, Nat.ofDigitChars_cons]

theorem value_lt {digits : List Char} (all : ∀ c ∈ digits, c.isDigit = true) :
    value digits < 10 ^ digits.length := by
  induction digits with
  | nil => simp [value]
  | cons c digits ih =>
    have tail := ih fun d member => all d (List.mem_cons_of_mem _ member)
    have digit : 48 ≤ c.toNat ∧ c.toNat ≤ 57 := Char.isDigit_iff_toNat.mp (all c List.mem_cons_self)
    have top : (c.toNat - 48) * 10 ^ digits.length ≤ 9 * 10 ^ digits.length :=
      Nat.mul_le_mul_right _ (by omega)
    rw [value_cons, List.length_cons, Nat.pow_succ]
    omega

theorem value_eq_zero {digits : List Char} (all : ∀ c ∈ digits, c.isDigit = true) :
    value digits = 0 ↔ digits.all (· = '0') = true := by
  induction digits with
  | nil => simp [value]
  | cons c digits ih =>
    have tail := ih fun d member => all d (List.mem_cons_of_mem _ member)
    have digit : 48 ≤ c.toNat ∧ c.toNat ≤ 57 := Char.isDigit_iff_toNat.mp (all c List.mem_cons_self)
    have zero : c.toNat - 48 = 0 ↔ c = '0' := by
      rw [← Char.toNat_inj]
      simp only [Char.reduceToNat]
      omega
    rw [value_cons, Nat.add_eq_zero_iff, tail, Nat.mul_eq_zero, zero]
    simp

theorem fixed_inj (width n m : ℕ) (left : n < 10 ^ width) (right : m < 10 ^ width) :
    fixed width n = fixed width m ↔ n = m := by
  constructor
  · intro text
    have read := congrArg value text
    rwa [value_fixed width n left, value_fixed width m right] at read
  · intro number
    rw [number]

theorem digitChar_lt (i j : ℕ) (left : i < 10) (right : j < 10) : Nat.digitChar i < Nat.digitChar j ↔ i < j := by
  have table : ∀ i < 10, ∀ j < 10, (Nat.digitChar i < Nat.digitChar j ↔ i < j) := by decide
  exact table i left j right

theorem append_lt_append (front front' back back' : List Char) (same : front.length = front'.length) :
    front ++ back < front' ++ back' ↔ front < front' ∨ (front = front' ∧ back < back') := by
  induction front generalizing front' with
  | nil =>
    have empty : front' = [] := List.eq_nil_of_length_eq_zero (by simpa using same.symm)
    subst empty
    simp
  | cons c rest ih =>
    cases front' with
    | nil => simp at same
    | cons c' rest' =>
      have tail : rest.length = rest'.length := by simpa using same
      simp only [List.cons_append, List.cons_lt_cons_iff, ih rest' tail, List.cons.injEq]
      tauto

theorem fixed_lt (width n m : ℕ) (left : n < 10 ^ width) (right : m < 10 ^ width) :
    fixed width n < fixed width m ↔ n < m := by
  induction width generalizing n m with
  | zero =>
    have zeroN : n = 0 := by simpa using left
    have zeroM : m = 0 := by simpa using right
    simp [fixed, zeroN, zeroM]
  | succ width ih =>
    have tailN : n / 10 < 10 ^ width := by
      rw [Nat.pow_succ] at left
      omega
    have tailM : m / 10 < 10 ^ width := by
      rw [Nat.pow_succ] at right
      omega
    have last : [Nat.digitChar (n % 10)] < [Nat.digitChar (m % 10)] ↔ n % 10 < m % 10 := by
      rw [List.cons_lt_cons_iff, digitChar_lt _ _ (Nat.mod_lt n (by decide)) (Nat.mod_lt m (by decide))]
      simp
    simp only [fixed]
    rw [append_lt_append _ _ _ _ (by simp), ih _ _ tailN tailM, fixed_inj _ _ _ tailN tailM, last]
    omega

end Decimal
