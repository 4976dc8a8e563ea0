import Mathlib

/-! Half-open integer intervals, listed in any order and read once from left to
right with a single running position.

A listed instant is counted only while the position has not passed it. The lemmas
below say which instants that is, when the count is the measure of a predicate, and
when nothing is lost because the list comes out in order. -/

namespace IntervalScan

/-- `[s, e)`, never empty. -/
structure Interval where
  s : ℤ
  e : ℤ
  lt : s < e
  deriving DecidableEq

def Interval.Holds (interval : Interval) (t : ℤ) : Prop :=
  interval.s ≤ t ∧ t < interval.e

/-- How many integers of `[a, b)` satisfy `P`. -/
noncomputable def measure (P : ℤ → Prop) (a b : ℤ) : ℤ :=
  ({t | a ≤ t ∧ t < b ∧ P t}.ncard : ℤ)

variable (P : ℤ → Prop) (a b : ℤ)

theorem finite_span : {t | a ≤ t ∧ t < b ∧ P t}.Finite := by
  apply (Set.finite_Ico a b).subset
  intro t member
  exact ⟨member.1, member.2.1⟩

@[simp] theorem measure_self (a : ℤ) : measure P a a = 0 := by
  have empty : {t | a ≤ t ∧ t < a ∧ P t} = ∅ := by
    ext t
    simp only [Set.mem_ofPred_eq, Set.mem_empty_iff_false, iff_false]
    intro member
    have low := member.1
    have high := member.2.1
    omega
  simp [measure, empty]

theorem measure_congr (P Q : ℤ → Prop) (a b : ℤ)
    (agree : ∀ t, a ≤ t → t < b → (P t ↔ Q t)) : measure P a b = measure Q a b := by
  have same : {t | a ≤ t ∧ t < b ∧ P t} = {t | a ≤ t ∧ t < b ∧ Q t} := by
    ext t
    constructor
    · intro member
      exact ⟨member.1, member.2.1, (agree t member.1 member.2.1).mp member.2.2⟩
    · intro member
      exact ⟨member.1, member.2.1, (agree t member.1 member.2.1).mpr member.2.2⟩
  simp only [measure, same]

theorem measure_add (a b c : ℤ) (first : a ≤ b) (second : b ≤ c) :
    measure P a b + measure P b c = measure P a c := by
  have disjoint : Disjoint {t | a ≤ t ∧ t < b ∧ P t} {t | b ≤ t ∧ t < c ∧ P t} := by
    rw [Set.disjoint_left]
    intro t left right
    exact absurd right.1 (not_le.mpr left.2.1)
  have union : {t | a ≤ t ∧ t < b ∧ P t} ∪ {t | b ≤ t ∧ t < c ∧ P t} = {t | a ≤ t ∧ t < c ∧ P t} := by
    ext t
    constructor
    · intro member
      rcases member with member | member
      · exact ⟨member.1, member.2.1.trans_le second, member.2.2⟩
      · exact ⟨first.trans member.1, member.2.1, member.2.2⟩
    · intro member
      by_cases before : t < b
      · exact Or.inl ⟨member.1, before, member.2.2⟩
      · exact Or.inr ⟨not_lt.mp before, member.2.1, member.2.2⟩
  simp only [measure]
  rw [← union, Set.ncard_union_eq disjoint (finite_span P a b) (finite_span P b c)]
  push_cast
  rfl

theorem measure_succ_of (low : a ≤ b) (holds : P b) : measure P a (b + 1) = measure P a b + 1 := by
  have last : {t | b ≤ t ∧ t < b + 1 ∧ P t} = {b} := by
    ext t
    simp only [Set.mem_ofPred_eq, Set.mem_singleton_iff]
    constructor
    · intro member
      have low := member.1
      have high := member.2.1
      omega
    · intro equal
      subst equal
      exact ⟨le_rfl, by omega, holds⟩
  rw [← measure_add P a b (b + 1) low (by omega)]
  simp only [measure, last, Set.ncard_singleton, Nat.cast_one]

theorem measure_succ_of_not (low : a ≤ b) (fails : ¬ P b) : measure P a (b + 1) = measure P a b := by
  have none : {t | b ≤ t ∧ t < b + 1 ∧ P t} = ∅ := by
    ext t
    simp only [Set.mem_ofPred_eq, Set.mem_empty_iff_false, iff_false]
    intro member
    have lower := member.1
    have upper := member.2.1
    have at_b : t = b := by omega
    exact fails (at_b ▸ member.2.2)
  rw [← measure_add P a b (b + 1) low (by omega)]
  simp only [measure, none, Set.ncard_empty, Nat.cast_zero, add_zero]

theorem measure_true (order : a ≤ b) : measure (fun _ => True) a b = b - a := by
  induction b, order using Int.leInduction with
  | base => simp
  | succ b low ih =>
    rw [measure_succ_of (fun _ => True) a b low trivial, ih]
    omega

@[simp] theorem measure_false : measure (fun _ => False) a b = 0 := by
  simp [measure]

theorem measure_ge_of_stretch (a b x y : ℤ) (low : a ≤ x) (high : y ≤ b)
    (holds : ∀ t, x ≤ t → t < y → P t) : y - x ≤ measure P a b := by
  have inside : (↑(Finset.Ico x y) : Set ℤ) ⊆ {t | a ≤ t ∧ t < b ∧ P t} := by
    intro t member
    simp only [Finset.coe_Ico, Set.mem_Ico] at member
    exact ⟨by omega, by omega, holds t member.1 member.2⟩
  have count := Set.ncard_le_ncard inside (finite_span P a b)
  rw [Set.ncard_coe_finset, Int.card_Ico] at count
  have cast : ((y - x).toNat : ℤ) ≤ measure P a b := by
    simp only [measure]
    exact_mod_cast count
  omega

/-- The instants a left-to-right reading counts from position `pos` on. -/
def Counted : ℤ → List Interval → ℤ → Prop
  | _, [], _ => False
  | pos, interval :: rest, t =>
    (max interval.s pos ≤ t ∧ t < interval.e) ∨ Counted (max pos interval.e) rest t

/-- How many of them lie before `u`. -/
def covered : ℤ → List Interval → ℤ → ℤ
  | _, [], _ => 0
  | pos, interval :: rest, u =>
    max 0 (min interval.e u - max interval.s pos) + covered (max pos interval.e) rest u

theorem counted_after_pos (pos t : ℤ) (list : List Interval) (counted : Counted pos list t) : pos ≤ t := by
  induction list generalizing pos with
  | nil => exact counted.elim
  | cons interval rest ih =>
    rcases counted with ⟨low, _⟩ | later
    · omega
    · have bound := ih (max pos interval.e) later
      omega

variable (pos u : ℤ)

theorem covered_before_pos (list : List Interval) (early : u ≤ pos) : covered pos list u = 0 := by
  induction list generalizing pos with
  | nil => rfl
  | cons interval rest ih =>
    have tail := ih (max pos interval.e) (by omega)
    simp only [covered, tail]
    omega

theorem covered_succ_of (list : List Interval) (counted : Counted pos list u) :
    covered pos list (u + 1) = covered pos list u + 1 := by
  induction list generalizing pos with
  | nil => exact counted.elim
  | cons interval rest ih =>
    simp only [covered]
    rcases counted with ⟨low, high⟩ | later
    · rw [covered_before_pos _ (u + 1) rest (by omega), covered_before_pos _ u rest (by omega)]
      omega
    · have bound := counted_after_pos _ _ _ later
      rw [ih (max pos interval.e) later]
      omega

theorem covered_succ_of_not (list : List Interval) (lost : ¬ Counted pos list u) :
    covered pos list (u + 1) = covered pos list u := by
  induction list generalizing pos with
  | nil => rfl
  | cons interval rest ih =>
    simp only [Counted, not_or, not_and, not_lt] at lost
    simp only [covered]
    rw [ih (max pos interval.e) lost.2]
    have edge := lost.1
    omega

theorem covered_mono (pos : ℤ) (list : List Interval) : Monotone (covered pos list) := by
  apply monotone_int_of_le_succ
  intro u
  by_cases counted : Counted pos list u
  · rw [covered_succ_of pos u list counted]
    omega
  · rw [covered_succ_of_not pos u list counted]

theorem covered_nonneg (list : List Interval) : 0 ≤ covered pos list u := by
  calc
    0 = covered pos list (min u pos) := (covered_before_pos pos _ list (min_le_right u pos)).symm
    _ ≤ covered pos list u := covered_mono pos list (min_le_left u pos)

/-- The count is the measure of `P` at every end up to `b` exactly when the counted
instants of the span are those of `P`. -/
theorem covered_eq_measure_iff (list : List Interval) :
    (∀ u, a ≤ u → u ≤ b → covered a list u = measure P a u) ↔
      ∀ t, a ≤ t → t < b → (Counted a list t ↔ P t) := by
  constructor
  · intro equal t low high
    have here := equal t low (by omega)
    have next := equal (t + 1) (by omega) (by omega)
    by_cases counted : Counted a list t <;> by_cases holds : P t
    · simp [counted, holds]
    · rw [covered_succ_of a t list counted, measure_succ_of_not P a t low holds] at next
      omega
    · rw [covered_succ_of_not a t list counted, measure_succ_of P a t low holds] at next
      omega
    · simp [counted, holds]
  · intro agree u low
    induction u, low using Int.leInduction with
    | base =>
      intro _
      rw [covered_before_pos a a list le_rfl, measure_self]
    | succ u low ih =>
      intro high
      have here := ih (by omega)
      have same := agree u low (by omega)
      by_cases counted : Counted a list u
      · rw [covered_succ_of a u list counted, measure_succ_of P a u low (same.mp counted), here]
      · have fails : ¬ P u := fun holds => counted (same.mpr holds)
        rw [covered_succ_of_not a u list counted, measure_succ_of_not P a u low fails, here]

def OpenAt : List Interval → ℤ → Prop
  | [], _ => False
  | interval :: rest, t => interval.s ≤ t ∧ (t < interval.e ∨ OpenAt rest t)

theorem counted_iff (pos t : ℤ) (list : List Interval) : Counted pos list t ↔ pos ≤ t ∧ OpenAt list t := by
  induction list generalizing pos with
  | nil => simp [Counted, OpenAt]
  | cons interval rest ih =>
    have nonempty := interval.lt
    simp only [Counted, OpenAt, ih]
    constructor
    · intro counted
      rcases counted with ⟨low, high⟩ | ⟨low, later⟩
      · exact ⟨by omega, by omega, Or.inl high⟩
      · exact ⟨by omega, by omega, Or.inr later⟩
    · intro opened
      obtain ⟨low, started, running | later⟩ := opened
      · exact Or.inl ⟨by omega, running⟩
      · by_cases running : t < interval.e
        · exact Or.inl ⟨by omega, running⟩
        · exact Or.inr ⟨by omega, later⟩

theorem openAt_append (front back : List Interval) (t : ℤ) :
    OpenAt (front ++ back) t ↔
      OpenAt front t ∨ ((∀ interval ∈ front, interval.s ≤ t) ∧ OpenAt back t) := by
  induction front with
  | nil => simp [OpenAt]
  | cons interval rest ih =>
    simp only [List.cons_append, OpenAt, ih, List.mem_cons, forall_eq_or_imp]
    tauto

theorem openAt_holds (list : List Interval) (t : ℤ) (opened : OpenAt list t) :
    ∃ interval ∈ list, interval.Holds t := by
  induction list with
  | nil => exact opened.elim
  | cons interval rest ih =>
    rcases opened with ⟨started, running | later⟩
    · exact ⟨interval, List.mem_cons_self, started, running⟩
    · obtain ⟨found, member, holds⟩ := ih later
      exact ⟨found, List.mem_cons_of_mem interval member, holds⟩

theorem openAt_iff_of_sorted (list : List Interval) (t : ℤ)
    (ordered : list.Pairwise (fun x y => x.s ≤ y.s)) :
    OpenAt list t ↔ ∃ interval ∈ list, interval.Holds t := by
  constructor
  · exact openAt_holds list t
  · intro found
    obtain ⟨interval, member, holds⟩ := found
    obtain ⟨front, back, rfl⟩ := List.append_of_mem member
    rw [openAt_append]
    right
    constructor
    · intro earlier inFront
      have before := (List.pairwise_append.mp ordered).2.2 earlier inFront interval (by simp)
      exact before.trans holds.1
    · exact ⟨holds.1, Or.inl holds.2⟩

/-- Where the count first reaches `m` it is `m`, and some listed interval is still
running just before. -/
theorem least_covered (pos m t : ℤ) (list : List Interval) (least : IsLeast {u | m ≤ covered pos list u} t) :
    covered pos list t = m ∧ pos < t ∧ ∃ interval ∈ list, t ≤ interval.e := by
  have reached : m ≤ covered pos list t := least.1
  have before : covered pos list (t - 1) < m := by
    by_contra early
    have bound : t ≤ t - 1 := least.2 (not_lt.mp early)
    omega
  have counted : Counted pos list (t - 1) := by
    by_contra lost
    have same := covered_succ_of_not pos (t - 1) list lost
    rw [sub_add_cancel] at same
    omega
  have step := covered_succ_of pos (t - 1) list counted
  rw [sub_add_cancel] at step
  obtain ⟨after, opened⟩ := (counted_iff pos (t - 1) list).mp counted
  obtain ⟨interval, member, holds⟩ := openAt_holds list (t - 1) opened
  have running := holds.2
  exact ⟨by omega, by omega, interval, member, by omega⟩

/-! ### Reading a generator that may fail

The list comes in chunks, one at a time. A chunk that fails ends the reading, unless
the body has returned before it is asked for. -/

section Generator

variable {ε α β σ : Type}

/-- `for (const x of xs) body`, where the body returns or goes on with a new state. -/
def forOf (body : σ → α → β ⊕ σ) : List α → σ → β ⊕ σ
  | [], state => .inr state
  | x :: rest, state =>
    match body state x with
    | .inl result => .inl result
    | .inr next => forOf body rest next

/-- The same over a lazy sequence of chunks. -/
def forOfChunks (body : σ → α → β ⊕ σ) : List (Except ε (List α)) → σ → Except ε (β ⊕ σ)
  | [], state => .ok (.inr state)
  | .error failure :: _, _ => .error failure
  | .ok chunk :: rest, state =>
    match forOf body chunk state with
    | .inl result => .ok (.inl result)
    | .inr next => forOfChunks body rest next

/-- Everything the generator yields before it fails. -/
def yielded : List (Except ε (List α)) → List α
  | [] => []
  | .error _ :: _ => []
  | .ok chunk :: rest => chunk ++ yielded rest

theorem forOf_append (body : σ → α → β ⊕ σ) (front back : List α) (state : σ) :
    forOf body (front ++ back) state =
      match forOf body front state with
      | .inl result => .inl result
      | .inr next => forOf body back next := by
  induction front generalizing state with
  | nil => rfl
  | cons x rest ih =>
    simp only [List.cons_append, forOf]
    cases body state x with
    | inl result => rfl
    | inr next => exact ih next

theorem forOfChunks_returns_iff (body : σ → α → β ⊕ σ) (chunks : List (Except ε (List α)))
    (state : σ) (result : β) :
    forOfChunks body chunks state = .ok (.inl result) ↔
      forOf body (yielded chunks) state = .inl result := by
  induction chunks generalizing state with
  | nil => simp [forOfChunks, yielded, forOf]
  | cons chunk rest ih =>
    cases chunk with
    | error failure => simp [forOfChunks, yielded, forOf]
    | ok items =>
      simp only [forOfChunks, yielded, forOf_append]
      cases forOf body items state with
      | inl early => simp
      | inr next => exact ih next

end Generator

end IntervalScan
