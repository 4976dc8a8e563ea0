import Droplet.Lib.Fallible
import Droplet.BusinessTime.Operations

/-! What the two loops compute over a scan, whatever order its intervals come in:
`count` returns the covered length up to its end, `spend` the least instant at which
the covered length is reached. -/

namespace Droplet.BusinessTime

open ZonedTime IntervalScan Fallible

theorem forOf_count_iff (upTo : ℤ) (list : List Interval) (total pos v : ℤ) (before : pos < upTo) :
    forOf (count upTo) list ⟨total, pos⟩ = .inl v ↔
      (∃ iv ∈ list, upTo ≤ iv.e) ∧ v = total + covered pos list upTo := by
  induction list generalizing total pos with
  | nil => simp [forOf]
  | cons iv rest ih =>
    have nonempty := iv.lt
    simp only [forOf, count, covered, List.mem_cons, exists_eq_or_imp]
    by_cases beyond : iv.s ≥ upTo
    · simp only [if_pos beyond, Sum.inl.injEq]
      rw [covered_before_pos _ upTo rest (by omega)]
      constructor
      · intro equal
        exact ⟨Or.inl (by omega), by omega⟩
      · intro equal
        omega
    · simp only [if_neg beyond]
      have totalEq : (if min iv.e upTo > max iv.s pos then
          total + (min iv.e upTo - max iv.s pos) else total) =
          total + max 0 (min iv.e upTo - max iv.s pos) := by
        split <;> omega
      have posEq : (if iv.e > pos then iv.e else pos) = max pos iv.e := by
        split <;> omega
      rw [totalEq, posEq]
      by_cases reached : max pos iv.e ≥ upTo
      · simp only [if_pos reached, Sum.inl.injEq]
        rw [covered_before_pos _ upTo rest (by omega)]
        constructor
        · intro equal
          exact ⟨Or.inl (by omega), by omega⟩
        · intro equal
          omega
      · simp only [if_neg reached]
        rw [ih _ _ (by omega)]
        have short : ¬ upTo ≤ iv.e := by omega
        simp only [short, false_or]
        constructor
        all_goals
          intro found
          exact ⟨found.1, by omega⟩

theorem forOf_spend_iff (list : List Interval) (remaining pos t : ℤ) (positive : 0 < remaining) :
    forOf spend list ⟨remaining, pos⟩ = .inl t ↔
      IsLeast {u | remaining ≤ covered pos list u} t := by
  induction list generalizing remaining pos with
  | nil =>
    simp only [forOf, covered, reduceCtorEq, false_iff]
    intro least
    have reached : remaining ≤ 0 := least.1
    omega
  | cons iv rest ih =>
    have nonempty := iv.lt
    simp only [forOf, spend]
    by_cases skipped : iv.e ≤ max iv.s pos
    · have same : ∀ u, covered pos (iv :: rest) u = covered pos rest u := by
        intro u
        have stay : max pos iv.e = pos := by omega
        simp only [covered, stay]
        omega
      simp only [if_pos skipped, ih remaining pos positive, same]
    · have position : max pos iv.e = iv.e := by omega
      by_cases enough : remaining ≤ iv.e - max iv.s pos
      · have least : IsLeast {u | remaining ≤ covered pos (iv :: rest) u} (max iv.s pos + remaining) := by
          constructor
          · simp only [Set.mem_ofPred_eq, covered]
            have rest_nonneg := covered_nonneg (max pos iv.e) (max iv.s pos + remaining) rest
            omega
          · intro u reached
            by_contra early
            simp only [Set.mem_ofPred_eq, covered] at reached
            rw [covered_before_pos _ u rest (by omega)] at reached
            omega
        simp only [if_neg skipped, if_pos enough, Sum.inl.injEq]
        constructor
        · intro equal
          exact equal ▸ least
        · intro other
          exact least.unique other
      · have shift : {u | remaining ≤ covered pos (iv :: rest) u} =
            {u | remaining - (iv.e - max iv.s pos) ≤ covered iv.e rest u} := by
          ext u
          simp only [Set.mem_ofPred_eq, covered, position]
          by_cases before : u ≤ iv.e
          · rw [covered_before_pos iv.e u rest before]
            omega
          · omega
        simp only [if_neg skipped, if_neg enough]
        rw [ih _ _ (by omega), shift]

variable (intl : Intl)

/-- Everything the scan from an instant lists before it fails or ends. -/
def listed (c : Compiled) (fromMs : ℤ) : Result (List Interval) := do
  let days ← intervalsFrom intl c fromMs
  return yielded days

theorem scanResult_ok_iff {σ : Type} (c : Compiled) (fromMs : ℤ) (body : σ → Interval → ℤ ⊕ σ)
    (state : σ) (exhausted : String) (result : ℤ) :
    scanResult intl c fromMs body state exhausted = .ok result ↔
      ∃ list, listed intl c fromMs = .ok list ∧ forOf body list state = .inl result := by
  unfold scanResult listed
  cases intervalsFrom intl c fromMs with
  | error failure => simp
  | ok days =>
    have returns := forOfChunks_returns_iff body days state result
    simp only [ok_bind, pure_ok_iff, exists_eq_left']
    rw [← returns]
    cases forOfChunks body days state with
    | error failure => simp
    | ok outcome => cases outcome <;> simp

/-- How much of `[a, b)` a calendar covers when read from `a`, where the reading reaches
`b`: all of it without a calendar, nothing of an empty one. -/
inductive Covers (a b : ℤ) : Option BusinessCalendar → ℤ → Prop
  | always : Covers a b none (b - a)
  | never {cal : BusinessCalendar} {c : Compiled} (compiled : compile intl cal = .ok c)
      (empty : c.empty = true) : Covers a b (some cal) 0
  | scanned {cal : BusinessCalendar} {c : Compiled} {list : List Interval}
      (compiled : compile intl cal = .ok c) (hours : c.empty = false)
      (list_eq : listed intl c a = .ok list) (reached : ∃ iv ∈ list, b ≤ iv.e) :
      Covers a b (some cal) (covered a list b)

theorem Covers.compiled {a b v : ℤ} {cal : BusinessCalendar}
    (covers : Covers intl a b (some cal) v) : ∃ c, compile intl cal = .ok c ∧
      (c.empty = true ∧ v = 0 ∨ ∃ list, listed intl c a = .ok list ∧
        (∃ iv ∈ list, b ≤ iv.e) ∧ v = covered a list b) := by
  cases covers with
  | never compiled empty => exact ⟨_, compiled, Or.inl ⟨empty, rfl⟩⟩
  | scanned compiled _ list_eq reached =>
    exact ⟨_, compiled, Or.inr ⟨_, list_eq, reached, rfl⟩⟩

theorem businessMsForward_ok_iff (a b v : ℤ) (calendar : Option BusinessCalendar) (less : a < b) :
    businessMsForward intl a b calendar = .ok v ↔ Covers intl a b calendar v := by
  cases calendar with
  | none =>
    simp only [businessMsForward, Except.ok.injEq]
    constructor
    · intro equal
      exact equal ▸ .always
    · intro covers
      cases covers
      rfl
  | some cal =>
    simp only [businessMsForward]
    rw [bind_ok_iff]
    constructor
    · intro result
      obtain ⟨c, compiled, result⟩ := result
      cases empty : c.empty with
      | true =>
        simp only [empty, if_true, pure_ok_iff] at result
        exact result ▸ .never compiled empty
      | false =>
        simp only [empty, Bool.false_eq_true, if_false] at result
        obtain ⟨list, list_eq, loop⟩ := (scanResult_ok_iff intl c a _ _ _ v).mp result
        obtain ⟨reached, equal⟩ := (forOf_count_iff b list 0 a v less).mp loop
        rw [zero_add] at equal
        exact equal ▸ .scanned compiled empty list_eq reached
    · intro covers
      cases covers with
      | never compiled empty => exact ⟨_, compiled, by simp [empty]⟩
      | scanned compiled hours list_eq reached =>
        refine ⟨_, compiled, ?_⟩
        simp only [hours, Bool.false_eq_true, if_false]
        rw [scanResult_ok_iff]
        refine ⟨_, list_eq, ?_⟩
        rw [forOf_count_iff b _ 0 a _ less]
        exact ⟨reached, by omega⟩

theorem businessMsBetween_of_lt (a b : ℤ) (calendar : Option BusinessCalendar) (less : a < b) :
    businessMsBetween intl a b calendar = businessMsForward intl a b calendar := by
  have different : a ≠ b := by omega
  have forward : ¬ b < a := by omega
  simp [businessMsBetween, different, forward]

theorem businessMsBetween_ok_iff (a b v : ℤ) (calendar : Option BusinessCalendar) (less : a < b) :
    businessMsBetween intl a b calendar = .ok v ↔ Covers intl a b calendar v := by
  rw [businessMsBetween_of_lt intl a b calendar less, businessMsForward_ok_iff intl a b v calendar less]

@[simp] theorem businessMsBetween_self (a : ℤ) (calendar : Option BusinessCalendar) :
    businessMsBetween intl a a calendar = .ok 0 := by
  simp [businessMsBetween]

theorem businessMsBetween_swap (a b v : ℤ) (calendar : Option BusinessCalendar) :
    businessMsBetween intl a b calendar = .ok v ↔
      businessMsBetween intl b a calendar = .ok (-v) := by
  have forward : ∀ a b v : ℤ, a < b → (businessMsBetween intl b a calendar = .ok v ↔
      businessMsBetween intl a b calendar = .ok (-v)) := by
    intro a b v less
    have different : b ≠ a := by omega
    rw [businessMsBetween_of_lt intl a b calendar less]
    simp only [businessMsBetween, if_neg different, if_pos less]
    cases businessMsForward intl a b calendar with
    | error failure => simp
    | ok back =>
      simp only [ok_bind, pure_ok_iff, Except.ok.injEq]
      omega
  rcases lt_trichotomy a b with less | equal | more
  · rw [forward a b (-v) less, neg_neg]
  · subst equal
    simp only [businessMsBetween_self, Except.ok.injEq]
    omega
  · exact forward b a v more

/-- What `addBusinessMs` returns for a positive length. -/
inductive Reaches (start : ℤ) (length : ℤ) : Option BusinessCalendar → ℤ → Prop
  | always : Reaches start length none (start + length)
  | scanned {cal : BusinessCalendar} {c : Compiled} {list : List Interval} {t : ℤ}
      (compiled : compile intl cal = .ok c) (hours : c.empty = false)
      (list_eq : listed intl c start = .ok list)
      (least : IsLeast {u | length ≤ covered start list u} t) :
      Reaches start length (some cal) t

theorem addBusinessMs_ok_iff (start length t : ℤ) (calendar : Option BusinessCalendar) (positive : 0 < length) :
    addBusinessMs intl start length calendar = .ok t ↔ Reaches intl start length calendar t := by
  have notNegative : ¬ length < 0 := by omega
  have notZero : length ≠ 0 := by omega
  simp only [addBusinessMs, if_neg notNegative, if_neg notZero]
  cases calendar with
  | none =>
    simp only [Except.ok.injEq]
    constructor
    · intro equal
      exact equal ▸ .always
    · intro reaches
      cases reaches
      rfl
  | some cal =>
    rw [bind_ok_iff]
    constructor
    · intro result
      obtain ⟨c, compiled, result⟩ := result
      cases empty : c.empty with
      | true => simp [empty] at result
      | false =>
        simp only [empty, Bool.false_eq_true, if_false] at result
        obtain ⟨list, list_eq, loop⟩ := (scanResult_ok_iff intl c start _ _ _ t).mp result
        exact .scanned compiled empty list_eq ((forOf_spend_iff list length start t positive).mp loop)
    · intro reaches
      cases reaches with
      | scanned compiled hours list_eq least =>
        refine ⟨_, compiled, ?_⟩
        simp only [hours, Bool.false_eq_true, if_false]
        rw [scanResult_ok_iff]
        exact ⟨_, list_eq, (forOf_spend_iff _ length start t positive).mpr least⟩

end Droplet.BusinessTime
