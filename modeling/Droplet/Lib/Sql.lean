import Mathlib

/-! Conditions of SQL: truth values with `NULL`, and patterns of `LIKE`. -/

namespace Droplet.Sql

/-- A truth value, `none` for `NULL`. -/
abbrev Truth := Option Bool

def both : Truth → Truth → Truth
  | some false, _ => some false
  | _, some false => some false
  | some true, some true => some true
  | _, _ => none

def either : Truth → Truth → Truth
  | some true, _ => some true
  | _, some true => some true
  | some false, some false => some false
  | _, _ => none

/-- `AND` of a list: true of the empty one. -/
def all (truths : List Truth) : Truth := truths.foldr both (some true)

/-- `OR` of a list: false of the empty one. -/
def any (truths : List Truth) : Truth := truths.foldr either (some false)

theorem both_true (left right : Truth) : both left right = some true ↔ left = some true ∧ right = some true := by
  rcases left with _ | _ | _ <;> rcases right with _ | _ | _ <;> simp [both]

theorem either_true (left right : Truth) :
    either left right = some true ↔ left = some true ∨ right = some true := by
  rcases left with _ | _ | _ <;> rcases right with _ | _ | _ <;> simp [either]

@[simp] theorem all_nil : all [] = some true := rfl

@[simp] theorem any_nil : any [] = some false := rfl

@[simp] theorem all_cons_true (first : Truth) (rest : List Truth) :
    all (first :: rest) = some true ↔ first = some true ∧ all rest = some true :=
  both_true first (all rest)

@[simp] theorem any_cons_true (first : Truth) (rest : List Truth) :
    any (first :: rest) = some true ↔ first = some true ∨ any rest = some true :=
  either_true first (any rest)

def isNull {α : Type} (value : Option α) : Truth := some value.isNone

def notNull {α : Type} (value : Option α) : Truth := some value.isSome

@[simp] theorem isNull_true {α : Type} (value : Option α) : isNull value = some true ↔ value = none := by
  simp [isNull]

@[simp] theorem notNull_true {α : Type} (value : Option α) : notNull value = some true ↔ value ≠ none := by
  cases value <;> simp [notNull]

section

variable {α : Type} [DecidableEq α]

/-- `NULL` is in no list and outside none, the empty list apart: a query builder writes a
constant there. -/
def isIn (values : List α) (value : Option α) : Truth :=
  if values = [] then some false else value.map (fun v => decide (v ∈ values))

def notIn (values : List α) (value : Option α) : Truth :=
  if values = [] then some true else value.map (fun v => decide (v ∉ values))

variable (values : List α)

@[simp] theorem isIn_true (value : Option α) : isIn values value = some true ↔ ∃ v ∈ values, value = some v := by
  unfold isIn
  split
  · next empty => simp [empty]
  · cases value <;> simp

@[simp] theorem notIn_true (some_values : values ≠ []) (value : Option α) :
    notIn values value = some true ↔ ∃ v, value = some v ∧ v ∉ values := by
  rw [notIn, if_neg some_values]
  cases value <;> simp

/-- The spelled-out negation: `NULL` or outside. -/
theorem null_or_notIn (some_values : values ≠ []) (value : Option α) :
    any [isNull value, notIn values value] = some true ↔ ¬ ∃ v ∈ values, value = some v := by
  rw [any_cons_true, any_cons_true, notIn_true values some_values]
  cases value <;> simp

end

def special (c : Char) : Bool := c = '\\' || c = '%' || c = '_'

/-- A pattern against a whole text. One that ends in a single escape matches nothing, where the database does
not refuse it. -/
def like : List Char → List Char → Bool
  | [], text => text.isEmpty
  | '%' :: pattern, text => text.tails.any (like pattern)
  | '_' :: pattern, _ :: text => like pattern text
  | '\\' :: c :: pattern, d :: text => c = d && like pattern text
  | ['\\'], _ => false
  | c :: pattern, d :: text => c = d && like pattern text
  | _ :: _, [] => false

def escape (text : List Char) : List Char :=
  text.flatMap (fun c => if special c then ['\\', c] else [c])

theorem matched_cons (c d : Char) (pattern text : List Char) :
    (decide (c = d) && like pattern text) = true ↔
      ∃ rest, d :: text = c :: rest ∧ like pattern rest = true := by
  rw [Bool.and_eq_true, decide_eq_true_iff]
  constructor
  · intro matched
    exact ⟨text, by rw [matched.1], matched.2⟩
  · intro matched
    obtain ⟨rest, same, fits⟩ := matched
    obtain ⟨rfl, rfl⟩ := List.cons.inj same
    exact ⟨rfl, fits⟩

theorem like_escaped (c : Char) (pattern subject : List Char) :
    like ('\\' :: c :: pattern) subject = true ↔
      ∃ rest, subject = c :: rest ∧ like pattern rest = true := by
  cases subject with
  | nil => simp [like]
  | cons d text =>
    rw [like]
    exact matched_cons c d pattern text

theorem like_literal (c : Char) (literal : special c = false) (pattern subject : List Char) :
    like (c :: pattern) subject = true ↔
      ∃ rest, subject = c :: rest ∧ like pattern rest = true := by
  simp only [special, Bool.or_eq_false_iff, decide_eq_false_iff_not] at literal
  obtain ⟨⟨slash, percent⟩, line⟩ := literal
  cases subject with
  | nil =>
    have fails : like (c :: pattern) [] = false := by
      rw [like.eq_def]
      split <;> simp_all
    simp [fails]
  | cons d text =>
    have step : like (c :: pattern) (d :: text) = (decide (c = d) && like pattern text) := by
      rw [like.eq_def]
      split <;> simp_all
    rw [step]
    exact matched_cons c d pattern text

theorem like_escape (text pattern subject : List Char) :
    like (escape text ++ pattern) subject = true ↔
      ∃ rest, subject = text ++ rest ∧ like pattern rest = true := by
  induction text generalizing subject with
  | nil => simp [escape]
  | cons c text ih =>
    have first : like (escape (c :: text) ++ pattern) subject = true ↔
        ∃ rest, subject = c :: rest ∧ like (escape text ++ pattern) rest = true := by
      cases kind : special c with
      | true =>
        have spelled : escape (c :: text) ++ pattern = '\\' :: c :: (escape text ++ pattern) := by
          simp [escape, kind]
        rw [spelled, like_escaped]
      | false =>
        have spelled : escape (c :: text) ++ pattern = c :: (escape text ++ pattern) := by
          simp [escape, kind]
        rw [spelled, like_literal c kind]
    rw [first]
    constructor
    · intro matched
      obtain ⟨tail, rfl, later⟩ := matched
      obtain ⟨rest, rfl, fits⟩ := (ih tail).mp later
      exact ⟨rest, rfl, fits⟩
    · intro matched
      obtain ⟨rest, rfl, fits⟩ := matched
      exact ⟨text ++ rest, rfl, (ih _).mpr ⟨rest, rfl, fits⟩⟩

/-- A pattern between two `%` is found anywhere. -/
theorem like_anywhere (text subject : List Char) :
    like ('%' :: (escape text ++ ['%'])) subject = true ↔ text <:+: subject := by
  have ends : ∀ rest : List Char, like ['%'] rest = true := by
    intro rest
    simp only [like, List.any_eq_true, List.mem_tails]
    exact ⟨[], List.nil_suffix, rfl⟩
  simp only [like, List.any_eq_true, List.mem_tails, like_escape, ends, and_true]
  constructor
  · intro found
    obtain ⟨_, ⟨front, rfl⟩, rest, rfl⟩ := found
    exact ⟨front, rest, by simp⟩
  · intro found
    obtain ⟨front, rest, rfl⟩ := found
    exact ⟨text ++ rest, ⟨front, by simp⟩, rest, rfl⟩

theorem like_plain (text subject : List Char) (plain : ∀ c ∈ text, special c = false) :
    like text subject = true ↔ subject = text := by
  have spelled : escape text = text := by
    induction text with
    | nil => rfl
    | cons c text ih =>
      have tail := ih (fun d member => plain d (List.mem_cons_of_mem _ member))
      simp only [escape] at tail
      simp [escape, plain c List.mem_cons_self, tail]
  have matched := like_escape text [] subject
  rw [spelled, List.append_nil] at matched
  rw [matched]
  simp [like]

/-- A folding of case that leaves the special characters alone and makes no new ones. -/
structure Folding where
  fold : Char → Char
  special_fold : ∀ c, special (fold c) = true ∨ special c = true → fold c = c

variable (folding : Folding)

theorem Folding.special_iff (c : Char) : special (folding.fold c) = special c := by
  cases kind : special c with
  | true => rw [folding.special_fold c (.inr kind), kind]
  | false =>
    by_contra other
    rw [Bool.not_eq_false] at other
    rw [folding.special_fold c (.inl other), kind] at other
    cases other

theorem Folding.map_escape (text : List Char) :
    (escape text).map folding.fold = escape (text.map folding.fold) := by
  induction text with
  | nil => rfl
  | cons c text ih =>
    have slash : folding.fold '\\' = '\\' := folding.special_fold '\\' (.inr rfl)
    simp only [escape] at ih
    cases kind : special c with
    | true => simp [escape, kind, folding.special_iff, slash, ih]
    | false => simp [escape, kind, folding.special_iff, ih]

/-- `ILIKE`: both sides folded. -/
def ilike (folding : Folding) (pattern text : List Char) : Bool :=
  like (pattern.map folding.fold) (text.map folding.fold)

theorem ilike_anywhere (text subject : List Char) :
    ilike folding ('%' :: (escape text ++ ['%'])) subject = true ↔
      text.map folding.fold <:+: subject.map folding.fold := by
  have percent : folding.fold '%' = '%' := folding.special_fold '%' (.inr rfl)
  rw [ilike, List.map_cons, List.map_append, folding.map_escape, percent]
  simp only [List.map_cons, List.map_nil, percent]
  exact like_anywhere _ _

theorem ilike_plain (text subject : List Char) (plain : ∀ c ∈ text, special c = false) :
    ilike folding text subject = true ↔ subject.map folding.fold = text.map folding.fold := by
  apply like_plain
  intro c member
  obtain ⟨d, inside, rfl⟩ := List.mem_map.mp member
  rw [folding.special_iff]
  exact plain d inside

end Droplet.Sql
