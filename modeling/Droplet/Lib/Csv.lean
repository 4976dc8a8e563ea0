import Mathlib

/-! Records of comma-separated values (RFC 4180) over any alphabet: how a record is written, how it
is read, and that reading gives back the fields that were written. -/

namespace Csv

/-- The four characters that mean something in a record. -/
structure Marks (α : Type) where
  comma : α
  quote : α
  cr : α
  lf : α
  distinct : [comma, quote, cr, lf].Nodup

variable {α : Type}

theorem Marks.apart (marks : Marks α) : marks.comma ≠ marks.quote ∧ marks.comma ≠ marks.cr ∧
    marks.quote ≠ marks.cr := by
  have distinct := marks.distinct
  simp only [List.nodup_cons, List.mem_cons, List.not_mem_nil, or_false, not_or] at distinct
  exact ⟨distinct.1.1, distinct.1.2.1, distinct.2.1.1⟩

variable (marks : Marks α)

def joined : List (List α) → List α
  | [] => []
  | [text] => text
  | text :: next :: rest => text ++ marks.comma :: joined (next :: rest)

theorem joined_length (texts : List (List α)) : texts.length ≤ (joined marks texts).length + 1 := by
  induction texts with
  | nil => simp
  | cons text texts ih =>
    cases texts with
    | nil => simp
    | cons next more =>
      simp only [joined, List.length_append, List.length_cons] at ih ⊢
      omega

variable [DecidableEq α]

def Marks.special (c : α) : Bool := decide (c ∈ [marks.quote, marks.comma, marks.cr, marks.lf])

/-- A quote inside a quoted field is written twice. -/
def doubled (text : List α) : List α :=
  text.flatMap (fun c => if c = marks.quote then [marks.quote, marks.quote] else [c])

def field (text : List α) : List α :=
  if text.any marks.special then marks.quote :: (doubled marks text ++ [marks.quote]) else text

def record (fields : List (List α)) : List α :=
  joined marks (fields.map (field marks)) ++ [marks.cr, marks.lf]

def readQuoted : List α → Option (List α × List α)
  | [] => none
  | [c] => if c = marks.quote then some ([], []) else none
  | c :: next :: rest =>
    if c = marks.quote then
      if next = marks.quote then
        (readQuoted rest).map (fun found => (marks.quote :: found.1, found.2))
      else some ([], next :: rest)
    else (readQuoted (next :: rest)).map (fun found => (c :: found.1, found.2))

def readField (text : List α) : Option (List α × List α) :=
  match text with
  | [] => some ([], [])
  | c :: rest =>
    if c = marks.quote then readQuoted marks rest
    else some (text.takeWhile (fun c => !marks.special c), text.dropWhile (fun c => !marks.special c))

def readFields : ℕ → List α → Option (List (List α))
  | 0, _ => none
  | fuel + 1, text =>
    match readField marks text with
    | none => none
    | some (found, rest) =>
      if rest = [marks.cr, marks.lf] then some [found]
      else
        match rest with
        | [] => none
        | c :: more =>
          if c = marks.comma then (readFields fuel more).map (fun others => found :: others)
          else none

/-- The fields of one record that a line break ends; each but the last takes its comma. -/
def read (text : List α) : Option (List (List α)) := readFields marks text.length text

variable {marks}

theorem readQuoted_plain (c : α) (rest : List α) (other : c ≠ marks.quote) (some_rest : rest ≠ []) :
    readQuoted marks (c :: rest) =
      (readQuoted marks rest).map (fun found => (c :: found.1, found.2)) := by
  cases rest with
  | nil => exact absurd rfl some_rest
  | cons next rest => rw [readQuoted, if_neg other]

theorem readQuoted_doubled (text rest : List α) (ends : ∀ c ∈ rest.head?, c ≠ marks.quote) :
    readQuoted marks (doubled marks text ++ marks.quote :: rest) = some (text, rest) := by
  induction text with
  | nil =>
    cases rest with
    | nil => simp [doubled, readQuoted]
    | cons next rest =>
      have other : next ≠ marks.quote := ends next rfl
      simp [doubled, readQuoted, other]
  | cons c text ih =>
    rw [doubled] at ih ⊢
    rw [List.flatMap_cons]
    by_cases quoted : c = marks.quote
    · rw [if_pos quoted, List.append_assoc, List.cons_append, List.cons_append, List.nil_append,
        readQuoted, if_pos rfl, if_pos rfl, ih, Option.map_some, quoted]
    · rw [if_neg quoted, List.cons_append, List.nil_append, List.cons_append,
        readQuoted_plain c _ quoted (by simp), ih, Option.map_some]

/-- What follows a field: a comma or a line break. -/
def Follows (marks : Marks α) (rest : List α) : Prop :=
  ∃ c more, rest = c :: more ∧ (c = marks.comma ∨ c = marks.cr)

omit [DecidableEq α] in
theorem Follows.not_quote {rest : List α} (follows : Follows marks rest) : ∀ c ∈ rest.head?, c ≠ marks.quote := by
  obtain ⟨c, more, rfl, known⟩ := follows
  intro d same
  obtain rfl := Option.some.inj same
  rcases known with rfl | rfl
  · exact marks.apart.1
  · exact marks.apart.2.2.symm

theorem Follows.special {rest : List α} (follows : Follows marks rest) :
    rest.takeWhile (fun c => !marks.special c) = [] ∧
      rest.dropWhile (fun c => !marks.special c) = rest := by
  obtain ⟨c, more, rfl, known⟩ := follows
  have special : marks.special c = true := by
    rcases known with rfl | rfl <;> simp [Marks.special]
  exact ⟨List.takeWhile_cons_of_neg (by simp [special]), List.dropWhile_cons_of_neg (by simp [special])⟩

theorem readField_plain (text rest : List α) (plain : text.any marks.special = false)
    (follows : Follows marks rest) : readField marks (text ++ rest) = some (text, rest) := by
  have inside : ∀ c ∈ text, (!marks.special c) = true := by
    simpa using plain
  have first : ∀ c more, text ++ rest = c :: more → c ≠ marks.quote := by
    intro c more same
    cases text with
    | nil => exact follows.not_quote c (by rw [List.nil_append] at same; rw [same]; rfl)
    | cons d others =>
      obtain ⟨rfl, _⟩ := List.cons.inj same
      intro quoted
      have ordinary := inside d (by simp)
      simp [Marks.special, quoted] at ordinary
  rw [readField.eq_def]
  split
  next empty =>
    obtain ⟨c, more, rfl, _⟩ := follows
    simp at empty
  next c more same =>
    rw [if_neg (first c more same), List.takeWhile_append_of_pos inside,
      List.dropWhile_append_of_pos inside, follows.special.1, follows.special.2, List.append_nil]

theorem readField_field (text rest : List α) (follows : Follows marks rest) :
    readField marks (field marks text ++ rest) = some (text, rest) := by
  unfold field
  split
  next =>
    rw [List.cons_append, List.append_assoc, List.cons_append, List.nil_append, readField,
      if_pos rfl, readQuoted_doubled text rest follows.not_quote]
  next ordinary => exact readField_plain text rest (by simpa using ordinary) follows

theorem readFields_joined (fields : List (List α)) (some_field : fields ≠ []) (fuel : ℕ)
    (enough : fields.length ≤ fuel) :
    readFields marks fuel (joined marks (fields.map (field marks)) ++ [marks.cr, marks.lf]) =
      some fields := by
  induction fields generalizing fuel with
  | nil => exact absurd rfl some_field
  | cons text fields ih =>
    obtain ⟨fuel, rfl⟩ : ∃ n, fuel = n + 1 := ⟨fuel - 1, by simp at enough; omega⟩
    cases fields with
    | nil =>
      have got := readField_field text [marks.cr, marks.lf] ⟨marks.cr, _, rfl, .inr rfl⟩
      simp only [List.map_cons, List.map_nil, joined, readFields, got, if_true]
    | cons next more =>
      have tail := ih (by simp) fuel (by simpa using enough)
      have got := readField_field text
        (marks.comma :: (joined marks ((next :: more).map (field marks)) ++ [marks.cr, marks.lf]))
        ⟨marks.comma, _, rfl, .inl rfl⟩
      have further : marks.comma ::
          (joined marks ((next :: more).map (field marks)) ++ [marks.cr, marks.lf]) ≠
            [marks.cr, marks.lf] := by
        intro same
        exact marks.apart.2.1 (List.cons.inj same).1
      rw [List.map_cons, List.map_cons, joined, ← List.map_cons, List.append_assoc,
        List.cons_append, readFields, got]
      simp only [if_neg further, if_true, tail, Option.map_some]

theorem read_record (fields : List (List α)) (some_field : fields ≠ []) :
    read marks (record marks fields) = some fields := by
  refine readFields_joined fields some_field _ ?_
  have long := joined_length marks (fields.map (field marks))
  rw [List.length_map] at long
  rw [record, List.length_append]
  simp only [List.length_cons, List.length_nil]
  omega

theorem read_record_nil : read marks (record marks []) = some [[]] := by
  have other : marks.cr ≠ marks.quote := marks.apart.2.2.symm
  simp [read, record, joined, readFields, readField, other, Marks.special]

end Csv
