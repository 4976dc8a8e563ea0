import Droplet.Lib.Json

/-! The text `JSON.stringify` makes of a value, without spaces, and how it begins. -/

namespace Json

/-- A number as it is written: some of the characters of a JSON number. -/
structure NumberText where
  text : List Char
  nonempty : text ≠ []
  digits : ∀ c ∈ text, c.isDigit = true ∨ c ∈ ['-', '+', '.', 'e']

/-- The characters with an escape of two letters, each with its second letter. -/
def shortEscapes : List (Char × Char) :=
  [('"', '"'), ('\\', '\\'), ('\x08', 'b'), ('\t', 't'), ('\n', 'n'), ('\x0c', 'f'), ('\r', 'r')]

def shortEscape (c : Char) : Option Char :=
  (shortEscapes.find? (fun pair => pair.1 == c)).map Prod.snd

def escape (c : Char) : List Char :=
  match shortEscape c with
  | some letter => ['\\', letter]
  | none =>
    if c.toNat < 32 then
      ['\\', 'u', '0', '0', Nat.digitChar (c.toNat / 16), Nat.digitChar (c.toNat % 16)]
    else [c]

def quote (text : String) : List Char := '"' :: (text.toList.flatMap escape ++ ['"'])

mutual

def text : Json NumberText → List Char
  | .null => ['n', 'u', 'l', 'l']
  | .bool true => ['t', 'r', 'u', 'e']
  | .bool false => ['f', 'a', 'l', 's', 'e']
  | .num number => number.text
  | .str value => quote value
  | .arr items => '[' :: itemsText items
  | .obj members => '{' :: membersText members

/-- The items of an array up to its closing bracket. -/
def itemsText : List (Json NumberText) → List Char
  | [] => [']']
  | item :: [] => text item ++ [']']
  | item :: next :: rest => text item ++ ',' :: itemsText (next :: rest)

def membersText : List (String × Json NumberText) → List Char
  | [] => ['}']
  | (key, value) :: [] => quote key ++ ':' :: (text value ++ ['}'])
  | (key, value) :: next :: rest =>
    quote key ++ ':' :: (text value ++ ',' :: membersText (next :: rest))

end

inductive Kind where
  | null
  | yes
  | no
  | num
  | str
  | arr
  | obj

def kind : Json NumberText → Kind
  | .null => .null
  | .bool true => .yes
  | .bool false => .no
  | .num _ => .num
  | .str _ => .str
  | .arr _ => .arr
  | .obj _ => .obj

def kindOf (c : Char) : Option Kind :=
  if c = 'n' then some .null
  else if c = 't' then some .yes
  else if c = 'f' then some .no
  else if c = '"' then some .str
  else if c = '[' then some .arr
  else if c = '{' then some .obj
  else if c.isDigit = true ∨ c ∈ ['-', '+', '.', 'e'] then some .num
  else none

theorem kindOf_numeral (c : Char) (numeral : c.isDigit = true ∨ c ∈ ['-', '+', '.', 'e']) :
    kindOf c = some .num := by
  have other : ∀ d ∈ ['n', 't', 'f', '"', '[', '{'], c ≠ d := by
    intro d member same
    subst same
    simp only [List.mem_cons, List.not_mem_nil, or_false] at member
    rcases member with rfl | rfl | rfl | rfl | rfl | rfl <;> revert numeral <;> decide
  simp only [kindOf, other 'n' (by simp), other 't' (by simp), other 'f' (by simp),
    other '"' (by simp), other '[' (by simp), other '{' (by simp), if_false, if_pos numeral]

theorem text_head (value : Json NumberText) : ∃ c rest, text value = c :: rest ∧ kindOf c = some (kind value) := by
  cases value with
  | null | arr | obj => exact ⟨_, _, by rw [text], rfl⟩
  | bool flag => cases flag <;> exact ⟨_, _, by rw [text], rfl⟩
  | num number =>
    cases letters : number.text with
    | nil => exact absurd letters number.nonempty
    | cons c rest =>
      refine ⟨c, rest, by rw [text, letters], ?_⟩
      exact kindOf_numeral c (number.digits c (letters ▸ List.mem_cons_self))
  | str value => exact ⟨_, _, by rw [text, quote], rfl⟩

theorem same_kind (x y : Json NumberText) (a b : List Char)
    (same : text x ++ a = text y ++ b) : kind x = kind y := by
  obtain ⟨c, rest, left, kindX⟩ := text_head x
  obtain ⟨d, others, right, kindY⟩ := text_head y
  rw [left, right] at same
  obtain ⟨rfl, _⟩ := List.cons.inj same
  exact Option.some.inj (kindX.symm.trans kindY)

theorem text_ne_bracket (value : Json NumberText) (a b : List Char) : ']' :: a ≠ text value ++ b := by
  intro same
  obtain ⟨c, rest, letters, known⟩ := text_head value
  rw [letters] at same
  obtain ⟨rfl, _⟩ := List.cons.inj same
  cases known

end Json
