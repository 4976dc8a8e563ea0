import Droplet.Lib.JsonText

/-! `JSON.parse`, which reads a value of any depth as `JSON.stringify` wrote it, and that the texts of
two values begin one input only where the values are the same. -/

namespace Json

def numeric (c : Char) : Bool := c.isDigit || decide (c ∈ ['-', '+', '.', 'e', 'E'])

def isExponent : List Char → Bool
  | [] => true
  | 'e' :: '-' :: digits => !digits.isEmpty && digits.all Char.isDigit
  | 'e' :: '+' :: digits => !digits.isEmpty && digits.all Char.isDigit
  | 'e' :: digits => !digits.isEmpty && digits.all Char.isDigit
  | _ => false

def isFraction : List Char → Bool
  | '.' :: rest => !(rest.takeWhile Char.isDigit).isEmpty && isExponent (rest.dropWhile Char.isDigit)
  | rest => isExponent rest

/-- No zero in front of other digits. -/
def isUnsigned (text : List Char) : Bool :=
  let whole := text.takeWhile Char.isDigit
  !whole.isEmpty && (whole.length == 1 || whole.head? != some '0') &&
    isFraction (text.dropWhile Char.isDigit)

def isNumeral : List Char → Bool
  | '-' :: rest => isUnsigned rest
  | text => isUnsigned text

def numeralOf (text : List Char) : Option NumberText :=
  if known : text ≠ [] ∧ ∀ c ∈ text, c.isDigit = true ∨ c ∈ ['-', '+', '.', 'e'] then
    if isNumeral text then some ⟨text, known.1, known.2⟩ else none
  else none

def parseNumber (text : List Char) : Option (Json NumberText × List Char) :=
  (numeralOf ((text.takeWhile numeric).map (fun c => if c = 'E' then 'e' else c))).map
    (fun number => (.num number, text.dropWhile numeric))

def charUnits (c : Char) : List ℕ :=
  if c.toNat < 0x10000 then [c.toNat]
  else [0xD800 + (c.toNat - 0x10000) / 0x400, 0xDC00 + (c.toNat - 0x10000) % 0x400]

/-- A surrogate that stands alone is no character. -/
def unitChar (unit : ℕ) : Char :=
  if 0xD800 ≤ unit ∧ unit ≤ 0xDFFF then Char.ofNat 0xFFFD else Char.ofNat unit

def ofUnits : List ℕ → List Char
  | high :: low :: rest =>
    if (0xD800 ≤ high ∧ high ≤ 0xDBFF) ∧ (0xDC00 ≤ low ∧ low ≤ 0xDFFF) then
      Char.ofNat (0x10000 + (high - 0xD800) * 0x400 + (low - 0xDC00)) :: ofUnits rest
    else unitChar high :: ofUnits (low :: rest)
  | [unit] => [unitChar unit]
  | [] => []

def hexDigit (c : Char) : Option ℕ :=
  if c.isDigit then some (c.toNat - '0'.toNat)
  else if 'a' ≤ c ∧ c ≤ 'f' then some (c.toNat - 'a'.toNat + 10)
  else if 'A' ≤ c ∧ c ≤ 'F' then some (c.toNat - 'A'.toNat + 10)
  else none

def hexUnit (a b c d : Char) : Option ℕ := do
  let a ← hexDigit a
  let b ← hexDigit b
  let c ← hexDigit c
  let d ← hexDigit d
  some (((a * 16 + b) * 16 + c) * 16 + d)

def unescaped (letter : Char) : Option Char :=
  if letter = '/' then some '/'
  else (shortEscapes.find? (fun pair => pair.2 == letter)).map Prod.fst

/-- The units of a literal up to its closing quote, and what follows. -/
def parseUnits : List Char → Option (List ℕ × List Char)
  | [] => none
  | '"' :: rest => some ([], rest)
  | '\\' :: 'u' :: a :: b :: c :: d :: rest =>
    match hexUnit a b c d, parseUnits rest with
    | some unit, some (units, after) => some (unit :: units, after)
    | _, _ => none
  | '\\' :: letter :: rest =>
    match unescaped letter, parseUnits rest with
    | some c, some (units, after) => some (charUnits c ++ units, after)
    | _, _ => none
  | c :: rest =>
    if c = '\\' ∨ c.toNat < 32 then none
    else (parseUnits rest).map (fun found => (charUnits c ++ found.1, found.2))

def parseString (text : List Char) : Option (String × List Char) :=
  (parseUnits text).map (fun found => (String.ofList (ofUnits found.1), found.2))

def skip (text : List Char) : List Char := text.dropWhile (fun c => c ∈ [' ', '\t', '\n', '\r'])

mutual

def parseValue : ℕ → List Char → Option (Json NumberText × List Char)
  | 0, _ => none
  | fuel + 1, text =>
    match skip text with
    | 'n' :: 'u' :: 'l' :: 'l' :: rest => some (.null, rest)
    | 't' :: 'r' :: 'u' :: 'e' :: rest => some (.bool true, rest)
    | 'f' :: 'a' :: 'l' :: 's' :: 'e' :: rest => some (.bool false, rest)
    | '"' :: rest => (parseString rest).map (fun found => (.str found.1, found.2))
    | '[' :: rest =>
      match skip rest with
      | ']' :: after => some (.arr [], after)
      | inner => (parseItems fuel inner).map (fun found => (.arr found.1, found.2))
    | '{' :: rest =>
      match skip rest with
      | '}' :: after => some (.obj [], after)
      | inner => (parseMembers fuel inner).map (fun found => (.obj found.1, found.2))
    | other => parseNumber other

def parseItems : ℕ → List Char → Option (List (Json NumberText) × List Char)
  | 0, _ => none
  | fuel + 1, text =>
    match parseValue fuel text with
    | none => none
    | some (value, rest) =>
      match skip rest with
      | ',' :: more => (parseItems fuel more).map (fun found => (value :: found.1, found.2))
      | ']' :: after => some ([value], after)
      | _ => none

def parseMembers : ℕ → List Char → Option (List (String × Json NumberText) × List Char)
  | 0, _ => none
  | fuel + 1, text =>
    match skip text with
    | '"' :: quoted =>
      match parseString quoted with
      | none => none
      | some (key, rest) =>
        match skip rest with
        | ':' :: more =>
          match parseValue fuel more with
          | none => none
          | some (value, rest) =>
            match skip rest with
            | ',' :: more =>
              (parseMembers fuel more).map
                (fun found => ((key, value) :: found.1, found.2))
            | '}' :: after => some ([(key, value)], after)
            | _ => none
        | _ => none
    | _ => none

end

/-- `none` where it throws. Every call that takes no character is followed by one that does. -/
def parse (text : List Char) : Option (Json NumberText) :=
  match parseValue (2 * text.length + 2) text with
  | some (value, rest) => if skip rest = [] then some value else none
  | none => none

variable (c : Char)

theorem ofUnits_charUnits (units : List ℕ) : ofUnits (charUnits c ++ units) = c :: ofUnits units := by
  have bound : c.toNat < 0xD800 ∨ (0xDFFF < c.toNat ∧ c.toNat < 0x110000) := c.valid
  by_cases plane : c.toNat < 0x10000
  · have single : unitChar c.toNat = c := by
      rw [unitChar, if_neg (by omega), Char.ofNat_toNat]
    rw [charUnits, if_pos plane, List.cons_append, List.nil_append]
    cases units with
    | nil => rw [ofUnits, ofUnits, single]
    | cons low rest => rw [ofUnits, if_neg (by omega), single]
  · rw [charUnits, if_neg plane, List.cons_append, List.cons_append, List.nil_append, ofUnits,
      if_pos (by omega)]
    have code : 0x10000 + (0xD800 + (c.toNat - 0x10000) / 0x400 - 0xD800) * 0x400 +
        (0xDC00 + (c.toNat - 0x10000) % 0x400 - 0xDC00) = c.toNat := by omega
    rw [code, Char.ofNat_toNat]

theorem ofUnits_flatMap (letters : List Char) : ofUnits (letters.flatMap charUnits) = letters := by
  induction letters with
  | nil => rw [List.flatMap_nil, ofUnits]
  | cons c rest ih => rw [List.flatMap_cons, ofUnits_charUnits, ih]

theorem hexDigit_digitChar : ∀ n < 16, hexDigit (Nat.digitChar n) = some n := by decide

theorem unescaped_short (c letter : Char) (short : shortEscape c = some letter) :
    unescaped letter = some c ∧ letter ≠ 'u' := by
  obtain ⟨pair, found, rfl⟩ := Option.map_eq_some_iff.mp short
  have same := List.find?_some found
  have member := List.mem_of_find?_eq_some found
  rw [beq_iff_eq] at same
  subst same
  simp only [shortEscapes, List.mem_cons, List.not_mem_nil, or_false] at member
  rcases member with rfl | rfl | rfl | rfl | rfl | rfl | rfl <;> decide

theorem parseUnits_backslash (letter c : Char) (rest : List Char) (other : letter ≠ 'u')
    (known : unescaped letter = some c) : parseUnits ('\\' :: letter :: rest) =
      (parseUnits rest).map (fun found => (charUnits c ++ found.1, found.2)) := by
  rw [parseUnits.eq_def]
  split
  · next same => cases same
  · next same => cases same
  · next same =>
    cases same
    exact absurd rfl other
  · next same =>
    cases same
    rw [known]
    cases parseUnits rest <;> rfl
  · next short same =>
    obtain ⟨rfl, rfl⟩ := List.cons.inj same
    exact (short letter rest rfl rfl).elim

theorem parseUnits_plain (rest : List Char) (quote : c ≠ '"') (escape : c ≠ '\\')
    (printed : ¬ c.toNat < 32) : parseUnits (c :: rest) =
      (parseUnits rest).map (fun found => (charUnits c ++ found.1, found.2)) := by
  rw [parseUnits.eq_def]
  split
  · next same => cases same
  · next same => exact absurd (List.cons.inj same).1 quote
  iterate 2 · next same => exact absurd (List.cons.inj same).1 escape
  · next same =>
    obtain ⟨rfl, rfl⟩ := List.cons.inj same
    rw [if_neg (by simp [escape, printed])]

theorem parseUnits_escape (rest : List Char) :
    parseUnits (escape c ++ rest) =
      (parseUnits rest).map (fun found => (charUnits c ++ found.1, found.2)) := by
  unfold escape
  cases short : shortEscape c with
  | some letter =>
    obtain ⟨known, other⟩ := unescaped_short c letter short
    exact parseUnits_backslash letter c rest other known
  | none =>
    by_cases control : c.toNat < 32
    · have high := hexDigit_digitChar (c.toNat / 16) (by omega)
      have low := hexDigit_digitChar (c.toNat % 16) (by omega)
      have zero : hexDigit '0' = some 0 := rfl
      have code : ((0 * 16 + 0) * 16 + c.toNat / 16) * 16 + c.toNat % 16 = c.toNat := by omega
      have units : charUnits c = [c.toNat] := if_pos (by omega)
      simp only [if_pos control, List.cons_append, List.nil_append, parseUnits, hexUnit, zero, high,
        low, Option.bind_eq_bind, Option.bind_some, code, units]
      cases parseUnits rest <;> rfl
    · simp only [if_neg control, List.cons_append, List.nil_append]
      have plain : c ≠ '"' ∧ c ≠ '\\' := by
        constructor
        all_goals
          intro same
          rw [same] at short
          cases short
      exact parseUnits_plain c rest plain.1 plain.2 control

theorem parseUnits_escaped (letters rest : List Char) :
    parseUnits (letters.flatMap escape ++ '"' :: rest) =
      some (letters.flatMap charUnits, rest) := by
  induction letters with
  | nil => rfl
  | cons c letters ih =>
    rw [List.flatMap_cons, List.append_assoc, parseUnits_escape, ih, Option.map_some, List.flatMap_cons]

theorem parseString_quote (value : String) (rest : List Char) :
    parseString (value.toList.flatMap escape ++ '"' :: rest) = some (value, rest) := by
  rw [parseString, parseUnits_escaped, Option.map_some, ofUnits_flatMap, String.ofList_toList]

/-- What follows a value: nothing a number could go on with. -/
def Stops (rest : List Char) : Prop := ∀ c ∈ rest.head?, numeric c = false

theorem skip_cons (rest : List Char) (other : c ∉ [' ', '\t', '\n', '\r']) : skip (c :: rest) = c :: rest := by
  rw [skip, List.dropWhile_cons_of_neg]
  simpa using other

theorem numeralOf_text (number : NumberText) (numeral : isNumeral number.text = true) :
    numeralOf number.text = some number := by
  rw [numeralOf, dif_pos ⟨number.nonempty, number.digits⟩, if_pos numeral]

theorem number_ends (number : NumberText) (rest : List Char) (stops : Stops rest) :
    (number.text ++ rest).takeWhile numeric = number.text ∧
      (number.text ++ rest).dropWhile numeric = rest := by
  have inside : ∀ c ∈ number.text, numeric c = true := by
    intro c member
    rcases number.digits c member with digit | sign
    · simp [numeric, digit]
    · simp only [List.mem_cons, List.not_mem_nil, or_false] at sign
      rcases sign with rfl | rfl | rfl | rfl <;> rfl
  rw [List.takeWhile_append_of_pos inside, List.dropWhile_append_of_pos inside]
  cases rest with
  | nil => simp
  | cons c more =>
    have ends := stops c rfl
    rw [List.takeWhile_cons_of_neg (by simp [ends]), List.dropWhile_cons_of_neg (by simp [ends]),
      List.append_nil]
    exact ⟨rfl, rfl⟩

theorem parseNumber_text (number : NumberText) (numeral : isNumeral number.text = true)
    (rest : List Char) (stops : Stops rest) : parseNumber (number.text ++ rest) = some (.num number, rest) := by
  have same : number.text.map (fun c => if c = 'E' then 'e' else c) = number.text := by
    have each : ∀ c ∈ number.text, (if c = 'E' then 'e' else c) = c := by
      intro c member
      have other : c ≠ 'E' := by
        intro capital
        have known := number.digits c member
        rw [capital] at known
        exact absurd known (by decide)
      rw [if_neg other]
    rw [List.map_congr_left each, List.map_id']
  obtain ⟨taken, dropped⟩ := number_ends number rest stops
  rw [parseNumber, taken, dropped, same, numeralOf_text number numeral, Option.map_some]

theorem isUnsigned_head (text : List Char) (unsigned : isUnsigned text = true) :
    ∃ c rest, text = c :: rest ∧ c.isDigit = true := by
  cases text with
  | nil => cases unsigned
  | cons c rest =>
    refine ⟨c, rest, rfl, ?_⟩
    by_contra other
    have empty : (c :: rest).takeWhile Char.isDigit = [] := List.takeWhile_cons_of_neg other
    simp [isUnsigned, empty] at unsigned

theorem isNumeral_head (text : List Char) (numeral : isNumeral text = true) :
    ∃ c rest, text = c :: rest ∧ (c = '-' ∨ c.isDigit = true) := by
  unfold isNumeral at numeral
  split at numeral
  · exact ⟨_, _, rfl, .inl rfl⟩
  · obtain ⟨c, rest, same, digit⟩ := isUnsigned_head text numeral
    exact ⟨c, rest, same, .inr digit⟩

theorem parseValue_num (fuel : ℕ) (c : Char) (rest : List Char) (start : c = '-' ∨ c.isDigit = true) :
    parseValue (fuel + 1) (c :: rest) = parseNumber (c :: rest) := by
  have other : ∀ d ∈ ['n', 't', 'f', '"', '[', '{', ' ', '\t', '\n', '\r'], c ≠ d := by
    intro d member same
    subst same
    simp only [List.mem_cons, List.not_mem_nil, or_false] at member
    rcases member with rfl | rfl | rfl | rfl | rfl | rfl | rfl | rfl | rfl | rfl <;> revert start <;>
      decide
  have unskipped : skip (c :: rest) = c :: rest := by
    refine skip_cons c rest (fun member => ?_)
    simp only [List.mem_cons, List.not_mem_nil, or_false] at member
    rcases member with same | same | same | same
    · exact other ' ' (by simp) same
    · exact other '\t' (by simp) same
    · exact other '\n' (by simp) same
    · exact other '\r' (by simp) same
  rw [parseValue, unskipped]
  split
  · next same => exact absurd (List.cons.inj same).1 (other 'n' (by simp))
  · next same => exact absurd (List.cons.inj same).1 (other 't' (by simp))
  · next same => exact absurd (List.cons.inj same).1 (other 'f' (by simp))
  · next same => exact absurd (List.cons.inj same).1 (other '"' (by simp))
  · next same => exact absurd (List.cons.inj same).1 (other '[' (by simp))
  · next same => exact absurd (List.cons.inj same).1 (other '{' (by simp))
  · rfl

theorem stops_of_mark (c : Char) (rest : List Char) (mark : c ∈ [',', '}', ']', '|']) : Stops (c :: rest) := by
  intro d same
  obtain rfl := Option.some.inj same
  simp only [List.mem_cons, List.not_mem_nil, or_false] at mark
  rcases mark with rfl | rfl | rfl | rfl <;> rfl

def moreItems (items : List (Json NumberText)) : List Char :=
  if items.isEmpty then [']'] else ',' :: itemsText items

def moreMembers (members : List (String × Json NumberText)) : List Char :=
  if members.isEmpty then ['\x7d'] else ',' :: membersText members

theorem itemsText_cons (item : Json NumberText) (items : List (Json NumberText)) :
    itemsText (item :: items) = text item ++ moreItems items := by
  cases items <;> rfl

theorem membersText_cons (key : String) (value : Json NumberText)
    (members : List (String × Json NumberText)) : membersText ((key, value) :: members) =
      quote key ++ ':' :: (text value ++ moreMembers members) := by
  cases members <;> rfl

theorem moreItems_stops (items : List (Json NumberText)) (rest : List Char) : Stops (moreItems items ++ rest) := by
  cases items with
  | nil | cons => exact stops_of_mark _ _ (by simp)

theorem moreMembers_stops (members : List (String × Json NumberText)) (rest : List Char) :
    Stops (moreMembers members ++ rest) := by
  cases members with
  | nil | cons => exact stops_of_mark _ _ (by simp)

theorem quote_cancel (left right : String) (a b : List Char)
    (same : quote left ++ a = quote right ++ b) : left = right ∧ a = b := by
  simp only [quote, List.cons_append, List.append_assoc, List.nil_append, List.cons.injEq, true_and] at same
  have read := parseString_quote left a
  rw [same, parseString_quote, Option.some.injEq, Prod.mk.injEq] at read
  exact ⟨read.1.symm, read.2.symm⟩

theorem numeral_cancel (x y : NumberText) (a b : List Char) (stopsA : Stops a) (stopsB : Stops b)
    (same : x.text ++ a = y.text ++ b) : x = y ∧ a = b := by
  obtain ⟨text, rest⟩ := number_ends x a stopsA
  obtain ⟨other, more⟩ := number_ends y b stopsB
  rw [same, other] at text
  rw [same, more] at rest
  cases x
  cases y
  exact ⟨by simpa using text.symm, rest.symm⟩

mutual

theorem text_cancel (x y : Json NumberText) (a b : List Char) (stopsA : Stops a) (stopsB : Stops b)
    (same : text x ++ a = text y ++ b) : x = y ∧ a = b := by
  have kinds := same_kind x y a b same
  match x, y with
  | .null, .null | .bool true, .bool true | .bool false, .bool false =>
    exact ⟨rfl, by simpa [text] using same⟩
  | .num m, .num n =>
    rw [text, text] at same
    obtain ⟨rfl, rest⟩ := numeral_cancel m n a b stopsA stopsB same
    exact ⟨rfl, rest⟩
  | .str s, .str t =>
    rw [text, text] at same
    obtain ⟨rfl, rest⟩ := quote_cancel s t a b same
    exact ⟨rfl, rest⟩
  | .arr xs, .arr ys =>
    simp only [text, List.cons_append, List.cons.injEq, true_and] at same
    obtain ⟨rfl, rest⟩ := items_cancel xs ys a b same
    exact ⟨rfl, rest⟩
  | .obj xs, .obj ys =>
    simp only [text, List.cons_append, List.cons.injEq, true_and] at same
    obtain ⟨rfl, rest⟩ := members_cancel xs ys a b same
    exact ⟨rfl, rest⟩

theorem items_cancel (xs ys : List (Json NumberText)) (a b : List Char)
    (same : itemsText xs ++ a = itemsText ys ++ b) : xs = ys ∧ a = b := by
  match xs, ys with
  | [], [] => exact ⟨rfl, by simpa [itemsText] using same⟩
  | [], y :: ys =>
    rw [itemsText_cons, List.append_assoc] at same
    exact (text_ne_bracket y _ _ same).elim
  | x :: xs, [] =>
    rw [itemsText_cons, List.append_assoc] at same
    exact (text_ne_bracket x _ _ same.symm).elim
  | x :: xs, y :: ys =>
    rw [itemsText_cons, itemsText_cons, List.append_assoc, List.append_assoc] at same
    obtain ⟨rfl, rest⟩ := text_cancel x y _ _ (moreItems_stops xs a) (moreItems_stops ys b) same
    match xs, ys with
    | [], [] => exact ⟨rfl, (List.cons.inj rest).2⟩
    | [], _ :: _ | _ :: _, [] => cases rest
    | next :: xs, other :: ys =>
      obtain ⟨tails, ends⟩ := items_cancel (next :: xs) (other :: ys) a b (List.cons.inj rest).2
      exact ⟨by rw [tails], ends⟩

theorem members_cancel (xs ys : List (String × Json NumberText)) (a b : List Char)
    (same : membersText xs ++ a = membersText ys ++ b) : xs = ys ∧ a = b := by
  match xs, ys with
  | [], [] => exact ⟨rfl, by simpa [membersText] using same⟩
  | [], (key, y) :: ys | (key, x) :: xs, [] => simp [membersText_cons, membersText, quote] at same
  | (key, x) :: xs, (other, y) :: ys =>
    rw [membersText_cons, membersText_cons, List.append_assoc, List.append_assoc] at same
    obtain ⟨rfl, after⟩ := quote_cancel key other _ _ same
    rw [List.cons_append, List.cons_append, List.append_assoc, List.append_assoc] at after
    obtain ⟨rfl, rest⟩ := text_cancel x y _ _ (moreMembers_stops xs a) (moreMembers_stops ys b)
      (List.cons.inj after).2
    match xs, ys with
    | [], [] => exact ⟨rfl, (List.cons.inj rest).2⟩
    | [], _ :: _ | _ :: _, [] => cases rest
    | next :: xs, second :: ys =>
      obtain ⟨tails, ends⟩ := members_cancel (next :: xs) (second :: ys) a b (List.cons.inj rest).2
      exact ⟨by rw [tails], ends⟩

end

mutual

def Numeric : Json NumberText → Prop
  | .num number => isNumeral number.text = true
  | .arr items => NumericItems items
  | .obj members => NumericMembers members
  | .null | .bool _ | .str _ => True

def NumericItems : List (Json NumberText) → Prop
  | [] => True
  | item :: rest => Numeric item ∧ NumericItems rest

def NumericMembers : List (String × Json NumberText) → Prop
  | [] => True
  | (_, value) :: rest => Numeric value ∧ NumericMembers rest

end

theorem text_starts (value : Json NumberText) (numeric : Numeric value) : ∃ c rest, text value = c :: rest ∧
    c ∉ [' ', '\t', '\n', '\r'] ∧ c ≠ ']' := by
  cases value with
  | null | str | arr | obj => exact ⟨_, _, rfl, by decide, by decide⟩
  | bool flag => cases flag <;> exact ⟨_, _, rfl, by decide, by decide⟩
  | num number =>
    obtain ⟨c, rest, is, start⟩ := isNumeral_head number.text numeric
    refine ⟨c, rest, is, ?_, ?_⟩
    · intro blank
      simp only [List.mem_cons, List.not_mem_nil, or_false] at blank
      rcases blank with rfl | rfl | rfl | rfl <;> revert start <;> decide
    · intro bracket
      rw [bracket] at start
      revert start
      decide

theorem text_length (value : Json NumberText) (numeric : Numeric value) : 0 < (text value).length := by
  obtain ⟨c, rest, is, _⟩ := text_starts value numeric
  simp [is]

theorem parseValue_arr (fuel : ℕ) (item : Json NumberText) (items : List (Json NumberText))
    (numeric : Numeric item) (rest : List Char) :
    parseValue (fuel + 1) (text (.arr (item :: items)) ++ rest) =
      (parseItems fuel (itemsText (item :: items) ++ rest)).map fun found => (.arr found.1, found.2) := by
  obtain ⟨c, more, is, blank, bracket⟩ := text_starts item numeric
  rw [text, itemsText_cons, is, List.cons_append, List.cons_append, List.cons_append, parseValue,
    skip_cons '[' _ (by decide)]
  simp only [skip_cons c _ blank]
  split
  next same => exact absurd (List.cons.inj same).1 bracket
  next => rfl

theorem parseValue_obj (fuel : ℕ) (member : String × Json NumberText)
    (members : List (String × Json NumberText)) (rest : List Char) :
    parseValue (fuel + 1) (text (.obj (member :: members)) ++ rest) =
      (parseMembers fuel (membersText (member :: members) ++ rest)).map
        fun found => (.obj found.1, found.2) := by
  rw [text, membersText_cons, quote, List.cons_append, List.cons_append, List.cons_append, parseValue,
    skip_cons '\x7b' _ (by decide)]
  simp only [skip_cons '"' _ (by decide)]
  split
  next same => exact absurd (List.cons.inj same).1 (by decide)
  next => rfl

mutual

theorem parseValue_written (value : Json NumberText) (numeric : Numeric value) (fuel : ℕ)
    (enough : 2 * (text value).length ≤ fuel) (rest : List Char) (stops : Stops rest) :
    parseValue fuel (text value ++ rest) = some (value, rest) := by
  have long := text_length value numeric
  obtain ⟨fuel, rfl⟩ : ∃ n, fuel = n + 1 := ⟨fuel - 1, by omega⟩
  match value with
  | .null => simp [text, parseValue, skip]
  | .bool true | .bool false => simp [text, parseValue, skip]
  | .num number =>
    obtain ⟨c, others, same, start⟩ := isNumeral_head number.text numeric
    have parsed := parseNumber_text number numeric rest stops
    rw [same, List.cons_append] at parsed
    rw [text, same, List.cons_append, parseValue_num fuel c _ start, parsed]
  | .str letters =>
    rw [text, quote, List.cons_append, List.append_assoc, List.cons_append, List.nil_append,
      parseValue, skip_cons _ _ (by decide)]
    simp only [parseString_quote, Option.map_some]
  | .arr [] => simp [text, itemsText, parseValue, skip]
  | .obj [] => simp [text, membersText, parseValue, skip]
  | .arr (item :: items) =>
    rw [text, List.length_cons] at enough
    rw [parseValue_arr fuel item items numeric.1, parseItems_written item items numeric fuel (by omega)]
    rfl
  | .obj ((key, value) :: members) =>
    rw [text, List.length_cons] at enough
    rw [parseValue_obj, parseMembers_written key value members numeric fuel (by omega)]
    rfl
termination_by fuel

theorem parseItems_written (item : Json NumberText) (items : List (Json NumberText))
    (numeric : NumericItems (item :: items)) (fuel : ℕ)
    (enough : 2 * (itemsText (item :: items)).length + 1 ≤ fuel) (rest : List Char) :
    parseItems fuel (itemsText (item :: items) ++ rest) = some (item :: items, rest) := by
  obtain ⟨fuel, rfl⟩ : ∃ n, fuel = n + 1 := ⟨fuel - 1, by omega⟩
  rw [itemsText_cons, List.length_append] at enough
  rw [itemsText_cons, List.append_assoc, parseItems,
    parseValue_written item numeric.1 fuel (by omega) _ (moreItems_stops items rest)]
  match items with
  | [] => simp only [moreItems, List.isEmpty_nil, if_true, List.cons_append, List.nil_append,
      skip_cons ']' _ (by decide)]
  | next :: items =>
    have others := parseItems_written next items numeric.2 fuel (by simp [moreItems] at enough; omega) rest
    simp [moreItems, skip_cons, others]
termination_by fuel

theorem parseMembers_written (key : String) (value : Json NumberText)
    (members : List (String × Json NumberText)) (numeric : NumericMembers ((key, value) :: members))
    (fuel : ℕ) (enough : 2 * (membersText ((key, value) :: members)).length + 1 ≤ fuel)
    (rest : List Char) : parseMembers fuel (membersText ((key, value) :: members) ++ rest) =
      some ((key, value) :: members, rest) := by
  obtain ⟨fuel, rfl⟩ : ∃ n, fuel = n + 1 := ⟨fuel - 1, by omega⟩
  rw [membersText_cons, List.length_append, List.length_cons, List.length_append] at enough
  have first := parseValue_written value numeric.1 fuel (by omega) _ (moreMembers_stops members rest)
  simp only [membersText_cons, quote, List.append_assoc, List.cons_append, List.nil_append]
  rw [parseMembers, skip_cons _ _ (by decide)]
  simp only [parseString_quote, skip_cons ':' _ (by decide), first]
  match members with
  | [] => simp [moreMembers, skip_cons]
  | (other, next) :: members =>
    have others := parseMembers_written other next members numeric.2 fuel
      (by simp [moreMembers] at enough; omega) rest
    simp [moreMembers, skip_cons, others]
termination_by fuel

end

theorem parse_text (value : Json NumberText) (numeric : Numeric value) : parse (text value) = some value := by
  have read := parseValue_written value numeric (2 * (text value).length + 2) (by omega) [] (by simp [Stops])
  rw [List.append_nil] at read
  rw [parse, read]
  rfl

end Json
