import Droplet.Lib.Decimal
import Droplet.Lib.JsText

/-! Money in minor units (`shared-types/money.ts`), and as it is shown (`tools-core/major-units.ts`). -/

namespace Droplet.Money

open JsText

def DEFAULT_MINOR_UNIT_EXPONENT : ℕ := 2

def MINOR_UNIT_EXPONENTS : List (String × ℕ) :=
  (["BIF", "CLP", "DJF", "GNF", "ISK", "JPY", "KMF", "KRW", "PYG", "RWF", "UGX", "UYI", "VND", "VUV", "XAF",
    "XOF", "XPF"].map fun code => (code, 0)) ++
  (["BHD", "IQD", "JOD", "KWD", "LYD", "OMR", "TND"].map fun code => (code, 3)) ++
  (["CLF", "UYW"].map fun code => (code, 4))

def CURRENCY_CODE (code : List Char) : Bool := code.length = 3 && code.all Char.isUpper

/-- What the groups of `DECIMAL` match; the fraction is there with its point. -/
structure Parts where
  sign : List Char
  whole : List Char
  fraction : Option (List Char)

@[simp] def isSign (c : Char) : Bool := c = '+' || c = '-'

def DECIMAL (text : List Char) : Option Parts :=
  let sign := (text.take 1).filter isSign
  let rest := text.drop sign.length
  match rest.dropWhile Char.isDigit with
  | [] => some ⟨sign, rest.takeWhile Char.isDigit, none⟩
  | '.' :: fraction =>
    if fraction.all Char.isDigit then some ⟨sign, rest.takeWhile Char.isDigit, some fraction⟩ else none
  | _ => none

def padEnd (width : ℕ) (text : List Char) : List Char := text ++ List.replicate (width - text.length) '0'

/-- A comma at each place between two digits that some groups of three digits follow. -/
def grouped : List Char → List Char
  | [] => []
  | c :: rest => c :: ((if rest ≠ [] ∧ rest.length % 3 = 0 then [','] else []) ++ grouped rest)

section

variable (toUpperCase : List Char → List Char)

def minorUnitExponent (currency : List Char) : Option ℕ :=
  let code := toUpperCase (trimChars currency)
  if CURRENCY_CODE code then
    some ((MINOR_UNIT_EXPONENTS.lookup (String.ofList code)).getD DEFAULT_MINOR_UNIT_EXPONENT)
  else none

def toMinorUnits (major currency : List Char) : Option ℤ :=
  match minorUnitExponent toUpperCase currency, DECIMAL (trimChars major) with
  | some exponent, some parts =>
    let fraction := parts.fraction.getD []
    if parts.whole = [] ∧ fraction = [] then none
    else if (fraction.drop exponent).all (· = '0') then
      let value : ℤ := Decimal.value (parts.whole ++ padEnd exponent (fraction.take exponent))
      some (if parts.sign = ['-'] then -value else value)
    else none
  | _, _ => none

/-- Of an amount that `BigInt` has read. -/
def formatMinorUnits (minor : ℤ) (currency : List Char) : Option (List Char) :=
  (minorUnitExponent toUpperCase currency).map fun exponent =>
    let sign := if minor < 0 then ['-'] else []
    let digits := Decimal.pad (exponent + 1) minor.natAbs
    if exponent = 0 then sign ++ digits
    else sign ++ digits.take (digits.length - exponent) ++ '.' :: digits.drop (digits.length - exponent)

def spaced (symbol : List Char) : List Char := symbol ++ if symbol.getLast?.any Char.isAlpha then [' '] else []

/-- `currencySymbol` is what `Intl` shows for a code. -/
def displayMajor (currencySymbol : List Char → List Char) (amount currency : List Char) :
    Option (List Char) :=
  match minorUnitExponent toUpperCase currency, DECIMAL (trimChars amount) with
  | some exponent, some ⟨sign, whole, fraction⟩ =>
    if sign = ['+'] ∨ whole = [] ∨ fraction = some [] then none
    else
      let symbol := currencySymbol (toUpperCase (trimChars currency))
      let decimals := padEnd exponent (fraction.getD [])
      some (sign ++ spaced symbol ++ grouped whole ++
        if decimals = [] then [] else '.' :: decimals)
  | _, _ => none

end

/-- Digits with at most one point, maybe behind a sign. -/
structure Parts.Plain (parts : Parts) : Prop where
  sign : parts.sign = [] ∨ parts.sign = ['+'] ∨ parts.sign = ['-']
  whole : ∀ c ∈ parts.whole, c.isDigit = true
  fraction : ∀ c ∈ parts.fraction.getD [], c.isDigit = true

def Parts.text (parts : Parts) : List Char :=
  parts.sign ++ parts.whole ++ parts.fraction.elim [] ('.' :: ·)

def Parts.digits (parts : Parts) : List Char := parts.whole ++ parts.fraction.getD []

def Parts.places (parts : Parts) : ℕ := (parts.fraction.getD []).length

def Parts.signed (parts : Parts) (n : ℤ) : ℤ := if parts.sign = ['-'] then -n else n

/-- The text is a plain decimal with some digit, and this is its number. -/
def Denotes (text : List Char) (q : ℚ) : Prop :=
  ∃ parts : Parts, text = parts.text ∧ parts.Plain ∧ parts.digits ≠ [] ∧
    q = parts.signed (Decimal.value parts.digits) / 10 ^ parts.places

/-- Three digits stand behind each comma up to the next one, and one to three before the first. -/
def Grouped (digits text : List Char) : Prop :=
  ∃ (first : List Char) (groups : List (List Char)), digits = first ++ groups.flatten ∧
    text = first ++ (groups.map fun group => ',' :: group).flatten ∧ first ≠ [] ∧ first.length ≤ 3 ∧
      ∀ group ∈ groups, group.length = 3

variable {text whole : List Char} {parts : Parts}

theorem DECIMAL_iff : DECIMAL text = some parts ↔ text = parts.text ∧ parts.Plain := by
  constructor
  · intro found
    have signs : ∀ sign, sign = (text.take 1).filter isSign →
        (sign = [] ∨ sign = ['+'] ∨ sign = ['-']) ∧ text = sign ++ text.drop sign.length := by
      intro sign is
      subst is
      cases text with
      | nil => simp
      | cons c rest =>
        by_cases plus : c = '+'
        · simp [plus]
        · by_cases minus : c = '-' <;> simp [plus, minus]
    rw [DECIMAL] at found
    generalize (text.take 1).filter isSign = sign at found signs
    obtain ⟨sign_ok, split⟩ := signs sign rfl
    generalize text.drop sign.length = rest at found split
    have whole_ok : ∀ c ∈ rest.takeWhile Char.isDigit, c.isDigit = true :=
      fun c member => List.mem_takeWhile_imp member
    have parted := List.takeWhile_append_dropWhile (p := Char.isDigit) (l := rest)
    split at found
    · rename_i ended
      obtain rfl := Option.some.inj found
      rw [ended, List.append_nil] at parted
      exact ⟨by simp [Parts.text, parted, split], sign_ok, whole_ok, by simp⟩
    · rename_i fraction ended
      split at found
      · rename_i digits
        obtain rfl := Option.some.inj found
        rw [ended] at parted
        exact ⟨by simp [Parts.text, parted, split], sign_ok, whole_ok, by simpa using digits⟩
      · cases found
    · cases found
  · intro ⟨is, plain⟩
    obtain ⟨sign, whole, fraction⟩ := parts
    obtain ⟨sign_ok, whole_ok, fraction_ok⟩ := plain
    simp only [Parts.text] at is sign_ok whole_ok fraction_ok
    have digits : ∀ tail : List Char, tail.takeWhile Char.isDigit = [] →
        (whole ++ tail).takeWhile Char.isDigit = whole ∧ (whole ++ tail).dropWhile Char.isDigit = tail := by
      intro tail stops
      rw [List.takeWhile_append_of_pos whole_ok, stops, List.append_nil, List.dropWhile_append_of_pos whole_ok]
      exact ⟨rfl, by simpa [stops] using (List.takeWhile_append_dropWhile (p := Char.isDigit) (l := tail))⟩
    have tails : (fraction.elim [] ('.' :: ·)).takeWhile Char.isDigit = [] := by
      cases fraction <;> simp
    obtain ⟨taken, dropped⟩ := digits _ tails
    have front : ((sign ++ whole ++ fraction.elim [] ('.' :: ·)).take 1).filter isSign = sign := by
      rcases sign_ok with rfl | rfl | rfl
      · cases whole with
        | nil => cases fraction <;> simp
        | cons c rest =>
          have digit := whole_ok c (by simp)
          have plus : c ≠ '+' := by rintro rfl; simp at digit
          have minus : c ≠ '-' := by rintro rfl; simp at digit
          simp [plus, minus]
      · simp
      · simp
    rw [DECIMAL, is, front]
    simp only [List.append_assoc, List.drop_left, taken, dropped]
    cases fraction with
    | none => rfl
    | some fraction =>
      have all : fraction.all Char.isDigit = true := by simpa using fraction_ok
      simp [all]

theorem padEnd_value (width : ℕ) (front text : List Char) :
    Decimal.value (front ++ padEnd width text) =
      Decimal.value (front ++ text) * 10 ^ (width - text.length) := by
  rw [padEnd, ← List.append_assoc, Decimal.value_zeros]

/-- Cut or padded to `e` places, the digits and what was cut are the number in units of `10 ^ -e`. -/
theorem Parts.places_moved (parts : Parts) (e : ℕ) :
    Decimal.value (parts.whole ++ padEnd e ((parts.fraction.getD []).take e)) * 10 ^ (parts.places - e) +
        Decimal.value ((parts.fraction.getD []).drop e) =
      Decimal.value parts.digits * 10 ^ (e - parts.places) := by
  rw [padEnd_value, Parts.digits, Parts.places]
  generalize parts.fraction.getD [] = fraction
  by_cases fits : fraction.length ≤ e
  · rw [List.take_of_length_le fits, List.drop_eq_nil_of_le fits, Nat.sub_eq_zero_of_le fits]
    simp [Decimal.value]
  · have whole : parts.whole ++ fraction = (parts.whole ++ fraction.take e) ++ fraction.drop e := by
      rw [List.append_assoc, List.take_append_drop]
    rw [List.length_take, min_eq_left (by omega), Nat.sub_self, Nat.sub_eq_zero_of_le (by omega : e ≤ _), whole,
      Decimal.value_append (parts.whole ++ fraction.take e), List.length_drop]
    simp

theorem eq_iff_of_near {a b p r : ℤ} (near : |r| < p) : a * p = b * p + r ↔ a = b ∧ r = 0 := by
  constructor
  · intro same
    have multiple : p * (a - b) = r := by linarith
    have zero : r = 0 := Int.eq_zero_of_abs_lt_dvd (Dvd.intro _ multiple) near
    rw [zero, mul_eq_zero] at multiple
    have positive : 0 < p := (abs_nonneg r).trans_lt near
    omega
  · intro ⟨same, zero⟩
    rw [same, zero, add_zero]

theorem Parts.exact_iff (plain : parts.Plain) (e : ℕ) (n : ℤ) :
    (n : ℚ) / 10 ^ e = parts.signed (Decimal.value parts.digits) / 10 ^ parts.places ↔
      ((parts.fraction.getD []).drop e).all (· = '0') = true ∧
        n = parts.signed (Decimal.value (parts.whole ++ padEnd e ((parts.fraction.getD []).take e))) := by
  have moved := parts.places_moved e
  have rest : ∀ c ∈ (parts.fraction.getD []).drop e, c.isDigit = true :=
    fun c member => plain.fraction c (List.mem_of_mem_drop member)
  have small := Decimal.value_lt rest
  rw [← Decimal.value_eq_zero rest]
  rw [List.length_drop] at small
  change _ < 10 ^ (parts.places - e) at small
  generalize Decimal.value (parts.whole ++ _) = cut at moved ⊢
  generalize Decimal.value ((parts.fraction.getD []).drop e) = surplus at moved small ⊢
  generalize Decimal.value parts.digits = all at moved ⊢
  have scaled : (n : ℚ) / 10 ^ e = parts.signed all / 10 ^ parts.places ↔
      n * 10 ^ (parts.places - e) = parts.signed all * 10 ^ (e - parts.places) := by
    rw [div_eq_div_iff (by positivity) (by positivity)]
    norm_cast
    push_cast
    rcases Nat.le_total e parts.places with few | many
    · obtain ⟨k, is⟩ := Nat.exists_eq_add_of_le few
      rw [is, Nat.add_sub_cancel_left, Nat.sub_eq_zero_of_le (by omega), pow_zero, mul_one, pow_add,
        mul_left_comm, mul_comm (parts.signed all)]
      exact mul_right_inj' (by positivity)
    · obtain ⟨k, is⟩ := Nat.exists_eq_add_of_le many
      rw [is, Nat.add_sub_cancel_left, Nat.sub_eq_zero_of_le (by omega), pow_zero, mul_one, pow_add,
        mul_left_comm, mul_comm n]
      exact mul_right_inj' (by positivity)
  have moved : (all : ℤ) * 10 ^ (e - parts.places) = cut * 10 ^ (parts.places - e) + surplus := by
    exact_mod_cast moved.symm
  have small : (surplus : ℤ) < 10 ^ (parts.places - e) := by exact_mod_cast small
  rw [scaled, Parts.signed, Parts.signed]
  split
  · rw [neg_mul, moved, neg_add, ← neg_mul, eq_iff_of_near (by rw [abs_neg, Nat.abs_cast]; exact small)]
    omega
  · rw [moved, eq_iff_of_near (by rw [Nat.abs_cast]; exact small)]
    omega

variable {toUpperCase : List Char → List Char} {currency major : List Char}

theorem toMinorUnits_iff (n : ℤ) : toMinorUnits toUpperCase major currency = some n ↔
    ∃ e, minorUnitExponent toUpperCase currency = some e ∧ Denotes (trimChars major) (n / 10 ^ e) := by
  rw [toMinorUnits]
  cases minorUnitExponent toUpperCase currency with
  | none => simp
  | some e =>
    simp only [Option.some.injEq, exists_eq_left', Denotes]
    constructor
    · intro found
      split at found
      · rename_i exponent parts same parsed
        obtain rfl := Option.some.inj same
        obtain ⟨is, plain⟩ := DECIMAL_iff.mp parsed
        split at found
        · cases found
        · rename_i digits
          split at found
          · rename_i zeros
            refine ⟨parts, is, plain, ?_, (Parts.exact_iff plain e n).mpr ⟨zeros, ?_⟩⟩
            · simpa [Parts.digits] using digits
            · exact (Option.some.inj found).symm
          · cases found
      · cases found
    · intro ⟨parts, is, plain, digits, number⟩
      obtain ⟨zeros, same⟩ := (Parts.exact_iff plain e n).mp number
      have some_ : ¬ (parts.whole = [] ∧ parts.fraction.getD [] = []) := by simpa [Parts.digits] using digits
      simp only [DECIMAL_iff.mpr ⟨is, plain⟩, if_neg some_, if_pos zeros, same, Parts.signed]

theorem pad_digits (width n : ℕ) : width ≤ (Decimal.pad width n).length ∧
    (∀ c ∈ Decimal.pad width n, c.isDigit = true) ∧ Decimal.value (Decimal.pad width n) = n := by
  rw [Decimal.pad, Decimal.padStart]
  refine ⟨by rw [List.length_append, List.length_replicate]; omega, ?_, ?_⟩
  · intro c member
    rcases List.mem_append.mp member with zero | digit
    · rw [List.eq_of_mem_replicate zero]
      rfl
    · exact Nat.isDigit_of_mem_toDigits (by decide) (by decide) digit
  · have zeros := Decimal.value_zeros [] (width - (Nat.toDigits 10 n).length)
    rw [Decimal.value_append, ← List.nil_append (List.replicate _ _), zeros]
    simp [Decimal.value]

/-- The parts of a text that `formatMinorUnits` writes. -/
structure Parts.Formats (parts : Parts) (m : ℤ) (e : ℕ) : Prop where
  plain : parts.Plain
  sign : parts.sign = if m < 0 then ['-'] else []
  whole : parts.whole ≠ []
  places : parts.places = e
  point : parts.fraction = none ↔ e = 0
  value : Decimal.value parts.digits = m.natAbs

theorem formatMinorUnits_parts {e : ℕ} (valid : minorUnitExponent toUpperCase currency = some e) (m : ℤ) :
    ∃ parts : Parts, formatMinorUnits toUpperCase m currency = some parts.text ∧ parts.Formats m e := by
  obtain ⟨long, digits, value⟩ := pad_digits (e + 1) m.natAbs
  have sign : ∀ parts : Parts, parts.sign = (if m < 0 then ['-'] else []) →
      parts.sign = [] ∨ parts.sign = ['+'] ∨ parts.sign = ['-'] := by
    intro parts is
    rw [is]
    split <;> simp
  rw [formatMinorUnits, valid, Option.map_some]
  generalize Decimal.pad (e + 1) m.natAbs = text at long digits value
  by_cases zero : e = 0
  · subst zero
    refine ⟨⟨if m < 0 then ['-'] else [], text, none⟩, by simp [Parts.text], ⟨sign _ rfl, digits, by simp⟩, rfl, ?_,
      rfl, by simp, by simpa [Parts.digits] using value⟩
    intro empty
    simp [show text = [] from empty] at long
  · refine ⟨⟨if m < 0 then ['-'] else [], text.take (text.length - e), some (text.drop (text.length - e))⟩,
      by simp [Parts.text, zero], ⟨sign _ rfl, fun c member => digits c (List.mem_of_mem_take member),
        fun c member => digits c (List.mem_of_mem_drop member)⟩, rfl, ?_, ?_, by simp [zero], ?_⟩
    · intro empty
      have none_ := congrArg List.length empty
      simp only [List.length_take, List.length_nil] at none_
      omega
    · simp only [Parts.places, Option.getD_some, List.length_drop]
      omega
    · simpa [Parts.digits] using value

theorem Parts.trim_text (plain : parts.Plain) : trimChars parts.text = parts.text := by
  have digit : ∀ c : Char, c.isDigit = true → isSpace c = false := by
    intro c is
    have range : 48 ≤ c.toNat ∧ c.toNat ≤ 57 := Char.isDigit_iff_toNat.mp is
    rw [Bool.eq_false_iff]
    intro space
    have blank : c ≠ ' ' := by rintro rfl; simp at is
    simp [isSpace, blank] at space
    omega
  have clear : ∀ c ∈ parts.text, isSpace c = false := by
    intro c member
    rw [Parts.text, List.mem_append, List.mem_append] at member
    rcases member with (sign | whole) | fraction
    · rcases plain.sign with is | is | is <;> rw [is] at sign <;> simp at sign <;> subst sign <;> rfl
    · exact digit c (plain.whole c whole)
    · cases fractions : parts.fraction with
      | none => simp [fractions] at fraction
      | some digits =>
        rw [fractions] at fraction
        rcases List.mem_cons.mp fraction with rfl | there
        · rfl
        · exact digit c (plain.fraction c (by simpa [fractions] using there))
  exact trimChars_of_ends _ (fun c first => clear c (List.mem_of_mem_head? first))
    fun c last => clear c (List.mem_of_mem_getLast? last)

theorem grouped_spec (digits : List Char) (some_ : digits ≠ []) : Grouped digits (grouped digits) := by
  induction digits with
  | nil => contradiction
  | cons c rest ih =>
    by_cases one : rest = []
    · subst one
      exact ⟨[c], [], by simp [grouped]⟩
    · obtain ⟨first, groups, is, shown, some_, short, three⟩ := ih one
      have length : rest.length = first.length + 3 * groups.length := by
        rw [is, List.length_append, List.length_flatten, List.map_congr_left three, List.map_const', List.sum_replicate]
        simp [Nat.mul_comm]
      have positive := List.length_pos_iff.mpr some_
      by_cases full : rest.length % 3 = 0
      · refine ⟨[c], first :: groups, by simp [is], ?_, by simp, by simp, ?_⟩
        · simp [grouped, one, full, shown]
        · intro group member
          rcases List.mem_cons.mp member with rfl | there
          · omega
          · exact three group there
      · refine ⟨c :: first, groups, by simp [is], ?_, by simp, ?_, three⟩
        · simp [grouped, full, shown]
        · rw [List.length_cons]
          omega

theorem grouped_filter {digits : List Char} (plain : ∀ c ∈ digits, c ≠ ',') :
    (grouped digits).filter (· ≠ ',') = digits := by
  induction digits with
  | nil => rfl
  | cons c rest ih =>
    have tail := ih fun d member => plain d (List.mem_cons_of_mem _ member)
    have first := plain c List.mem_cons_self
    rw [grouped, List.filter_cons_of_pos (by simpa using first), List.filter_append, tail]
    split <;> simp

theorem Parts.Formats.read {m : ℤ} {e : ℕ} (formats : parts.Formats m e)
    (valid : minorUnitExponent toUpperCase currency = some e) :
    toMinorUnits toUpperCase parts.text currency = some m := by
  refine (toMinorUnits_iff m).mpr ⟨e, valid, parts, parts.trim_text formats.plain, formats.plain, ?_, ?_⟩
  · simp [Parts.digits, formats.whole]
  · have number : parts.signed m.natAbs = m := by
      rw [Parts.signed, formats.sign]
      by_cases negative : m < 0
      · rw [if_pos negative, if_pos rfl]
        omega
      · rw [if_neg negative, if_neg (by simp)]
        omega
    rw [formats.value, formats.places, number]

theorem Parts.Formats.display {m : ℤ} {e : ℕ} (formats : parts.Formats m e)
    (valid : minorUnitExponent toUpperCase currency = some e) (currencySymbol : List Char → List Char) :
    displayMajor toUpperCase currencySymbol parts.text currency =
      some (parts.sign ++ spaced (currencySymbol (toUpperCase (trimChars currency))) ++ grouped parts.whole ++
        parts.fraction.elim [] ('.' :: ·)) := by
  have sign : parts.sign ≠ ['+'] := by
    rw [formats.sign]
    split <;> simp
  rw [displayMajor, valid, parts.trim_text formats.plain, DECIMAL_iff.mpr ⟨rfl, formats.plain⟩]
  obtain ⟨-, -, whole, places, point, -⟩ := formats
  obtain ⟨_, _, fraction⟩ := parts
  cases fraction with
  | none =>
    have zero : e = 0 := point.mp rfl
    simp [sign, whole, padEnd, zero]
  | some digits =>
    have positive : e ≠ 0 := fun zero => by cases point.mpr zero
    have length : digits.length = e := places
    have some_ : digits ≠ [] := by rintro rfl; exact positive length.symm
    simp [sign, whole, padEnd, length, some_]

/-- Reading is exact or absent; what is written is read back, and is shown digit for digit. -/
theorem money_is_exact (toUpperCase currencySymbol : List Char → List Char) (currency : List Char) :
    (∀ major n, toMinorUnits toUpperCase major currency = some n ↔
      ∃ e, minorUnitExponent toUpperCase currency = some e ∧ Denotes (trimChars major) (n / 10 ^ e)) ∧
    ∀ e, minorUnitExponent toUpperCase currency = some e → ∀ m : ℤ, ∃ text,
      formatMinorUnits toUpperCase m currency = some text ∧
      toMinorUnits toUpperCase text currency = some m ∧
      (∀ other, formatMinorUnits toUpperCase other currency = some text → other = m) ∧
      ∃ sign whole shown tail, text = sign ++ whole ++ tail ∧ sign = (if m < 0 then ['-'] else []) ∧
        (∀ c ∈ whole, c.isDigit = true) ∧ (∀ c ∈ tail.head?, c = '.') ∧ Grouped whole shown ∧
        displayMajor toUpperCase currencySymbol text currency =
          some (sign ++ spaced (currencySymbol (toUpperCase (trimChars currency))) ++ shown ++ tail) ∧
        sign ++ (shown ++ tail).filter (· ≠ ',') = text := by
  refine ⟨fun major n => toMinorUnits_iff n, fun e valid m => ?_⟩
  obtain ⟨parts, writes, formats⟩ := formatMinorUnits_parts valid m
  have read := formats.read valid
  refine ⟨parts.text, writes, read, ?_, parts.sign, parts.whole, grouped parts.whole,
    parts.fraction.elim [] ('.' :: ·), rfl, formats.sign, formats.plain.whole, ?_,
    grouped_spec _ formats.whole, formats.display valid currencySymbol, ?_⟩
  · intro other same
    obtain ⟨others, also, written⟩ := formatMinorUnits_parts valid other
    rw [same] at also
    have again := written.read valid
    rw [← Option.some.inj also, read] at again
    exact (Option.some.inj again).symm
  · cases parts.fraction <;> simp
  · have comma : ∀ c : Char, c.isDigit = true → c ≠ ',' := by rintro c digit rfl; simp at digit
    have tail : ((parts.fraction.elim [] ('.' :: ·)).filter (· ≠ ',')) = parts.fraction.elim [] ('.' :: ·) := by
      rw [List.filter_eq_self]
      intro c member
      have plain := formats.plain.fraction
      cases fractions : parts.fraction with
      | none => simp [fractions] at member
      | some digits =>
        rw [fractions] at member plain
        rcases List.mem_cons.mp member with rfl | there
        · rfl
        · simpa using comma c (plain c there)
    rw [List.filter_append, tail, grouped_filter fun c member => comma c (formats.plain.whole c member),
      Parts.text, List.append_assoc]

theorem dinars_are_exact :
    (∃ e, minorUnitExponent id "KWD".toList = some e ∧ Denotes (trimChars " -1.5".toList) ((-1500 : ℤ) / 10 ^ e)) ∧
      ∃ text, formatMinorUnits id (-1500) "KWD".toList = some text ∧
        toMinorUnits id text "KWD".toList = some (-1500) := by
  obtain ⟨read, written⟩ := money_is_exact id id "KWD".toList
  obtain ⟨text, writes, again, -⟩ := written 3 (by decide) (-1500)
  exact ⟨(read " -1.5".toList (-1500)).mp (by decide), text, writes, again⟩

/-- Behind a symbol that ends in a letter stands a space, and the sign is in front of the symbol. -/
theorem letters_are_set_apart :
    formatMinorUnits id (-1) "KWD".toList = some "-0.001".toList ∧
      ¬ ∃ shown, displayMajor id id "-0.001".toList "KWD".toList = some ("-KWD".toList ++ shown) ∧
        toMinorUnits id ('-' :: shown.filter (· ≠ ',')) "KWD".toList = some (-1) := by
  refine ⟨by decide, ?_⟩
  intro ⟨shown, displays, read⟩
  have is : displayMajor id id "-0.001".toList "KWD".toList = some ("-KWD".toList ++ " 0.001".toList) := by
    decide
  rw [is, Option.some_inj, List.append_cancel_left_eq] at displays
  subst displays
  exact absurd read (by decide)

end Droplet.Money
