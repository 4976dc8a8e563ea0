import Mathlib

/-! Percent-encoding of text as UTF-8: `encodeURIComponent` and `decodeURIComponent`. -/

namespace Percent

/-- The characters `encodeURIComponent` leaves alone: letters, digits and `-_.!~*'()`. -/
def plain (c : Char) : Bool :=
  c.isAlphanum || decide (c ∈ ['-', '_', '.', '!', '~', '*', Char.ofNat 39, '(', ')'])

def hexDigit (n : ℕ) : Char := (Nat.digitChar n).toUpper

def hexValue (c : Char) : Option ℕ :=
  if c.isDigit then some (c.toNat - '0'.toNat)
  else if 'A' ≤ c ∧ c ≤ 'F' then some (c.toNat - 'A'.toNat + 10)
  else if 'a' ≤ c ∧ c ≤ 'f' then some (c.toNat - 'a'.toNat + 10)
  else none

def byteText (mark : Char) (byte : UInt8) : List Char :=
  [mark, hexDigit (byte.toNat / 16), hexDigit (byte.toNat % 16)]

def encodeURIComponent (text : String) : List Char :=
  text.toList.flatMap (fun c =>
    if plain c then [c] else (String.utf8EncodeChar c).flatMap (byteText '%'))

/-- The bytes of a text: those that are escaped, and those of the characters between. -/
def decodeBytes : List Char → Option (List UInt8)
  | [] => some []
  | '%' :: high :: low :: rest =>
    match hexValue high, hexValue low with
    | some h, some l => (decodeBytes rest).map (fun bytes => UInt8.ofNat (16 * h + l) :: bytes)
    | _, _ => none
  | c :: rest =>
    if c = '%' then none
    else (decodeBytes rest).map (fun bytes => String.utf8EncodeChar c ++ bytes)

/-- `none` where it throws a `URIError`. -/
def decodeURIComponent (text : List Char) : Option String :=
  (decodeBytes text).bind (fun bytes =>
    (bytes.toByteArray.utf8Decode?).map (fun letters => String.ofList letters.toList))

theorem hexValue_hexDigit (n : ℕ) (small : n < 16) : hexValue (hexDigit n) = some n := by
  have table : ∀ n < 16, hexValue (hexDigit n) = some n := by decide
  exact table n small

theorem decodeBytes_byteText (byte : UInt8) (rest : List Char) :
    decodeBytes (byteText '%' byte ++ rest) =
      (decodeBytes rest).map (fun bytes => byte :: bytes) := by
  have bound := byte.toNat_lt
  have high := hexValue_hexDigit (byte.toNat / 16) (by omega)
  have low := hexValue_hexDigit (byte.toNat % 16) (by omega)
  have whole : UInt8.ofNat (16 * (byte.toNat / 16) + byte.toNat % 16) = byte := by
    rw [Nat.div_add_mod, UInt8.ofNat_toNat]
  simp only [byteText, List.cons_append, List.nil_append, decodeBytes, high, low, whole]

theorem decodeBytes_bytes (bytes : List UInt8) (rest : List Char) :
    decodeBytes (bytes.flatMap (byteText '%') ++ rest) =
      (decodeBytes rest).map (fun others => bytes ++ others) := by
  induction bytes with
  | nil => simp
  | cons byte bytes ih =>
    rw [List.flatMap_cons, List.append_assoc, decodeBytes_byteText, ih, Option.map_map]
    rfl

theorem decodeBytes_plain (c : Char) (rest : List Char) (other : c ≠ '%') :
    decodeBytes (c :: rest) =
      (decodeBytes rest).map (fun bytes => String.utf8EncodeChar c ++ bytes) := by
  rw [decodeBytes.eq_def]
  split
  · next empty => cases empty
  · next same => exact absurd (List.cons.inj same).1 other
  · next same =>
    obtain ⟨rfl, rfl⟩ := List.cons.inj same
    rw [if_neg other]

theorem decodeBytes_utf8 (pieces : Char → List Char) (letters : List Char)
    (piece : ∀ c, pieces c = (String.utf8EncodeChar c).flatMap (byteText '%') ∨
      (pieces c = [c] ∧ c ≠ '%')) :
    decodeBytes (letters.flatMap pieces) = some (letters.flatMap String.utf8EncodeChar) := by
  induction letters with
  | nil => rfl
  | cons c rest ih =>
    rw [List.flatMap_cons, List.flatMap_cons]
    rcases piece c with escaped | ⟨same, other⟩
    · rw [escaped, decodeBytes_bytes, ih, Option.map_some]
    · rw [same, List.cons_append, List.nil_append, decodeBytes_plain c _ other, ih, Option.map_some]

theorem decodeURIComponent_pieces (pieces : Char → List Char) (text : String)
    (piece : ∀ c, pieces c = (String.utf8EncodeChar c).flatMap (byteText '%') ∨
      (pieces c = [c] ∧ c ≠ '%')) :
    decodeURIComponent (text.toList.flatMap pieces) = some text := by
  have decoded : (text.toList.flatMap String.utf8EncodeChar).toByteArray.utf8Decode? =
      some text.toList.toArray := List.utf8Decode?_utf8Encode
  rw [decodeURIComponent, decodeBytes_utf8 pieces text.toList piece, Option.bind_some, decoded,
    Option.map_some]
  simp

end Percent
