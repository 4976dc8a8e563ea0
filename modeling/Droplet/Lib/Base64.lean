import Mathlib

/-! `base64url` text of bytes, and UTF-8 text of bytes, as Node's `Buffer` writes and reads them. -/

namespace Base64

def letter (sextet : ℕ) : Char :=
  if sextet < 26 then Char.ofNat ('A'.toNat + sextet)
  else if sextet < 52 then Char.ofNat ('a'.toNat + (sextet - 26))
  else if sextet < 62 then Char.ofNat ('0'.toNat + (sextet - 52))
  else if sextet = 62 then '-'
  else '_'

/-- The letters of plain base64 are read too. -/
def sextet (c : Char) : Option ℕ :=
  if c.isUpper then some (c.toNat - 'A'.toNat)
  else if c.isLower then some (c.toNat - 'a'.toNat + 26)
  else if c.isDigit then some (c.toNat - '0'.toNat + 52)
  else if c = '-' ∨ c = '+' then some 62
  else if c = '_' ∨ c = '/' then some 63
  else none

/-- Without padding. -/
def encode : List UInt8 → List Char
  | [] => []
  | [a] => [letter (a.toNat / 4), letter (a.toNat % 4 * 16)]
  | [a, b] =>
    [letter (a.toNat / 4), letter (a.toNat % 4 * 16 + b.toNat / 16), letter (b.toNat % 16 * 4)]
  | a :: b :: c :: rest =>
    letter (a.toNat / 4) :: letter (a.toNat % 4 * 16 + b.toNat / 16) ::
      letter (b.toNat % 16 * 4 + c.toNat / 64) :: letter (c.toNat % 64) :: encode rest

def bytes : List ℕ → List UInt8
  | x :: y :: z :: w :: rest =>
    UInt8.ofNat (x * 4 + y / 16) :: UInt8.ofNat (y % 16 * 16 + z / 4) ::
      UInt8.ofNat (z % 4 * 64 + w) :: bytes rest
  | [x, y, z] => [UInt8.ofNat (x * 4 + y / 16), UInt8.ofNat (y % 16 * 16 + z / 4)]
  | [x, y] => [UInt8.ofNat (x * 4 + y / 16)]
  | _ => []

/-- Characters that are no letters of base64 are passed over. -/
def decode (text : List Char) : List UInt8 := bytes (text.filterMap sextet)

theorem sextet_letter (n : ℕ) (small : n < 64) : sextet (letter n) = some n := by
  have table : ∀ n < 64, sextet (letter n) = some n := by decide
  exact table n small

theorem ofNat_eq (byte : UInt8) (n : ℕ) (same : n = byte.toNat) : UInt8.ofNat n = byte := by
  rw [same, UInt8.ofNat_toNat]

theorem decode_encode (data : List UInt8) : decode (encode data) = data := by
  induction data using encode.induct with
  | case1 => rfl
  | case2 a =>
    have := a.toNat_lt
    simp only [decode, encode, List.filterMap_cons, List.filterMap_nil,
      sextet_letter (a.toNat / 4) (by omega), sextet_letter (a.toNat % 4 * 16) (by omega), bytes]
    rw [ofNat_eq a _ (by omega)]
  | case3 a b =>
    have := a.toNat_lt
    have := b.toNat_lt
    simp only [decode, encode, List.filterMap_cons, List.filterMap_nil,
      sextet_letter (a.toNat / 4) (by omega),
      sextet_letter (a.toNat % 4 * 16 + b.toNat / 16) (by omega),
      sextet_letter (b.toNat % 16 * 4) (by omega), bytes]
    rw [ofNat_eq a _ (by omega), ofNat_eq b _ (by omega)]
  | case4 a b c rest ih =>
    have := a.toNat_lt
    have := b.toNat_lt
    have := c.toNat_lt
    rw [decode] at ih
    simp only [decode, encode, List.filterMap_cons, sextet_letter (a.toNat / 4) (by omega),
      sextet_letter (a.toNat % 4 * 16 + b.toNat / 16) (by omega),
      sextet_letter (b.toNat % 16 * 4 + c.toNat / 64) (by omega),
      sextet_letter (c.toNat % 64) (by omega), bytes, ih]
    rw [ofNat_eq a _ (by omega), ofNat_eq b _ (by omega), ofNat_eq c _ (by omega)]

def utf8 (text : List Char) : List UInt8 := text.flatMap String.utf8EncodeChar

/-- How many bytes have to follow a first byte, and the range of the first of them. -/
def following (first : ℕ) : ℕ × ℕ × ℕ :=
  if 0xC2 ≤ first ∧ first ≤ 0xDF then (1, 0x80, 0xBF)
  else if first = 0xE0 then (2, 0xA0, 0xBF)
  else if first = 0xED then (2, 0x80, 0x9F)
  else if 0xE1 ≤ first ∧ first ≤ 0xEF then (2, 0x80, 0xBF)
  else if first = 0xF0 then (3, 0x90, 0xBF)
  else if first = 0xF4 then (3, 0x80, 0x8F)
  else if 0xF1 ≤ first ∧ first ≤ 0xF3 then (3, 0x80, 0xBF)
  else (0, 0, 0)

/-- The bytes behind a first byte that belong to it. -/
def sequence (first : ℕ) (rest : List UInt8) : List UInt8 :=
  match following first, rest with
  | (needed + 1, low, high), second :: more =>
    if low ≤ second.toNat ∧ second.toNat ≤ high then
      second :: (more.take needed).takeWhile (fun byte => 0x80 ≤ byte.toNat && byte.toNat ≤ 0xBF)
    else []
  | _, _ => []

/-- Each longest piece that is no character is one `U+FFFD`. -/
def replaced : ℕ → List UInt8 → List Char
  | 0, _ => []
  | _, [] => []
  | fuel + 1, first :: rest =>
    let piece := sequence first.toNat rest
    match (first :: piece).toByteArray.utf8Decode? with
    | some letters => letters.toList ++ replaced fuel (rest.drop piece.length)
    | none => Char.ofNat 0xFFFD :: replaced fuel (rest.drop piece.length)

def utf8Text (data : List UInt8) : List Char :=
  match data.toByteArray.utf8Decode? with
  | some letters => letters.toList
  | none => replaced data.length data

theorem utf8Text_utf8 (text : List Char) : utf8Text (utf8 text) = text := by
  have decoded : (utf8 text).toByteArray.utf8Decode? = some text.toArray :=
    List.utf8Decode?_utf8Encode
  rw [utf8Text, decoded]

end Base64
