import Mathlib

/-! IP addresses as text, and lists of address prefixes. An IPv4 address stands for the IPv6 address
that maps it, so one number of 128 bits names every address. -/

namespace IpText

def digitValue (c : Char) : ℕ :=
  if c.isDigit then c.toNat - '0'.toNat
  else if c.isUpper then c.toNat - 'A'.toNat + 10
  else c.toNat - 'a'.toNat + 10

def isHex (c : Char) : Bool :=
  c.isDigit || decide ('a' ≤ c ∧ c ≤ 'f') || decide ('A' ≤ c ∧ c ≤ 'F')

def numeral (base : ℕ) (digits : List Char) : ℕ :=
  digits.foldl (fun value c => value * base + digitValue c) 0

/-- A decimal number up to 255, without leading zeros. -/
def octet (digits : List Char) : Option ℕ :=
  if digits.all Char.isDigit && digits ≠ [] && decide (digits.length ≤ 3) &&
      (digits.length = 1 || digits.head? ≠ some '0') && decide (numeral 10 digits ≤ 255) then
    some (numeral 10 digits)
  else none

def ipv4 (text : List Char) : Option ℕ :=
  match text.splitOn '.' with
  | [a, b, c, d] => do
      let a ← octet a
      let b ← octet b
      let c ← octet c
      let d ← octet d
      return ((a * 256 + b) * 256 + c) * 256 + d
  | _ => none

def group (digits : List Char) : Option ℕ :=
  if digits.all isHex && digits ≠ [] && decide (digits.length ≤ 4) then some (numeral 16 digits)
  else none

/-- The groups of one side; the last one may be an IPv4 address. -/
def groups : List (List Char) → Option (List ℕ)
  | [] => some []
  | [last] =>
    match group last with
    | some value => some [value]
    | none => (ipv4 last).map fun value => [value / 65536, value % 65536]
  | segment :: rest => do
      let value ← group segment
      let values ← groups rest
      return value :: values

/-- What stands on each side of the first `::`. -/
def sides : List Char → Option (List Char × List Char)
  | [] => none
  | ':' :: ':' :: rest => some ([], rest)
  | c :: rest => (sides rest).map fun (left, right) => (c :: left, right)

def side (read : List (List Char) → Option (List ℕ)) (text : List Char) : Option (List ℕ) :=
  if text = [] then some [] else read (text.splitOn ':')

def address (values : List ℕ) : ℕ := values.foldl (fun value part => value * 65536 + part) 0

def ipv6 (text : List Char) : Option ℕ :=
  match sides text with
  | none =>
    match groups (text.splitOn ':') with
    | some values => if values.length = 8 then some (address values) else none
    | none => none
  | some (left, right) =>
    match side (List.mapM group) left, side groups right with
    | some front, some back =>
      if front.length + back.length ≤ 7 then
        some (address (front ++ List.replicate (8 - front.length - back.length) 0 ++ back))
      else none
    | _, _ => none

def zoneChar (c : Char) : Bool := c.isAlphanum || c = '-' || c = '.' || c = ':'

def zoned (text : List Char) : Option ℕ :=
  match text.dropWhile (· ≠ '%') with
  | [] => ipv6 text
  | _ :: zone => if zone ≠ [] && zone.all zoneChar then ipv6 (text.takeWhile (· ≠ '%')) else none

inductive Family where
  | v4
  | v6

/-- `::ffff:0:0`, the block of the mapped IPv4 addresses. -/
def mapped : ℕ := 0xFFFF * 2 ^ 32

def parse (text : List Char) : Option (Family × ℕ) :=
  match ipv4 text with
  | some value => some (.v4, mapped + value)
  | none => (zoned text).map fun value => (.v6, value)

variable {value : ℕ}

theorem octet_digits {digits : List Char} (read : octet digits = some value) :
    digits.all Char.isDigit ∧ digits ≠ [] := by
  simp only [octet, Option.ite_none_right_eq_some, Bool.and_eq_true, decide_eq_true_eq] at read
  exact ⟨read.1.1.1.1.1, read.1.1.1.1.2⟩

theorem group_digits {digits : List Char} (read : group digits = some value) : digits.all isHex ∧ digits ≠ [] := by
  simp only [group, Option.ite_none_right_eq_some, Bool.and_eq_true, decide_eq_true_eq] at read
  exact ⟨read.1.1.1, read.1.1.2⟩

theorem isHex_of_isDigit {c : Char} (digit : c.isDigit) : isHex c := by
  simp [isHex, digit]

/-- Its first and its last character are hexadecimal digits. -/
def Edged (text : List Char) : Prop :=
  (∃ c, text.head? = some c ∧ isHex c) ∧ ∃ c, text.getLast? = some c ∧ isHex c

variable {text : List Char}

theorem edged_of_all (all : text.all isHex) (nonempty : text ≠ []) : Edged text := by
  rw [List.all_eq_true] at all
  refine ⟨⟨text.head nonempty, List.head?_eq_some_head nonempty, ?_⟩,
    ⟨text.getLast nonempty, List.getLast?_eq_some_getLast nonempty, ?_⟩⟩
  · exact all _ (List.head_mem nonempty)
  · exact all _ (List.getLast_mem nonempty)

theorem edged_append {first middle last : List Char} (front : Edged first) (back : Edged last) :
    Edged (first ++ middle ++ last) := by
  obtain ⟨⟨c, head, hex⟩, -⟩ := front
  obtain ⟨-, ⟨d, final, hex'⟩⟩ := back
  refine ⟨⟨c, ?_, hex⟩, ⟨d, ?_, hex'⟩⟩
  · simp [List.head?_append, head]
  · simp [List.getLast?_append, final]

theorem ipv4_edged (read : ipv4 text = some value) : Edged text := by
  unfold ipv4 at read
  split at read
  · rename_i a b c d segments
    have whole := @List.intercalate_splitOn _ text _ _ '.'
    rw [segments] at whole
    simp only [Option.bind_eq_bind, Option.bind_eq_some_iff] at read
    obtain ⟨_, readA, _, _, _, _, _, readD, _⟩ := read
    have digits : ∀ {segment : List Char} {value : ℕ}, octet segment = some value → Edged segment := by
      intro segment value read
      obtain ⟨all, nonempty⟩ := octet_digits read
      refine edged_of_all ?_ nonempty
      rw [List.all_eq_true] at all ⊢
      exact fun c member => isHex_of_isDigit (all c member)
    have shape : text = a ++ (['.'] ++ b ++ ['.'] ++ c ++ ['.']) ++ d := by
      rw [← whole]
      simp [List.intercalate]
    rw [shape]
    exact edged_append (digits readA) (digits readD)
  · cases read

variable {values : List ℕ}

theorem groups_edged {segments : List (List Char)} (nonempty : segments ≠ [])
    (read : groups segments = some values) : Edged ([':'].intercalate segments) := by
  induction segments generalizing values with
  | nil => exact absurd rfl nonempty
  | cons segment rest ih =>
    cases rest with
    | nil =>
      have whole : [':'].intercalate [segment] = segment := by simp [List.intercalate]
      rw [whole]
      simp only [groups] at read
      split at read
      · rename_i value group
        obtain ⟨all, present⟩ := group_digits group
        exact edged_of_all all present
      · rw [Option.map_eq_some_iff] at read
        obtain ⟨value, quad, -⟩ := read
        exact ipv4_edged quad
    | cons second others =>
      simp only [groups, Option.bind_eq_bind, Option.bind_eq_some_iff] at read
      obtain ⟨value, group, values', rest, -⟩ := read
      obtain ⟨all, present⟩ := group_digits group
      have whole : [':'].intercalate (segment :: second :: others) =
          segment ++ [':'] ++ [':'].intercalate (second :: others) := by
        simp [List.intercalate]
      rw [whole]
      exact edged_append (edged_of_all all present) (ih (by simp) rest)

theorem groups_of_mapM {segments : List (List Char)} (read : segments.mapM group = some values) :
    groups segments = some values := by
  induction segments generalizing values with
  | nil => simpa [groups] using read
  | cons segment rest ih =>
    simp only [List.mapM_cons, Option.bind_eq_bind, Option.bind_eq_some_iff] at read
    obtain ⟨value, first, values', others, same⟩ := read
    cases rest with
    | nil =>
      simp only [List.mapM_nil, Option.pure_def, Option.some.injEq] at others same
      simp [groups, first, ← same, ← others]
    | cons second rest =>
      simp only [groups, first, ih others, Option.bind_eq_bind, Option.bind_some]
      exact same

/-- Its first and its last character are hexadecimal digits or colons. -/
def Bounded (text : List Char) : Prop :=
  (∃ c, text.head? = some c ∧ (isHex c ∨ c = ':')) ∧
    ∃ c, text.getLast? = some c ∧ (isHex c ∨ c = ':')

theorem Edged.bounded (edged : Edged text) : Bounded text := by
  obtain ⟨⟨c, head, hex⟩, d, last, hex'⟩ := edged
  exact ⟨⟨c, head, .inl hex⟩, d, last, .inl hex'⟩

theorem side_bounded {read : List (List Char) → Option (List ℕ)}
    (groups' : ∀ segments values, read segments = some values → groups segments = some values)
    (given : side read text = some values) : text = [] ∨ Bounded text := by
  unfold side at given
  split at given
  · rename_i empty
    exact .inl empty
  · have whole := @List.intercalate_splitOn _ text _ _ ':'
    rw [← whole]
    exact .inr (groups_edged (List.splitOn_ne_nil _ _) (groups' _ _ given)).bounded

theorem sides_eq {text left right : List Char} (found : sides text = some (left, right)) :
    text = left ++ [':', ':'] ++ right := by
  induction text using sides.induct generalizing left right with
  | case1 => simp [sides] at found
  | case2 rest =>
    simp only [sides, Option.some.injEq, Prod.mk.injEq] at found
    obtain ⟨rfl, rfl⟩ := found
    rfl
  | case3 c rest notDouble ih =>
    rw [sides] at found
    · rw [Option.map_eq_some_iff] at found
      obtain ⟨⟨left', right'⟩, inner, same⟩ := found
      simp only [Prod.mk.injEq] at same
      obtain ⟨rfl, rfl⟩ := same
      rw [ih inner]
      rfl
    · exact notDouble

theorem ipv6_bounded (read : ipv6 text = some value) : Bounded text := by
  unfold ipv6 at read
  split at read
  · split at read
    · rename_i values given
      have whole := @List.intercalate_splitOn _ text _ _ ':'
      rw [← whole]
      exact (groups_edged (List.splitOn_ne_nil _ _) given).bounded
    · cases read
  · rename_i left right found
    split at read
    · rename_i front back left' right'
      have first := side_bounded (fun _ _ => groups_of_mapM) left'
      have second := side_bounded (fun _ _ same => same) right'
      rw [sides_eq found]
      constructor
      · rcases first with empty | ⟨⟨c, head, hex⟩, -⟩
        · exact ⟨':', by simp [empty], .inr rfl⟩
        · exact ⟨c, by simp [List.head?_append, head], hex⟩
      · rcases second with empty | ⟨-, d, last, hex⟩
        · exact ⟨':', by simp [empty], .inr rfl⟩
        · exact ⟨d, by rw [List.getLast?_append, last]; rfl, hex⟩
    · cases read

theorem parse_head {result : Family × ℕ} (read : parse text = some result) :
    ∃ c, text.head? = some c ∧ (isHex c ∨ c = ':') := by
  unfold parse at read
  split at read
  · rename_i value quad
    exact (ipv4_edged quad).bounded.1
  · rw [Option.map_eq_some_iff] at read
    obtain ⟨value, zone, -⟩ := read
    unfold zoned at zone
    split at zone
    · exact (ipv6_bounded zone).1
    · split at zone
      · obtain ⟨c, head, hex⟩ := (ipv6_bounded zone).1
        refine ⟨c, ?_, hex⟩
        rw [← List.takeWhile_append_dropWhile (p := (· ≠ '%')) (l := text), List.head?_append, head]
        rfl
      · cases zone

theorem parse_last {result : Family × ℕ} (plain : '%' ∉ text) (read : parse text = some result) :
    ∃ c, text.getLast? = some c ∧ (isHex c ∨ c = ':') := by
  unfold parse at read
  split at read
  · rename_i value quad
    exact (ipv4_edged quad).bounded.2
  · rw [Option.map_eq_some_iff] at read
    obtain ⟨value, zone, -⟩ := read
    have none : text.dropWhile (· ≠ '%') = [] := by
      rw [List.dropWhile_eq_nil_iff]
      intro c member
      simp only [ne_eq, decide_not, Bool.not_eq_true', decide_eq_false_iff_not]
      intro same
      exact plain (same ▸ member)
    simp only [zoned, none] at zone
    exact (ipv6_bounded zone).2

/-- Prefixes of addresses, each with its number of bits. -/
abbrev BlockList := List (ℕ × ℕ)

/-- `bits` counts from the front of the family's own addresses. -/
def subnet (network : Family × ℕ) (bits : ℕ) : ℕ × ℕ :=
  match network.1 with
  | .v4 => (network.2, 96 + bits)
  | .v6 => (network.2, bits)

def single (network : Family × ℕ) : ℕ × ℕ := (network.2, 128)

def BlockList.check (list : BlockList) (value : ℕ) : Bool :=
  list.any fun (network, bits) => value / 2 ^ (128 - bits) = network / 2 ^ (128 - bits)

end IpText
