import Mathlib

/-! Text as JavaScript trims it. -/

namespace JsText

/-- White space and line ends, as `trim` strips them. -/
def isSpace (c : Char) : Bool :=
  c = ' ' || decide (9 ≤ c.toNat ∧ c.toNat ≤ 13) || c.toNat = 0xA0 || c.toNat = 0x1680 ||
    decide (0x2000 ≤ c.toNat ∧ c.toNat ≤ 0x200A) || c.toNat = 0x2028 || c.toNat = 0x2029 ||
    c.toNat = 0x202F || c.toNat = 0x205F || c.toNat = 0x3000 || c.toNat = 0xFEFF

def trimEnd (text : List Char) : List Char := text.rdropWhile isSpace

def trimChars (text : List Char) : List Char := trimEnd (text.dropWhile isSpace)

def trim (text : String) : String := String.ofList (trimChars text.toList)

theorem trimChars_of_ends (text : List Char) (first : ∀ c ∈ text.head?, isSpace c = false)
    (last : ∀ c ∈ text.getLast?, isSpace c = false) : trimChars text = text := by
  have front : text.dropWhile isSpace = text := by
    rw [List.dropWhile_eq_self_iff]
    intro bound
    simpa using first _ (List.head?_eq_getElem? ▸ List.getElem?_eq_getElem bound)
  rw [trimChars, trimEnd, front, List.rdropWhile_eq_self_iff]
  intro nonempty
  simpa using last _ (List.getLast?_eq_some_getLast nonempty)

theorem trimChars_head (text : List Char) (c : Char) (first : c ∈ (trimChars text).head?) : isSpace c = false := by
  have front : c ∈ (text.dropWhile isSpace).head? := by
    have part := List.rdropWhile_prefix isSpace (text.dropWhile isSpace)
    obtain ⟨rest, whole⟩ := part
    rw [← whole]
    exact List.mem_head?_append_of_mem_head? first
  have stops := List.head?_dropWhile_not isSpace text
  rw [Option.mem_def.mp front] at stops
  exact stops

theorem trimChars_last (text : List Char) (c : Char) (last : c ∈ (trimChars text).getLast?) :
    isSpace c = false := by
  have nonempty : trimChars text ≠ [] := by
    intro empty
    simp [empty] at last
  have stops := List.rdropWhile_last_not isSpace (text.dropWhile isSpace) nonempty
  rw [Option.mem_def, List.getLast?_eq_some_getLast nonempty, Option.some.injEq] at last
  rw [← last]
  simpa [trimChars, trimEnd] using stops

theorem trimChars_cons (c : Char) (rest : List Char) (letter : isSpace c = false) :
    ∃ tail, trimChars (c :: rest) = c :: tail := by
  have kept : isSpace c = false → (c :: rest).rdropWhile isSpace ≠ [] := by
    intro letter empty
    have blank := List.rdropWhile_eq_nil_iff.mp empty c (by simp)
    rw [letter] at blank
    cases blank
  obtain ⟨cut, whole⟩ := List.rdropWhile_prefix isSpace (c :: rest)
  rw [trimChars, List.dropWhile_cons_of_neg (by simp [letter]), trimEnd]
  cases back : (c :: rest).rdropWhile isSpace with
  | nil => exact absurd back (kept letter)
  | cons d tail =>
    rw [back, List.cons_append] at whole
    exact ⟨tail, by rw [(List.cons.inj whole).1]⟩

theorem trim_trim (text : String) : trim (trim text) = trim text := by
  simp only [trim, String.toList_ofList]
  rw [trimChars_of_ends _ (trimChars_head text.toList) (trimChars_last text.toList)]

theorem dropWhile_takeWhile {p : Char → Bool} (spaces : ∀ c, isSpace c → p c) (text : List Char) :
    (text.takeWhile p).dropWhile isSpace = (text.dropWhile isSpace).takeWhile p := by
  induction text with
  | nil => rfl
  | cons c rest ih =>
    by_cases space : isSpace c
    · simp [spaces c space, space, ih]
    · by_cases passes : p c
      · simp [passes, space]
      · simp [passes, space]

theorem trimEnd_append {spaces : List Char} (blank : ∀ c ∈ spaces, isSpace c) (text : List Char) :
    trimEnd (text ++ spaces) = trimEnd text := by
  induction spaces using List.reverseRecOn with
  | nil => rw [List.append_nil]
  | append_singleton spaces c ih =>
    have space := blank c (by simp)
    rw [trimEnd, ← List.append_assoc, List.rdropWhile_concat_pos _ _ _ space]
    exact ih fun d member => blank d (by simp [member])

theorem trimEnd_takeWhile {p : Char → Bool} (spaces : ∀ c, isSpace c → p c) (text : List Char) :
    trimEnd ((trimEnd text).takeWhile p) = trimEnd (text.takeWhile p) := by
  have whole : trimEnd text ++ text.rtakeWhile isSpace = text := by
    exact List.rdropWhile_append_rtakeWhile
  have blank : ∀ c ∈ text.rtakeWhile isSpace, isSpace c := by
    intro c member
    exact List.mem_rtakeWhile_imp member
  generalize trimEnd text = front at whole
  generalize text.rtakeWhile isSpace = back at whole blank
  subst whole
  by_cases passes : ∀ c ∈ front, p c
  · have all : ∀ c ∈ front ++ back, p c := by
      intro c member
      rcases List.mem_append.mp member with member | member
      · exact passes c member
      · exact spaces c (blank c member)
    rw [List.takeWhile_eq_self_iff.mpr passes, List.takeWhile_eq_self_iff.mpr all]
    exact (trimEnd_append blank front).symm
  · have short : (front.takeWhile p).length ≠ front.length := by
      intro same
      rw [(List.takeWhile_prefix p).eq_of_length same |>.symm] at passes
      exact passes fun c member => List.mem_takeWhile_imp member
    rw [List.takeWhile_append, if_neg short]

theorem trimChars_takeWhile {p : Char → Bool} (spaces : ∀ c, isSpace c → p c) (text : List Char) :
    trimChars ((trimChars text).takeWhile p) = trimChars (text.takeWhile p) := by
  have front : (trimChars text).dropWhile isSpace = trimChars text := by
    rw [List.dropWhile_eq_self_iff]
    intro bound
    simpa using trimChars_head text _ (List.head?_eq_getElem? ▸ List.getElem?_eq_getElem bound)
  calc
    trimChars ((trimChars text).takeWhile p) =
        trimEnd (((trimChars text).dropWhile isSpace).takeWhile p) := by
      rw [trimChars, dropWhile_takeWhile spaces]
    _ = trimEnd ((trimEnd (text.dropWhile isSpace)).takeWhile p) := by
      rw [front, trimChars]
    _ = trimEnd ((text.dropWhile isSpace).takeWhile p) := trimEnd_takeWhile spaces _
    _ = trimChars (text.takeWhile p) := by
      rw [← dropWhile_takeWhile spaces, trimChars]

end JsText
