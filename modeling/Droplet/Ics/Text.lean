import Mathlib

/-! Texts in a calendar feed (`services/ics.ts`): how a value is escaped and unescaped, and what comes
back of it. -/

namespace Droplet.Ics

abbrev Text := List Char

/-- `.replace` of every occurrence of one character. -/
def replaceAll (c : Char) (replacement : Text) (text : Text) : Text :=
  text.flatMap (fun d => if d = c then replacement else [d])

/-- `.replace(/\r?\n/g, "\\n")` -/
def escapeBreaks : Text → Text
  | [] => []
  | '\r' :: '\n' :: rest => '\\' :: 'n' :: escapeBreaks rest
  | c :: rest => if c = '\n' then '\\' :: 'n' :: escapeBreaks rest else c :: escapeBreaks rest

def isControl (c : Char) : Bool :=
  c.toNat ≤ 0x1F || c.toNat = 0x7F || c.toNat = 0x85 || c.toNat = 0x2028 || c.toNat = 0x2029

/-- `LINE_BREAKING_CONTROLS`: tab and line feed are not among them. -/
def isLineBreaking (c : Char) : Bool := isControl c && c ≠ '\t' && c ≠ '\n'

/-- `.replace(LINE_BREAKING_CONTROLS, " ")` -/
def blankControls (text : Text) : Text := text.map (fun c => if isLineBreaking c then ' ' else c)

/-- `.replace(ANY_CONTROL, " ")` -/
def oneLine (text : Text) : Text := text.map (fun c => if isControl c then ' ' else c)

def escapeText (value : Text) : Text :=
  blankControls (escapeBreaks (replaceAll ',' ['\\', ','] (replaceAll ';' ['\\', ';']
    (replaceAll '\\' ['\\', '\\'] value))))

def escapeUri (value : Text) : Text := blankControls (escapeBreaks value)

/-- `.replace(/\\n/gi, "\n")` -/
def unescapeBreaks : Text → Text
  | [] => []
  | [c] => [c]
  | c :: d :: rest =>
    if c = '\\' ∧ (d = 'n' ∨ d = 'N') then '\n' :: unescapeBreaks rest
    else c :: unescapeBreaks (d :: rest)

theorem unescapeBreaks_pair (c d : Char) (rest : Text) :
    unescapeBreaks (c :: d :: rest) = if c = '\\' ∧ (d = 'n' ∨ d = 'N') then '\n' :: unescapeBreaks rest
      else c :: unescapeBreaks (d :: rest) := rfl

/-- `.replace` of every backslash before one character, with it. -/
def unescapeChar (mark : Char) : Text → Text
  | [] => []
  | [c] => [c]
  | c :: d :: rest =>
    if c = '\\' ∧ d = mark then mark :: unescapeChar mark rest
    else c :: unescapeChar mark (d :: rest)

theorem unescapeChar_pair (mark c d : Char) (rest : Text) :
    unescapeChar mark (c :: d :: rest) = if c = '\\' ∧ d = mark then mark :: unescapeChar mark rest
      else c :: unescapeChar mark (d :: rest) := rfl

def unescapeText (value : Text) : Text :=
  unescapeChar '\\' (unescapeChar ';' (unescapeChar ',' (unescapeBreaks value)))

/-- What a text comes back as: a backslash before an `n` takes it for a line break. -/
def reread : Text → Text
  | [] => []
  | [c] => [c]
  | c :: d :: rest =>
    if c = '\\' ∧ (d = 'n' ∨ d = 'N') then c :: '\n' :: reread rest else c :: reread (d :: rest)

theorem reread_pair (c d : Char) (rest : Text) :
    reread (c :: d :: rest) = if c = '\\' ∧ (d = 'n' ∨ d = 'N') then c :: '\n' :: reread rest
      else c :: reread (d :: rest) := rfl

def escapeChar (c : Char) : Text :=
  if c = '\\' then ['\\', '\\'] else if c = ';' then ['\\', ';'] else if c = ',' then ['\\', ',']
  else if c = '\n' then ['\\', 'n'] else [c]

variable (c : Char)

theorem escapeBreaks_cons (rest : Text) (other : c ≠ '\r') :
    escapeBreaks (c :: rest) =
      if c = '\n' then '\\' :: 'n' :: escapeBreaks rest else c :: escapeBreaks rest := by
  rw [escapeBreaks.eq_def]
  split
  next same => cases same
  next same => exact absurd (List.cons.inj same).1 other
  next same =>
    obtain ⟨rfl, rfl⟩ := List.cons.inj same
    rfl

def blankControl (c : Char) : Char := if isLineBreaking c then ' ' else c

theorem blankControls_cons (rest : Text) :
    blankControls (c :: rest) = blankControl c :: blankControls rest := rfl

theorem escapeText_cons (rest : Text) (feed : c ≠ '\r') :
    escapeText (c :: rest) = escapeChar (blankControl c) ++ escapeText rest := by
  unfold escapeText
  by_cases backslash : c = '\\'
  · subst backslash
    simp [replaceAll, escapeBreaks_cons, blankControls, isLineBreaking, isControl, escapeChar, blankControl]
  · by_cases semicolon : c = ';'
    · subst semicolon
      simp [replaceAll, escapeBreaks_cons, blankControls, isLineBreaking, isControl, escapeChar, blankControl]
    · by_cases comma : c = ','
      · subst comma
        simp [replaceAll, escapeBreaks_cons, blankControls, isLineBreaking, isControl, escapeChar,
          blankControl]
      · by_cases newline : c = '\n'
        · subst newline
          simp [replaceAll, escapeBreaks_cons, blankControls, isLineBreaking, isControl, escapeChar,
            blankControl]
        · have single : escapeChar (blankControl c) = [blankControl c] := by
            unfold blankControl
            split
            · decide
            · simp [escapeChar, backslash, semicolon, comma, newline]
          rw [single]
          simp [replaceAll, escapeBreaks_cons, blankControls, backslash, semicolon, comma, newline,
            feed, blankControl]

variable (text : Text)

theorem escapeText_eq (feed : '\r' ∉ text) : escapeText text = (blankControls text).flatMap escapeChar := by
  induction text with
  | nil => rfl
  | cons c rest ih =>
    rw [List.mem_cons, not_or] at feed
    rw [escapeText_cons c rest (Ne.symm feed.1), blankControls_cons, List.flatMap_cons, ih feed.2]

/-- A letter that a backslash before it makes a line break of. -/
def breaks (d : Char) : Prop := d = 'n' ∨ d = 'N'

instance (d : Char) : Decidable (breaks d) := inferInstanceAs (Decidable (d = 'n' ∨ d = 'N'))

/-- A character while some are still behind a backslash. -/
def piece (marks : List Char) (c : Char) : Text :=
  if c = '\\' then ['\\', '\\'] else if c ∈ marks then ['\\', c] else [c]

/-- A text on the way back: the line breaks are unescaped, the backslash and the `marks` are not. -/
def halfway (marks : List Char) : Text → Text
  | [] => []
  | [c] => piece marks c
  | c :: d :: rest =>
    if c = '\\' ∧ breaks d then '\\' :: '\n' :: halfway marks rest
    else piece marks c ++ halfway marks (d :: rest)

theorem halfway_pair (marks : List Char) (c d : Char) (rest : Text) :
    halfway marks (c :: d :: rest) = if c = '\\' ∧ breaks d then '\\' :: '\n' :: halfway marks rest
      else piece marks c ++ halfway marks (d :: rest) := rfl

theorem unescapeBreaks_plain (rest : Text) (other : c ≠ '\\') :
    unescapeBreaks (c :: rest) = c :: unescapeBreaks rest := by
  cases rest with
  | nil => rfl
  | cons d rest => rw [unescapeBreaks_pair, if_neg (by simp [other])]

theorem unescapeBreaks_backslash (rest : Text) (other : ∀ d ∈ rest.head?, ¬ breaks d) :
    unescapeBreaks ('\\' :: rest) = '\\' :: unescapeBreaks rest := by
  cases rest with
  | nil => rfl
  | cons d rest =>
    have letter : ¬ (d = 'n' ∨ d = 'N') := other d rfl
    rw [unescapeBreaks_pair, if_neg (by simp [letter])]

theorem escapeChar_head (d : Char) (rest : Text) (other : ¬ breaks d) :
    ∀ e ∈ (escapeChar d ++ rest).head?, ¬ breaks e := by
  intro e first
  unfold escapeChar at first
  split at first
  · cases first
    decide
  · split at first
    · cases first
      decide
    · split at first
      · cases first
        decide
      · split at first
        · cases first
          decide
        · cases first
          exact other

theorem unescapeBreaks_escaped (rest : Text) (other : c = '\\' → ∀ d ∈ rest.head?, ¬ breaks d)
    (ih : unescapeBreaks (rest.flatMap escapeChar) = halfway [',', ';'] rest) :
    unescapeBreaks ((c :: rest).flatMap escapeChar) = piece [',', ';'] c ++ halfway [',', ';'] rest := by
  rw [List.flatMap_cons]
  by_cases backslash : c = '\\'
  · subst backslash
    have next : ∀ d ∈ (rest.flatMap escapeChar).head?, ¬ breaks d := by
      cases rest with
      | nil => simp
      | cons d rest => exact escapeChar_head d _ (other rfl d rfl)
    have same : escapeChar '\\' = ['\\', '\\'] := by decide
    rw [same, List.cons_append, List.cons_append, List.nil_append,
      unescapeBreaks_backslash _ (by simp [breaks]), unescapeBreaks_backslash _ next, ih]
    rfl
  · by_cases semicolon : c = ';'
    · subst semicolon
      have same : escapeChar ';' = ['\\', ';'] := by decide
      rw [same, List.cons_append, List.cons_append, List.nil_append,
        unescapeBreaks_backslash _ (by simp [breaks]), unescapeBreaks_plain _ _ (by decide), ih]
      rfl
    · by_cases comma : c = ','
      · subst comma
        have same : escapeChar ',' = ['\\', ','] := by decide
        rw [same, List.cons_append, List.cons_append, List.nil_append,
          unescapeBreaks_backslash _ (by simp [breaks]), unescapeBreaks_plain _ _ (by decide), ih]
        rfl
      · by_cases newline : c = '\n'
        · subst newline
          have same : escapeChar '\n' = ['\\', 'n'] := by decide
          rw [same, List.cons_append, List.cons_append, List.nil_append, unescapeBreaks_pair,
            if_pos (by simp), ih]
          rfl
        · have same : escapeChar c = [c] := by
            simp [escapeChar, backslash, semicolon, comma, newline]
          have kept : piece [',', ';'] c = [c] := by
            simp [piece, backslash, semicolon, comma]
          rw [same, kept, List.cons_append, List.nil_append, unescapeBreaks_plain c _ backslash, ih]
          rfl

theorem unescapeBreaks_flatMap : unescapeBreaks (text.flatMap escapeChar) = halfway [',', ';'] text := by
  induction text using halfway.induct with
  | case1 => rfl
  | case2 c =>
    have single := unescapeBreaks_escaped c [] (by simp) rfl
    simpa [halfway] using single
  | case3 c d rest both ih =>
    obtain ⟨rfl, letter⟩ := both
    have plain : escapeChar d = [d] := by
      rcases letter with rfl | rfl <;> decide
    have same : escapeChar '\\' = ['\\', '\\'] := by decide
    rw [halfway_pair, if_pos ⟨rfl, letter⟩, List.flatMap_cons, List.flatMap_cons, same, plain,
      List.cons_append, List.cons_append, List.nil_append, List.cons_append, List.nil_append,
      unescapeBreaks_backslash _ (by simp [breaks]), unescapeBreaks_pair, if_pos ⟨rfl, letter⟩, ih]
  | case4 c d rest apart ih =>
    rw [halfway_pair, if_neg apart]
    apply unescapeBreaks_escaped c (d :: rest) _ ih
    intro backslash e first
    obtain rfl := Option.some.inj first
    exact fun letter => apart ⟨backslash, letter⟩

theorem unescapeChar_plain (mark c : Char) (rest : Text) (other : c ≠ '\\') :
    unescapeChar mark (c :: rest) = c :: unescapeChar mark rest := by
  cases rest with
  | nil => rfl
  | cons d rest => rw [unescapeChar_pair, if_neg (by simp [other])]

variable (mark : Char)

theorem unescapeChar_backslash (rest : Text) (other : ∀ d ∈ rest.head?, d ≠ mark) :
    unescapeChar mark ('\\' :: rest) = '\\' :: unescapeChar mark rest := by
  cases rest with
  | nil => rfl
  | cons d rest => rw [unescapeChar_pair, if_neg (by simp [other d rfl])]

theorem unescapeChar_mark (rest : Text) :
    unescapeChar mark ('\\' :: mark :: rest) = mark :: unescapeChar mark rest := by
  rw [unescapeChar_pair, if_pos ⟨rfl, rfl⟩]

theorem piece_head (marks : List Char) (special : mark ≠ '\\') (c : Char) (rest : Text) :
    ∀ d ∈ (piece (mark :: marks) c ++ rest).head?, d ≠ mark := by
  intro d first
  unfold piece at first
  split at first
  · cases first
    exact special.symm
  · split at first
    · cases first
      exact special.symm
    next outside =>
      cases first
      intro same
      exact outside (by simp [same])

theorem halfway_head (marks : List Char) (special : mark ≠ '\\') (text : Text) :
    ∀ d ∈ (halfway (mark :: marks) text).head?, d ≠ mark := by
  cases text with
  | nil => simp [halfway]
  | cons c rest =>
    cases rest with
    | nil =>
      have head := piece_head mark marks special c []
      rwa [List.append_nil] at head
    | cons d rest =>
      rw [halfway]
      split
      · intro e first
        cases first
        exact special.symm
      · exact piece_head mark marks special c _

theorem unescapeChar_piece (marks : List Char) (special : mark ≠ '\\') (fresh : mark ∉ marks)
    (c : Char) (rest : Text) (next : ∀ d ∈ rest.head?, d ≠ mark) :
    unescapeChar mark (piece (mark :: marks) c ++ rest) = piece marks c ++ unescapeChar mark rest := by
  by_cases backslash : c = '\\'
  · subst backslash
    have pair : ∀ list, piece list '\\' = ['\\', '\\'] := fun _ => rfl
    rw [pair, pair, List.cons_append, List.cons_append, List.nil_append,
      unescapeChar_backslash mark _ (by simp [special.symm]), unescapeChar_backslash mark _ next]
    rfl
  · by_cases same : c = mark
    · subst same
      have escaped : piece (c :: marks) c = ['\\', c] := by simp [piece, backslash]
      have bare : piece marks c = [c] := by simp [piece, backslash, fresh]
      rw [escaped, bare, List.cons_append, List.cons_append, List.nil_append, unescapeChar_mark]
      rfl
    · by_cases other : c ∈ marks
      · have escaped : piece (mark :: marks) c = ['\\', c] := by simp [piece, backslash, other]
        have still : piece marks c = ['\\', c] := by simp [piece, backslash, other]
        rw [escaped, still, List.cons_append, List.cons_append, List.nil_append,
          unescapeChar_backslash mark _ (by simp [same]), unescapeChar_plain mark c _ backslash]
        rfl
      · have plain : piece (mark :: marks) c = [c] := by simp [piece, backslash, same, other]
        have bare : piece marks c = [c] := by simp [piece, backslash, other]
        rw [plain, bare, List.cons_append, List.nil_append, unescapeChar_plain mark c _ backslash]
        rfl

theorem unescapeChar_halfway (marks : List Char) (special : mark ≠ '\\') (newline : mark ≠ '\n')
    (fresh : mark ∉ marks) (text : Text) :
    unescapeChar mark (halfway (mark :: marks) text) = halfway marks text := by
  induction text using halfway.induct with
  | case1 => rfl
  | case2 c =>
    have single := unescapeChar_piece mark marks special fresh c [] (by simp)
    simpa [halfway, unescapeChar] using single
  | case3 c d rest both ih =>
    rw [halfway_pair, halfway_pair, if_pos both, if_pos both, unescapeChar_backslash mark _ (by
      simp [newline.symm]), unescapeChar_plain mark '\n' _ (by decide), ih]
  | case4 c d rest apart ih =>
    rw [halfway_pair, halfway_pair, if_neg apart, if_neg apart, unescapeChar_piece mark marks special fresh c _
      (halfway_head mark marks special (d :: rest)), ih]

theorem unescapeChar_backslashes : unescapeChar '\\' (halfway [] text) = reread text := by
  have pieces : ∀ (c : Char) (rest : Text),
      unescapeChar '\\' (piece [] c ++ rest) = c :: unescapeChar '\\' rest := by
    intro c rest
    by_cases backslash : c = '\\'
    · subst backslash
      exact unescapeChar_mark '\\' rest
    · have plain : piece [] c = [c] := by simp [piece, backslash]
      rw [plain, List.cons_append, List.nil_append, unescapeChar_plain _ c _ backslash]
  induction text using halfway.induct with
  | case1 => rfl
  | case2 c =>
    have single := pieces c []
    simpa [halfway, unescapeChar, reread] using single
  | case3 c d rest both ih =>
    have written : c = '\\' ∧ (d = 'n' ∨ d = 'N') := both
    rw [halfway_pair, if_pos both, reread_pair, if_pos written, unescapeChar_backslash _ _ (by simp),
      unescapeChar_plain _ '\n' _ (by decide), ih, both.1]
  | case4 c d rest apart ih =>
    have written : ¬ (c = '\\' ∧ (d = 'n' ∨ d = 'N')) := apart
    rw [halfway_pair, if_neg apart, reread_pair, if_neg written, pieces, ih]

theorem unescapeText_escapeText (feed : '\r' ∉ text) :
    unescapeText (escapeText text) = reread (blankControls text) := by
  rw [unescapeText, escapeText_eq text feed, unescapeBreaks_flatMap,
    unescapeChar_halfway ',' [';'] (by decide) (by decide) (by decide),
    unescapeChar_halfway ';' [] (by decide) (by decide) (by decide), unescapeChar_backslashes]

/-- No backslash stands before an `n`. -/
def Unambiguous (text : Text) : Prop :=
  ∀ front d back, text = front ++ '\\' :: d :: back → ¬ breaks d

theorem unambiguous_cons (c d : Char) (rest : Text) (apart : ¬ (c = '\\' ∧ breaks d)) :
    Unambiguous (c :: d :: rest) ↔ Unambiguous (d :: rest) := by
  constructor
  · intro clear front e back split
    exact clear (c :: front) e back (by rw [split, List.cons_append])
  · intro clear front e back split letter
    cases front with
    | nil =>
      obtain ⟨first, tail⟩ := List.cons.inj split
      exact apart ⟨first, (List.cons.inj tail).1 ▸ letter⟩
    | cons f front => exact clear front e back (List.cons.inj split).2 letter

/-- A text comes back unchanged exactly where no backslash stands before an `n`. -/
theorem reread_eq_iff : reread text = text ↔ Unambiguous text := by
  induction text using reread.induct with
  | case1 => simp [reread, Unambiguous]
  | case2 c =>
    refine ⟨fun _ front d back split => ?_, fun _ => rfl⟩
    have lengths := congrArg List.length split
    simp only [List.length_cons, List.length_append, List.length_nil] at lengths
    omega
  | case3 c d rest both ih =>
    rw [reread_pair, if_pos both]
    constructor
    · intro same
      have letter : '\n' = d := (List.cons.inj (List.cons.inj same).2).1
      rcases both.2 with rfl | rfl <;> cases letter
    · intro clear
      exact absurd both.2 (clear [] d rest (by rw [both.1, List.nil_append]))
  | case4 c d rest apart ih =>
    rw [reread_pair, if_neg apart, unambiguous_cons c d rest apart, ← ih, List.cons.injEq]
    simp

theorem reread_subset (c : Char) (inside : c ∈ reread text) : c ∈ text ∨ c = '\n' := by
  induction text using reread.induct with
  | case1 => cases inside
  | case2 d => exact .inl inside
  | case3 d e rest both ih =>
    rw [reread_pair, if_pos both, List.mem_cons, List.mem_cons] at inside
    rcases inside with first | newline | later
    · exact .inl (by simp [first])
    · exact .inr newline
    · rcases ih later with there | newline
      · exact .inl (by simp [there])
      · exact .inr newline
  | case4 d e rest apart ih =>
    rw [reread_pair, if_neg apart, List.mem_cons] at inside
    rcases inside with first | later
    · exact .inl (by simp [first])
    · rcases ih later with there | newline
      · exact .inl (List.mem_cons_of_mem _ there)
      · exact .inr newline

theorem blankControls_plain (c : Char) (inside : c ∈ blankControls text) : isLineBreaking c = false := by
  obtain ⟨d, _, rfl⟩ := List.mem_map.mp inside
  split
  · decide
  next plain => simpa using plain

theorem blankControls_eq (plain : ∀ c ∈ text, isLineBreaking c = false) : blankControls text = text := by
  rw [blankControls, List.map_congr_left (g := id), List.map_id]
  intro c inside
  simp [plain c inside]

/-- What is written and read again is the same text exactly where it has no character that ends a line
for some reader, and no backslash before an `n`. -/
theorem reread_blankControls_iff :
    reread (blankControls text) = text ↔
      (∀ c ∈ text, isLineBreaking c = false) ∧ Unambiguous text := by
  constructor
  · intro same
    have plain : ∀ c ∈ text, isLineBreaking c = false := by
      intro c inside
      rw [← same] at inside
      rcases reread_subset _ c inside with there | newline
      · exact blankControls_plain text c there
      · rw [newline]
        decide
    rw [blankControls_eq text plain] at same
    exact ⟨plain, (reread_eq_iff text).mp same⟩
  · intro both
    rw [blankControls_eq text both.1]
    exact (reread_eq_iff text).mpr both.2

end Droplet.Ics
