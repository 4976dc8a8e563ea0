import Droplet.Ics.Feed

/-! The lines of a written feed are the lines that are read: no value breaks one, and each is taken for
the property it was written as. -/

namespace Droplet.Ics

open ZonedTime IsoText Gregorian

/-- A line of its own: it has no line end, and does not go on from another. -/
def Whole (line : Text) : Prop :=
  (∀ c ∈ line, c ≠ '\r' ∧ c ≠ '\n') ∧ ∀ c ∈ line.head?, c ≠ ' ' ∧ c ≠ '\t'

theorem plainBreaks_plain (c : Char) (rest : Text) (other : c ≠ '\r') :
    plainBreaks (c :: rest) = c :: plainBreaks rest := by
  rw [plainBreaks.eq_def]
  split
  next same => cases same
  next same => exact absurd (List.cons.inj same).1 other
  next same =>
    obtain ⟨rfl, rfl⟩ := List.cons.inj same
    rfl

theorem plainBreaks_line (line rest : Text) (whole : ∀ c ∈ line, c ≠ '\r' ∧ c ≠ '\n') :
    plainBreaks (line ++ '\r' :: '\n' :: rest) = line ++ '\n' :: plainBreaks rest := by
  induction line with
  | nil => rfl
  | cons c line ih =>
    rw [List.cons_append, plainBreaks_plain c _ (whole c (by simp)).1,
      ih (fun d inside => whole d (by simp [inside])), List.cons_append]

theorem plainBreaks_lines (lines : List Text) (whole : ∀ line ∈ lines, Whole line) :
    plainBreaks (lines.flatMap (fun line => line ++ ['\r', '\n'])) =
      lines.flatMap (fun line => line ++ ['\n']) := by
  induction lines with
  | nil => rfl
  | cons line lines ih =>
    rw [List.flatMap_cons, List.append_assoc, List.cons_append, List.cons_append, List.nil_append,
      plainBreaks_line line _ (whole line (by simp)).1,
      ih (fun other inside => whole other (by simp [inside]))]
    simp

theorem flatMap_eq_intercalate (separator : Text) (lines : List Text) :
    lines.flatMap (fun line => line ++ separator) = separator.intercalate (lines ++ [[]]) := by
  induction lines with
  | nil => rfl
  | cons line lines ih =>
    rw [List.flatMap_cons, ih]
    cases lines with
    | nil | cons => simp [List.intercalate]

theorem intercalate_append (separator : Text) (lines : List Text) (nonempty : lines ≠ []) :
    separator.intercalate lines ++ separator = lines.flatMap (fun line => line ++ separator) := by
  induction lines with
  | nil => exact absurd rfl nonempty
  | cons line lines ih =>
    cases lines with
    | nil => simp [List.intercalate]
    | cons next lines =>
      rw [List.flatMap_cons, ← ih (by simp)]
      simp [List.intercalate]

theorem foldl_unfoldLine (out lines : List Text) (whole : ∀ line ∈ lines, Whole line) :
    lines.foldl unfoldLine out = out ++ lines := by
  induction lines generalizing out with
  | nil => simp
  | cons line lines ih =>
    have kept : unfoldLine out line = out ++ [line] := by
      cases line with
      | nil => rfl
      | cons c rest =>
        have start := (whole (c :: rest) (by simp)).2 c rfl
        unfold unfoldLine
        split
        next d tail last same _ =>
          obtain ⟨rfl, _⟩ := List.cons.inj same
          rw [if_neg (by simp [start.1, start.2])]
        next => rfl
    rw [List.foldl_cons, kept, ih _ (fun other inside => whole other (by simp [inside]))]
    simp

theorem unfoldLines_written (lines : List Text) (nonempty : lines ≠ []) (whole : ∀ line ∈ lines, Whole line) :
    unfoldLines (['\r', '\n'].intercalate lines ++ ['\r', '\n']) = lines ++ [[]] := by
  have bare : ∀ line ∈ lines ++ [[]], '\n' ∉ line := by
    intro line inside newline
    rcases List.mem_append.mp inside with there | empty
    · exact ((whole line there).1 '\n' newline).2 rfl
    · rw [List.mem_singleton.mp empty] at newline
      cases newline
  have pieces : ∀ line ∈ lines ++ [[]], Whole line := by
    intro line inside
    rcases List.mem_append.mp inside with there | empty
    · exact whole line there
    · rw [List.mem_singleton.mp empty]
      simp [Whole]
  rw [unfoldLines, intercalate_append _ lines nonempty, plainBreaks_lines lines whole,
    flatMap_eq_intercalate, List.splitOn_intercalate '\n' bare (by simp), foldl_unfoldLine _ _ pieces,
    List.nil_append]

variable (text : Text)

theorem escapeBreaks_no_newline : '\n' ∉ escapeBreaks text := by
  induction text using escapeBreaks.induct with
  | case1 => simp [escapeBreaks]
  | case2 rest ih => simp [escapeBreaks, ih]
  | case3 rest _ ih =>
    rw [escapeBreaks_cons _ _ (by decide), if_pos rfl]
    simp [ih]
  | case4 c rest _ other ih =>
    rw [escapeBreaks, if_neg other]
    · simp [ih, Ne.symm other]
    · assumption

theorem blankControls_unbroken (newline : '\n' ∉ text) (c : Char) (inside : c ∈ blankControls text) :
    c ≠ '\r' ∧ c ≠ '\n' := by
  constructor
  · intro feed
    have plain := blankControls_plain text c inside
    rw [feed] at plain
    exact absurd plain (by decide)
  · intro feed
    obtain ⟨d, there, same⟩ := List.mem_map.mp inside
    rw [feed] at same
    split at same
    · exact absurd same (by decide)
    · exact newline (same ▸ there)

theorem escapeText_unbroken (c : Char) (inside : c ∈ escapeText text) : c ≠ '\r' ∧ c ≠ '\n' :=
  blankControls_unbroken _ (escapeBreaks_no_newline _) c inside

theorem escapeUri_unbroken (c : Char) (inside : c ∈ escapeUri text) : c ≠ '\r' ∧ c ≠ '\n' :=
  blankControls_unbroken _ (escapeBreaks_no_newline _) c inside

theorem oneLine_unbroken (c : Char) (inside : c ∈ oneLine text) : c ≠ '\r' ∧ c ≠ '\n' := by
  obtain ⟨d, _, rfl⟩ := List.mem_map.mp inside
  split
  · decide
  next plain =>
    constructor
    all_goals
      intro same
      rw [same] at plain
      exact plain (by decide)

def isDateChar (c : Char) : Bool := c.isDigit || c ∈ ['-', '+', ':', '.', 'T', 'Z']

theorem isDateChar_unbroken (c : Char) (date : isDateChar c = true) : c ≠ '\r' ∧ c ≠ '\n' := by
  constructor
  all_goals
    intro same
    rw [same] at date
    exact absurd date (by decide)

theorem fixed_dateChar (width n : ℕ) : ∀ c ∈ Decimal.fixed width n, isDateChar c = true := by
  intro c inside
  simp [isDateChar, Decimal.fixed_isDigit width n c inside]

variable (instant : ℤ)

theorem isoText_dateChar : ∀ c ∈ isoText instant, isDateChar c = true := by
  have year : ∀ y, ∀ c ∈ yearText y, isDateChar c = true := by
    intro y c inside
    unfold yearText at inside
    split at inside
    · exact fixed_dateChar _ _ c inside
    · split at inside
      all_goals
        rcases List.mem_cons.mp inside with rfl | digit
        · decide
        · exact fixed_dateChar _ _ c digit
  intro c inside
  simp only [isoText, dayText, timeText, List.mem_append, List.mem_cons, List.not_mem_nil, or_false,
    List.cons_append] at inside
  rcases inside with (there | rfl | there | rfl | there) |
    rfl | (((there | rfl | there) | rfl | there) | rfl | there) | rfl
  all_goals first | exact year _ c there | exact fixed_dateChar _ _ c there | decide

theorem toDigits_dateChar (n : ℕ) : ∀ c ∈ Nat.toDigits 10 n, isDateChar c = true := by
  intro c inside
  simp [isDateChar, Nat.isDigit_of_mem_toDigits (by decide) (by decide) inside]

theorem pad2_dateChar (n : ℕ) : ∀ c ∈ pad2 n, isDateChar c = true := by
  intro c inside
  rcases List.mem_append.mp inside with zero | digit
  · rw [(List.mem_replicate.mp zero).2]
    decide
  · exact toDigits_dateChar n c digit

theorem fmtIcsDateTime_dateChar (allDay : Bool) : ∀ c ∈ fmtIcsDateTime instant allDay, isDateChar c = true := by
  intro c inside
  unfold fmtIcsDateTime at inside
  split at inside
  · simp only [List.mem_append] at inside
    rcases inside with (year | month) | day
    · unfold integerText at year
      split at year
      · rcases List.mem_cons.mp year with rfl | digit
        · decide
        · exact toDigits_dateChar _ c digit
      · exact toDigits_dateChar _ c year
    · exact pad2_dateChar _ c month
    · exact pad2_dateChar _ c day
  · rcases List.mem_append.mp inside with there | last
    · exact isoText_dateChar instant c (List.mem_of_mem_filter (List.mem_of_mem_take there))
    · rw [List.mem_singleton.mp last]
      decide

theorem fmtIcsDateTime_unbroken (allDay : Bool) (c : Char)
    (inside : c ∈ fmtIcsDateTime instant allDay) : c ≠ '\r' ∧ c ≠ '\n' :=
  isDateChar_unbroken c (fmtIcsDateTime_dateChar instant allDay c inside)

theorem isSpace_dateChar (c : Char) (date : isDateChar c = true) : JsText.isSpace c = false := by
  rcases Bool.or_eq_true_iff.mp date with digit | mark
  · simp only [Char.isDigit, Bool.and_eq_true, decide_eq_true_eq, ge_iff_le] at digit
    obtain ⟨low, high⟩ := digit
    have large : 48 ≤ c.toNat := low
    have small : c.toNat ≤ 57 := high
    have blank : c ≠ ' ' := by
      intro same
      rw [same] at large
      exact absurd large (by decide)
    simp only [JsText.isSpace, blank, decide_false, Bool.false_or, Bool.or_eq_false_iff,
      decide_eq_false_iff_not]
    omega
  · simp only [List.mem_cons, List.not_mem_nil, or_false, decide_eq_true_eq] at mark
    rcases mark with rfl | rfl | rfl | rfl | rfl | rfl
    all_goals decide

theorem trimChars_fmtIcsDateTime (allDay : Bool) :
    JsText.trimChars (fmtIcsDateTime instant allDay) = fmtIcsDateTime instant allDay := by
  apply JsText.trimChars_of_ends
  · intro c first
    exact isSpace_dateChar c (fmtIcsDateTime_dateChar _ _ c (List.mem_of_mem_head? first))
  · intro c last
    exact isSpace_dateChar c (fmtIcsDateTime_dateChar _ _ c (List.mem_of_mem_getLast? last))

def startsLine (front : Text) : Bool :=
  match front with
  | [] => false
  | c :: rest =>
    c ≠ ' ' && c ≠ '\t' && c ≠ '\r' && c ≠ '\n' && rest.all (fun d => d ≠ '\r' && d ≠ '\n')

theorem whole_append (front value : Text) (starts : startsLine front = true)
    (unbroken : ∀ c ∈ value, c ≠ '\r' ∧ c ≠ '\n') : Whole (front ++ value) := by
  cases front with
  | nil => cases starts
  | cons c rest =>
    simp only [startsLine, ne_eq, decide_not, Bool.and_eq_true, Bool.not_eq_eq_eq_not, Bool.not_true,
      decide_eq_false_iff_not, List.all_eq_true] at starts
    obtain ⟨⟨⟨⟨space, tab⟩, feed⟩, newline⟩, plain⟩ := starts
    constructor
    · intro d inside
      rw [List.cons_append, List.mem_cons, List.mem_append] at inside
      rcases inside with rfl | there | there
      · exact ⟨feed, newline⟩
      · exact plain d there
      · exact unbroken d there
    · intro d first
      cases first
      exact ⟨space, tab⟩

theorem whole_of_startsLine (line : Text) (starts : startsLine line = true) : Whole line := by
  rw [← List.append_nil line]
  exact whole_append line [] starts (by simp)

theorem optionalLine_whole (name : Text) (write : Text → Text) (value : Option Text)
    (starts : startsLine name = true) (unbroken : ∀ text, ∀ c ∈ write text, c ≠ '\r' ∧ c ≠ '\n') :
    ∀ line ∈ optionalLine name write value, Whole line := by
  intro line inside
  unfold optionalLine at inside
  split at inside
  · cases inside
  · cases inside
  next text _ =>
    rw [List.mem_singleton.mp inside]
    exact whole_append name _ starts (unbroken text)

theorem statusText_unbroken (status : IcsStatus) : ∀ c ∈ status.text, c ≠ '\r' ∧ c ≠ '\n' := by
  have starts : startsLine status.text = true := by
    cases status <;> decide
  exact (whole_of_startsLine status.text starts).1

theorem dateLines_whole (event : SerializeInput) : ∀ line ∈ dateLines event, Whole line := by
  intro line inside
  unfold dateLines at inside
  split at inside
  all_goals
    simp only [List.mem_cons, List.not_mem_nil, or_false] at inside
    rcases inside with rfl | rfl
    all_goals exact whole_append _ _ (by decide) (fmtIcsDateTime_unbroken _ _)

theorem eventLines_whole (now : ℤ) (event : SerializeInput) : ∀ line ∈ eventLines now event, Whole line := by
  intro line inside
  simp only [eventLines, List.mem_append, List.mem_cons, List.not_mem_nil, or_false, List.mem_map,
    Option.mem_toList] at inside
  rcases inside with (((((((start | date) | summary) | status) | description) | location) | url) |
    modified) | stop
  · rcases start with rfl | rfl | rfl
    · exact whole_of_startsLine _ (by decide)
    · exact whole_append _ _ (by decide) (oneLine_unbroken _)
    · exact whole_append _ _ (by decide) (fmtIcsDateTime_unbroken _ _)
  · exact dateLines_whole event line date
  · rw [summary]
    exact whole_append _ _ (by decide) (escapeText_unbroken _)
  · obtain ⟨status, _, rfl⟩ := status
    exact whole_append _ _ (by decide) (statusText_unbroken status)
  · exact optionalLine_whole _ _ _ (by decide) escapeText_unbroken line description
  · exact optionalLine_whole _ _ _ (by decide) escapeText_unbroken line location
  · exact optionalLine_whole _ _ _ (by decide) escapeUri_unbroken line url
  · obtain ⟨instant, _, rfl⟩ := modified
    exact whole_append _ _ (by decide) (fmtIcsDateTime_unbroken _ _)
  · rw [stop]
    exact whole_of_startsLine _ (by decide)

def feedLines (now : ℤ) (events : List SerializeInput) (calName : Text) : List Text :=
  headerLines calName ++ events.flatMap (eventLines now) ++ ["END:VCALENDAR".toList]

theorem feedLines_whole (now : ℤ) (events : List SerializeInput) (calName : Text) :
    ∀ line ∈ feedLines now events calName, Whole line := by
  intro line inside
  simp only [feedLines, headerLines, List.mem_append, List.mem_cons, List.not_mem_nil, or_false,
    List.mem_flatMap] at inside
  rcases inside with (header | ⟨event, _, there⟩) | stop
  · rcases header with rfl | rfl | rfl | rfl | rfl | rfl
    iterate 5 · exact whole_of_startsLine _ (by decide)
    · exact whole_append _ _ (by decide) (escapeText_unbroken _)
  · exact eventLines_whole now event line there
  · rw [stop]
    exact whole_of_startsLine _ (by decide)

/-- The lines that are read are the lines that were written, and an empty one behind the last end. -/
theorem unfoldLines_serializeIcs (now : ℤ) (events : List SerializeInput) (calName : Text) :
    unfoldLines (serializeIcs now events calName) = feedLines now events calName ++ [[]] :=
  unfoldLines_written _ (by simp) (feedLines_whole now events calName)

variable (runtime : Runtime)

def isNameChar (c : Char) : Bool := c.isUpper || c = '-'

theorem upper_nameChar (c : Char) (letter : isNameChar c = true) : runtime.upper c = [c] := by
  rcases Bool.or_eq_true_iff.mp letter with capital | hyphen
  · simp only [Char.isUpper, decide_eq_true_eq, ge_iff_le] at capital
    obtain ⟨low, high⟩ := capital
    have small : c.toNat ≤ 90 := high
    have large : 65 ≤ c.toNat := low
    rw [runtime.upper_ascii c (by omega), Char.toUpper, dif_neg]
    intro lower
    have bound : 97 ≤ c.toNat := lower.1
    omega
  · rw [decide_eq_true_eq.mp hyphen, runtime.upper_ascii '-' (by decide)]
    rfl

theorem toUpperCase_name (name : Text) (letters : name.all isNameChar = true) :
    toUpperCase runtime name = name := by
  induction name with
  | nil => rfl
  | cons c name ih =>
    rw [List.all_cons, Bool.and_eq_true] at letters
    rw [toUpperCase, List.flatMap_cons, upper_nameChar runtime c letters.1]
    exact congrArg (c :: ·) (ih letters.2)

theorem name_ne (name : Text) (letters : name.all isNameChar = true) (mark : Char)
    (other : isNameChar mark = false) : ∀ c ∈ name, c ≠ mark := by
  intro c inside same
  have letter := List.all_eq_true.mp letters c inside
  rw [same, other] at letter
  cases letter

theorem parseLine_append (head value : Text) (plain : ∀ c ∈ head, c ≠ ':') :
    parseLine runtime (head ++ ':' :: value) =
      some ⟨toUpperCase runtime ((head.splitOn ';').headD []),
        ((head.splitOn ';').drop 1).filterMap (parseParam runtime), value⟩ := by
  have front : (head ++ ':' :: value).takeWhile (fun c => c ≠ ':') = head := by
    rw [List.takeWhile_append_of_pos (by simpa using plain)]
    simp
  have back : (head ++ ':' :: value).dropWhile (fun c => c ≠ ':') = ':' :: value := by
    rw [List.dropWhile_append_of_pos (by simpa using plain)]
    simp
  rw [parseLine, if_pos (by simp), front, back]
  rfl

theorem parseLine_plain (name value : Text) (letters : name.all isNameChar = true) :
    parseLine runtime (name ++ ':' :: value) = some ⟨name, [], value⟩ := by
  have single : name.splitOn ';' = [name] := by
    have whole : ([';'].intercalate [name]).splitOn ';' = [name] :=
      List.splitOn_intercalate ';' (by
        simpa using fun inside => name_ne name letters ';' (by decide) ';' inside rfl) (by simp)
    simpa [List.intercalate] using whole
  rw [parseLine_append runtime name value (name_ne name letters ':' (by decide)), single]
  simp [toUpperCase_name runtime name letters]

theorem parseLine_date (name value : Text) (letters : name.all isNameChar = true) :
    parseLine runtime (name ++ ";VALUE=DATE:".toList ++ value) =
      some ⟨name, [("VALUE".toList, "DATE".toList)], value⟩ := by
  have parts : (name ++ ";VALUE=DATE".toList).splitOn ';' = [name, "VALUE=DATE".toList] := by
    have bare : ∀ part ∈ [name, "VALUE=DATE".toList], ';' ∉ part := by
      intro part inside
      rcases List.mem_cons.mp inside with rfl | last
      · exact fun there => name_ne _ letters ';' (by decide) ';' there rfl
      · rw [List.mem_singleton.mp last]
        simp
    have whole := List.splitOn_intercalate ';' bare (by simp)
    simpa [List.intercalate] using whole
  have param : parseParam runtime "VALUE=DATE".toList = some ("VALUE".toList, "DATE".toList) := by
    have key : toUpperCase runtime "VALUE".toList = "VALUE".toList :=
      toUpperCase_name runtime _ (by decide)
    have front : "VALUE=DATE".toList.takeWhile (fun c => c ≠ '=') = "VALUE".toList := by decide
    rw [parseParam, if_pos (by decide), front, key]
    rfl
  have line : name ++ ";VALUE=DATE:".toList ++ value =
      (name ++ ";VALUE=DATE".toList) ++ ':' :: value := by simp
  rw [line, parseLine_append, parts, List.headD_cons, toUpperCase_name runtime name letters,
    List.drop_one, List.tail_cons, List.filterMap_cons, param]
  · rfl
  · intro c inside
    rcases List.mem_append.mp inside with there | there
    · exact name_ne name letters ':' (by decide) c there
    · intro same
      rw [same] at there
      exact absurd there (by decide)

end Droplet.Ics
