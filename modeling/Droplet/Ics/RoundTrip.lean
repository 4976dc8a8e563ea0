import Droplet.Ics.Lines

/-! What a feed that was written is read back as: event by event, whatever the texts are. -/

namespace Droplet.Ics

open ZonedTime IsoText Gregorian

variable (runtime : Runtime)

/-- The first letters of the properties of an event; a component begins and ends with others. -/
def isPropertyStart (c : Char) : Bool := c = 'D' || c = 'L' || c = 'S' || c = 'U'

theorem isSpace_nameChar (c : Char) (letter : isNameChar c = true) : JsText.isSpace c = false := by
  rcases Bool.or_eq_true_iff.mp letter with capital | hyphen
  · simp only [Char.isUpper, decide_eq_true_eq, ge_iff_le] at capital
    obtain ⟨low, high⟩ := capital
    have large : 65 ≤ c.toNat := low
    have small : c.toNat ≤ 90 := high
    have blank : c ≠ ' ' := by
      intro same
      rw [same] at large
      exact absurd large (by decide)
    simp only [JsText.isSpace, blank, decide_false, Bool.false_or, Bool.or_eq_false_iff,
      decide_eq_false_iff_not]
    omega
  · rw [decide_eq_true_eq.mp hyphen]
    decide

theorem upper_cons (c : Char) (rest : Text) (letter : isNameChar c = true) :
    ∃ tail, toUpperCase runtime (JsText.trimChars (c :: rest)) = c :: tail := by
  obtain ⟨tail, trimmed⟩ := JsText.trimChars_cons c rest (isSpace_nameChar c letter)
  exact ⟨toUpperCase runtime tail, by
    rw [trimmed, toUpperCase, List.flatMap_cons, upper_nameChar runtime c letter]
    rfl⟩

theorem propertyStart_name (c : Char) (letter : isPropertyStart c = true) : isNameChar c = true := by
  simp only [isPropertyStart, Bool.or_eq_true, decide_eq_true_eq] at letter
  rcases letter with ((rfl | rfl) | rfl) | rfl
  all_goals decide

variable (draft : Draft)

theorem readLine_property (events : List IcsEvent) (c : Char) (rest : Text) (parsed : ContentLine)
    (letter : isPropertyStart c = true) (line : parseLine runtime (c :: rest) = some parsed) :
    readLine runtime ⟨true, 0, draft, events⟩ (c :: rest) =
      ⟨true, 0, setProperty runtime draft parsed, events⟩ := by
  obtain ⟨tail, upper⟩ := upper_cons runtime c rest (propertyStart_name c letter)
  have other : c ≠ 'B' ∧ c ≠ 'E' := by
    constructor
    all_goals
      intro same
      rw [same] at letter
      exact absurd letter (by decide)
  have start : c :: tail ≠ beginEvent := fun same => other.1 (List.cons.inj same).1
  have stop : c :: tail ≠ endEvent := fun same => other.2 (List.cons.inj same).1
  have nested : ¬ beginMark <+: c :: tail := fun same =>
    other.1 (List.cons_prefix_cons.mp same).1.symm
  simp only [readLine, upper, if_neg start, if_neg stop, if_neg nested, line]
  simp

theorem readLine_named (events : List IcsEvent) (name value : Text)
    (letters : name.all isNameChar = true) (letter : ∃ c ∈ name.head?, isPropertyStart c = true) :
    readLine runtime ⟨true, 0, draft, events⟩ (name ++ ':' :: value) =
      ⟨true, 0, setProperty runtime draft ⟨name, [], value⟩, events⟩ := by
  obtain ⟨c, first, letter⟩ := letter
  cases name with
  | nil => cases first
  | cons d name =>
    obtain rfl := Option.some.inj first
    exact readLine_property runtime draft events _ _ _ letter
      (parseLine_plain runtime (d :: name) value letters)

theorem readLine_dated (events : List IcsEvent) (front name value : Text)
    (same : front = name ++ ";VALUE=DATE:".toList) (letters : name.all isNameChar = true)
    (letter : ∃ c ∈ name.head?, isPropertyStart c = true) :
    readLine runtime ⟨true, 0, draft, events⟩ (front ++ value) =
      ⟨true, 0, setProperty runtime draft ⟨name, [("VALUE".toList, "DATE".toList)], value⟩, events⟩ := by
  obtain ⟨c, first, letter⟩ := letter
  rw [same]
  cases name with
  | nil => cases first
  | cons d name =>
    obtain rfl := Option.some.inj first
    exact readLine_property runtime draft events _ _ _ letter
      (parseLine_date runtime (d :: name) value letters)

/-- A value that is absent or empty has no line. -/
def written : Option Text → Option Text
  | some [] => none
  | value => value

theorem foldl_optionalLine (events : List IcsEvent) (name : Text) (write : Text → Text)
    (value : Option Text) (letters : name.all isNameChar = true)
    (letter : ∃ c ∈ name.head?, isPropertyStart c = true) :
    (optionalLine (name ++ [':']) write value).foldl (readLine runtime) ⟨true, 0, draft, events⟩ =
      ⟨true, 0, ((written value).map (fun text =>
        setProperty runtime draft ⟨name, [], write text⟩)).getD draft, events⟩ := by
  match value with
  | none => rfl
  | some [] => rfl
  | some (c :: rest) =>
    have line := readLine_named runtime draft events name (write (c :: rest)) letters letter
    simpa [optionalLine, written] using line

def readDraft (event : SerializeInput) : Draft where
  uid := some (JsText.trimChars (oneLine event.uid))
  summary := some (unescapeText (escapeText event.summary))
  description := (written event.description).map (fun text => unescapeText (escapeText text))
  location := (written event.location).map (fun text => unescapeText (escapeText text))
  startsAt := parseIcsDateTime runtime (fmtIcsDateTime event.startsAt event.allDay) none
  endsAt := parseIcsDateTime runtime (fmtIcsDateTime event.endsAt event.allDay) none
  allDay := event.allDay
  status := event.status.map IcsStatus.text

variable (instant : ℤ)

theorem isDigits_zulu : isDigits 8 (fmtIcsDateTime instant false) = false := by
  have zulu : 'Z' ∈ fmtIcsDateTime instant false := by simp [fmtIcsDateTime]
  rw [isDigits, Bool.and_eq_false_iff]
  right
  rw [List.all_eq_false]
  exact ⟨'Z', zulu, by decide⟩

theorem setDtstart_zulu (instant : ℤ) :
    setDtstart runtime draft ⟨"DTSTART".toList, [], fmtIcsDateTime instant false⟩ =
      { draft with
        startsAt := parseIcsDateTime runtime (fmtIcsDateTime instant false) none
        tzid := none
        dtstartWall := none } := by
  have zone : ContentLine.param ⟨"DTSTART".toList, [], fmtIcsDateTime instant false⟩ "TZID".toList =
      none := rfl
  have day : ContentLine.param ⟨"DTSTART".toList, [], fmtIcsDateTime instant false⟩ "VALUE".toList =
      none := rfl
  simp only [setDtstart, zone, day, trimChars_fmtIcsDateTime, isDigits_zulu, Option.bind_none, ite_self]
  simp

theorem setDtstart_day (instant : ℤ) :
    setDtstart runtime draft
        ⟨"DTSTART".toList, [("VALUE".toList, "DATE".toList)], fmtIcsDateTime instant true⟩ =
      { draft with
        startsAt := parseIcsDateTime runtime (fmtIcsDateTime instant true) none
        tzid := none
        dtstartWall := none
        allDay := true } := by
  have zone : ContentLine.param ⟨"DTSTART".toList, [("VALUE".toList, "DATE".toList)],
      fmtIcsDateTime instant true⟩ "TZID".toList = none := rfl
  have day : ContentLine.param ⟨"DTSTART".toList, [("VALUE".toList, "DATE".toList)],
      fmtIcsDateTime instant true⟩ "VALUE".toList = some "DATE".toList := rfl
  simp only [setDtstart, zone, day, Option.bind_none, ite_self]
  simp

theorem readLine_value (events : List IcsEvent) (front name value : Text)
    (same : front = name ++ [':']) (letters : name.all isNameChar = true)
    (letter : ∃ c ∈ name.head?, isPropertyStart c = true) :
    readLine runtime ⟨true, 0, draft, events⟩ (front ++ value) =
      ⟨true, 0, setProperty runtime draft ⟨name, [], value⟩, events⟩ := by
  rw [same, List.append_assoc, List.singleton_append]
  exact readLine_named runtime draft events name value letters letter

theorem foldl_dateLines (events : List IcsEvent) (event : SerializeInput)
    (fresh : draft.allDay = false) :
    (dateLines event).foldl (readLine runtime) ⟨true, 0, draft, events⟩ =
      ⟨true, 0, { draft with
        startsAt := parseIcsDateTime runtime (fmtIcsDateTime event.startsAt event.allDay) none
        endsAt := parseIcsDateTime runtime (fmtIcsDateTime event.endsAt event.allDay) none
        tzid := none
        dtstartWall := none
        allDay := event.allDay }, events⟩ := by
  have startProperty : ∀ draft params value, setProperty runtime draft
      ⟨"DTSTART".toList, params, value⟩ = setDtstart runtime draft ⟨"DTSTART".toList, params, value⟩ :=
    fun _ _ _ => rfl
  have endProperty : ∀ draft params value, setProperty runtime draft ⟨"DTEND".toList, params, value⟩ =
      { draft with
        endsAt := parseIcsDateTime runtime value
          (ContentLine.param ⟨"DTEND".toList, params, value⟩ "TZID".toList) } :=
    fun _ _ _ => rfl
  have zone : ∀ value, ContentLine.param ⟨"DTEND".toList, [], value⟩ "TZID".toList = none :=
    fun _ => rfl
  have dayZone : ∀ value, ContentLine.param
      ⟨"DTEND".toList, [("VALUE".toList, "DATE".toList)], value⟩ "TZID".toList = none := fun _ => rfl
  unfold dateLines
  cases day : event.allDay with
  | true =>
    rw [if_pos rfl, List.foldl_cons, List.foldl_cons, List.foldl_nil,
      readLine_dated runtime _ events "DTSTART;VALUE=DATE:".toList "DTSTART".toList _ rfl (by decide)
        ⟨'D', by decide, by decide⟩, startProperty, setDtstart_day,
      readLine_dated runtime _ events "DTEND;VALUE=DATE:".toList "DTEND".toList _ rfl (by decide)
        ⟨'D', by decide, by decide⟩,
      endProperty, dayZone]
  | false =>
    rw [if_neg (by decide), List.foldl_cons, List.foldl_cons, List.foldl_nil,
      readLine_value runtime _ events "DTSTART:".toList "DTSTART".toList _ rfl (by decide)
        ⟨'D', by decide, by decide⟩, startProperty, setDtstart_zulu,
      readLine_value runtime _ events "DTEND:".toList "DTEND".toList _ rfl (by decide)
        ⟨'D', by decide, by decide⟩,
      endProperty, zone, ← fresh]

variable (text : Text)

theorem toUpperCase_ascii (ascii : text.all (fun c => decide (c.toNat < 128)) = true) :
    toUpperCase runtime text = text.map Char.toUpper := by
  induction text with
  | nil => rfl
  | cons c text ih =>
    rw [List.all_cons, Bool.and_eq_true, decide_eq_true_eq] at ascii
    rw [toUpperCase, List.flatMap_cons, runtime.upper_ascii c ascii.1]
    exact congrArg (c.toUpper :: ·) (ih ascii.2)

theorem readLine_begin (events : List IcsEvent) :
    readLine runtime ⟨false, 0, draft, events⟩ beginEvent = ⟨true, 0, {}, events⟩ := by
  have upper : toUpperCase runtime (JsText.trimChars beginEvent) = beginEvent := by
    have trimmed : JsText.trimChars beginEvent = beginEvent := by decide
    rw [trimmed, toUpperCase_ascii runtime beginEvent (by decide)]
    decide
  simp only [readLine, upper, if_pos]

theorem readLine_end (events : List IcsEvent) :
    readLine runtime ⟨true, 0, draft, events⟩ endEvent =
      ⟨false, 0, {}, events ++ draft.finish.toList⟩ := by
  have upper : toUpperCase runtime (JsText.trimChars endEvent) = endEvent := by
    have trimmed : JsText.trimChars endEvent = endEvent := by decide
    rw [trimmed, toUpperCase_ascii runtime endEvent (by decide)]
    decide
  have other : endEvent ≠ beginEvent := by decide
  simp only [readLine, upper, if_neg other, if_pos]

theorem statusText_upper (status : IcsStatus) :
    toUpperCase runtime (JsText.trimChars status.text) = status.text := by
  have trimmed : JsText.trimChars status.text = status.text := by
    cases status <;> decide
  have letters : status.text.all isNameChar = true := by
    cases status <;> decide
  rw [trimmed, toUpperCase_name runtime _ letters]

section

variable (events : List IcsEvent)
include events

theorem foldl_statusLine (status : Option IcsStatus)
    (fresh : draft.status = none) :
    (status.toList.map (fun status => "STATUS:".toList ++ status.text)).foldl (readLine runtime)
        ⟨true, 0, draft, events⟩ =
      ⟨true, 0, { draft with status := status.map IcsStatus.text }, events⟩ := by
  cases status with
  | none =>
    rw [Option.map_none, ← fresh]
    rfl
  | some status =>
    have line := readLine_value runtime draft events "STATUS:".toList "STATUS".toList status.text rfl
      (by decide) ⟨'S', by decide, by decide⟩
    have property : setProperty runtime draft ⟨"STATUS".toList, [], status.text⟩ =
        { draft with status := some (toUpperCase runtime (JsText.trimChars status.text)) } := rfl
    rw [Option.toList_some, List.map_singleton, List.foldl_cons, List.foldl_nil, line, property,
      statusText_upper, Option.map_some]

theorem foldl_modifiedLine (updatedAt : Option ℤ) :
    (updatedAt.toList.map (fun instant => "LAST-MODIFIED:".toList ++
        fmtIcsDateTime instant false)).foldl (readLine runtime) ⟨true, 0, draft, events⟩ =
      ⟨true, 0, draft, events⟩ := by
  cases updatedAt with
  | none => rfl
  | some instant =>
    have line := readLine_value runtime draft events "LAST-MODIFIED:".toList "LAST-MODIFIED".toList
      (fmtIcsDateTime instant false) rfl (by decide) ⟨'L', by decide, by decide⟩
    have property : setProperty runtime draft
        ⟨"LAST-MODIFIED".toList, [], fmtIcsDateTime instant false⟩ = draft := rfl
    rw [Option.toList_some, List.map_singleton, List.foldl_cons, List.foldl_nil, line, property]

variable (value : Option Text)

theorem foldl_descriptionLine
    (fresh : draft.description = none) :
    (optionalLine "DESCRIPTION:".toList escapeText value).foldl (readLine runtime)
        ⟨true, 0, draft, events⟩ =
      ⟨true, 0, { draft with description := (written value).map (fun text =>
        unescapeText (escapeText text)) }, events⟩ := by
  refine (foldl_optionalLine runtime draft events "DESCRIPTION".toList escapeText value (by decide)
    ⟨'D', by decide, by decide⟩).trans ?_
  cases written value with
  | none =>
    rw [Option.map_none, Option.map_none, ← fresh]
    rfl
  | some text => rfl

theorem foldl_locationLine
    (fresh : draft.location = none) :
    (optionalLine "LOCATION:".toList escapeText value).foldl (readLine runtime)
        ⟨true, 0, draft, events⟩ =
      ⟨true, 0, { draft with location := (written value).map (fun text =>
        unescapeText (escapeText text)) }, events⟩ := by
  refine (foldl_optionalLine runtime draft events "LOCATION".toList escapeText value (by decide)
    ⟨'L', by decide, by decide⟩).trans ?_
  cases written value with
  | none =>
    rw [Option.map_none, Option.map_none, ← fresh]
    rfl
  | some text => rfl

theorem foldl_urlLine :
    (optionalLine "URL:".toList escapeUri value).foldl (readLine runtime) ⟨true, 0, draft, events⟩ =
      ⟨true, 0, draft, events⟩ := by
  refine (foldl_optionalLine runtime draft events "URL".toList escapeUri value (by decide)
    ⟨'U', by decide, by decide⟩).trans ?_
  cases written value with
  | none | some => rfl

end

variable (now : ℤ)

theorem foldl_eventLines (event : SerializeInput) (draft : Draft) (events : List IcsEvent) :
    (eventLines now event).foldl (readLine runtime) ⟨false, 0, draft, events⟩ =
      ⟨false, 0, {}, events ++ (readDraft runtime event).finish.toList⟩ := by
  have value := readLine_value runtime
  simp only [eventLines, List.foldl_append, List.foldl_cons, List.foldl_nil, readLine_begin]
  rw [value {} events "UID:".toList "UID".toList _ rfl (by decide) ⟨'U', by decide, by decide⟩,
    value _ events "DTSTAMP:".toList "DTSTAMP".toList _ rfl (by decide) ⟨'D', by decide, by decide⟩,
    foldl_dateLines runtime _ events event rfl,
    value _ events "SUMMARY:".toList "SUMMARY".toList _ rfl (by decide) ⟨'S', by decide, by decide⟩,
    foldl_statusLine runtime _ events event.status rfl,
    foldl_descriptionLine runtime _ events event.description rfl,
    foldl_locationLine runtime _ events event.location rfl, foldl_urlLine, foldl_modifiedLine,
    readLine_end]
  rfl

def readBack (event : SerializeInput) : Option IcsEvent := (readDraft runtime event).finish.map oneDayLong

theorem foldl_events (inputs : List SerializeInput) (draft : Draft) (events : List IcsEvent) :
    ∃ last, (inputs.flatMap (eventLines now)).foldl (readLine runtime) ⟨false, 0, draft, events⟩ =
      ⟨false, 0, last, events ++ inputs.filterMap (fun event => (readDraft runtime event).finish)⟩ := by
  induction inputs generalizing draft events with
  | nil => exact ⟨draft, by simp⟩
  | cons event inputs ih =>
    obtain ⟨last, rest⟩ := ih {} (events ++ (readDraft runtime event).finish.toList)
    refine ⟨last, ?_⟩
    rw [List.flatMap_cons, List.foldl_append, foldl_eventLines, rest, List.append_assoc]
    cases finished : (readDraft runtime event).finish with
    | none | some => simp [finished]

theorem readLine_outside (events : List IcsEvent) (line : Text)
    (other : toUpperCase runtime (JsText.trimChars line) ≠ beginEvent)
    (apart : toUpperCase runtime (JsText.trimChars line) ≠ endEvent) :
    readLine runtime ⟨false, 0, draft, events⟩ line = ⟨false, 0, draft, events⟩ := by
  simp only [readLine, if_neg other, if_neg apart, if_true]

theorem readLine_apart (events : List IcsEvent) (c : Char) (rest : Text)
    (letter : isNameChar c = true) (begins : c ≠ 'B') (ends : c ≠ 'E') :
    readLine runtime ⟨false, 0, draft, events⟩ (c :: rest) = ⟨false, 0, draft, events⟩ := by
  obtain ⟨tail, upper⟩ := upper_cons runtime c rest letter
  apply readLine_outside
  · rw [upper]
    exact fun same => begins (List.cons.inj same).1
  · rw [upper]
    exact fun same => ends (List.cons.inj same).1

theorem readLine_ascii (events : List IcsEvent) (line : Text)
    (ascii : (JsText.trimChars line).all (fun c => decide (c.toNat < 128)) = true)
    (other : (JsText.trimChars line).map Char.toUpper ≠ beginEvent)
    (apart : (JsText.trimChars line).map Char.toUpper ≠ endEvent) :
    readLine runtime ⟨false, 0, draft, events⟩ line = ⟨false, 0, draft, events⟩ := by
  apply readLine_outside
  · rw [toUpperCase_ascii runtime _ ascii]
    exact other
  · rw [toUpperCase_ascii runtime _ ascii]
    exact apart

theorem foldl_headerLines (calName : Text) (draft : Draft) (events : List IcsEvent) :
    (headerLines calName).foldl (readLine runtime) ⟨false, 0, draft, events⟩ =
      ⟨false, 0, draft, events⟩ := by
  have apart := readLine_apart runtime draft events
  have first := readLine_ascii runtime draft events "BEGIN:VCALENDAR".toList (by decide) (by decide)
    (by decide)
  have version : readLine runtime ⟨false, 0, draft, events⟩ "VERSION:2.0".toList = _ :=
    apart 'V' "ERSION:2.0".toList (by decide) (by decide) (by decide)
  have product : readLine runtime ⟨false, 0, draft, events⟩
      "PRODID:-//Droplet//edge-platform//EN".toList = _ :=
    apart 'P' "RODID:-//Droplet//edge-platform//EN".toList (by decide) (by decide) (by decide)
  have scale : readLine runtime ⟨false, 0, draft, events⟩ "CALSCALE:GREGORIAN".toList = _ :=
    apart 'C' "ALSCALE:GREGORIAN".toList (by decide) (by decide) (by decide)
  have method : readLine runtime ⟨false, 0, draft, events⟩ "METHOD:PUBLISH".toList = _ :=
    apart 'M' "ETHOD:PUBLISH".toList (by decide) (by decide) (by decide)
  have name : readLine runtime ⟨false, 0, draft, events⟩ ("X-WR-CALNAME:".toList ++ escapeText calName) = _ :=
    apart 'X' ("-WR-CALNAME:".toList ++ escapeText calName) (by decide) (by decide) (by decide)
  simp only [headerLines, List.foldl_cons, List.foldl_nil, first, version, product, scale, method, name]

/-- A feed is read event by event: no text in it adds an event, ends one, or reaches another. -/
theorem parseIcs_serializeIcs (events : List SerializeInput) (calName : Text) :
    parseIcs runtime (serializeIcs now events calName) = events.filterMap (readBack runtime) := by
  obtain ⟨last, middle⟩ := foldl_events runtime now events {} []
  have stop : ∀ draft found, readLine runtime ⟨false, 0, draft, found⟩ "END:VCALENDAR".toList =
      ⟨false, 0, draft, found⟩ := by
    intro draft found
    exact readLine_ascii runtime draft found _ (by decide) (by decide) (by decide)
  have blank : ∀ draft found, readLine runtime ⟨false, 0, draft, found⟩ [] = ⟨false, 0, draft, found⟩ := by
    intro draft found
    exact readLine_ascii runtime draft found _ (by decide) (by decide) (by decide)
  rw [parseIcs, unfoldLines_serializeIcs, feedLines]
  simp only [List.foldl_append, foldl_headerLines, middle, List.foldl_cons, List.foldl_nil, stop, blank,
    List.nil_append, List.map_filterMap]
  rfl

/-- A date without its marks: eight digits in the years of four. -/
def plainDay (date : Date) : Text :=
  Decimal.fixed 4 date.year.natAbs ++ Decimal.fixed 2 date.month ++ Decimal.fixed 2 date.day

def plainTime (ms : ℕ) : Text :=
  Decimal.fixed 2 (ms / 3600000) ++ Decimal.fixed 2 (ms / 60000 % 60) ++
    Decimal.fixed 2 (ms / 1000 % 60)

theorem isDigits_append (width more : ℕ) (front back : Text) (left : isDigits width front = true)
    (right : isDigits more back = true) : isDigits (width + more) (front ++ back) = true := by
  simp only [isDigits, Bool.and_eq_true, decide_eq_true_eq, List.length_append, List.all_append] at *
  exact ⟨by omega, left.2, right.2⟩

theorem isDigits_fixed (width n : ℕ) : isDigits width (Decimal.fixed width n) = true := by
  simp only [isDigits, Decimal.fixed_length, decide_true, Bool.true_and]
  exact all_isDigit_fixed width n

theorem isDigits_plainDay (date : Date) : isDigits 8 (plainDay date) = true :=
  isDigits_append 6 2 _ _ (isDigits_append 4 2 _ _ (isDigits_fixed _ _) (isDigits_fixed _ _))
    (isDigits_fixed _ _)

theorem isDigits_plainTime (ms : ℕ) : isDigits 6 (plainTime ms) = true :=
  isDigits_append 4 2 _ _ (isDigits_append 2 2 _ _ (isDigits_fixed _ _) (isDigits_fixed _ _))
    (isDigits_fixed _ _)

theorem fmtIcsDateTime_time (low : 0 ≤ (ofDay (dayOf instant)).year) (high : (ofDay (dayOf instant)).year ≤ 9999) :
    fmtIcsDateTime instant false =
      plainDay (ofDay (dayOf instant)) ++ 'T' :: plainTime (instant % DAY_MS).toNat ++ ['Z'] := by
  have digits : ∀ width n, (Decimal.fixed width n).filter (fun c => c ≠ '-' && c ≠ ':') =
      Decimal.fixed width n := by
    intro width n
    rw [List.filter_eq_self]
    intro c inside
    have digit := Decimal.fixed_isDigit width n c inside
    simp only [ne_eq, decide_not, Bool.and_eq_true, Bool.not_eq_eq_eq_not, Bool.not_true,
      decide_eq_false_iff_not]
    constructor
    all_goals
      intro same
      rw [same] at digit
      cases digit
  have plain : (isoText instant).filter (fun c => c ≠ '-' && c ≠ ':') =
      plainDay (ofDay (dayOf instant)) ++ 'T' :: plainTime (instant % DAY_MS).toNat ++
        ('.' :: Decimal.fixed 3 ((instant % DAY_MS).toNat % 1000) ++ ['Z']) := by
    rw [isoText, yearText, if_pos ⟨low, high⟩, dayText, timeText, plainDay, plainTime]
    simp only [List.filter_append, List.cons_append, List.filter_cons, digits, List.filter_nil]
    simp
  have tail : ('.' :: Decimal.fixed 3 ((instant % DAY_MS).toNat % 1000) ++ ['Z']).length = 5 := by simp
  simp only [fmtIcsDateTime, Bool.false_eq_true, if_false]
  rw [plain, List.length_append, tail, Nat.add_sub_cancel, List.take_left']
  rfl

theorem matchDateTime_plain (day time : Text) (eight : isDigits 8 day = true) (six : isDigits 6 time = true) :
    matchDateTime (day ++ 'T' :: time ++ ['Z']) =
      some ⟨day.take 4, (day.drop 4).take 2, day.drop 6, time.take 2, (time.drop 2).take 2, time.drop 4,
        true⟩ := by
  have dayLength : day.length = 8 := by
    simp only [isDigits, Bool.and_eq_true, decide_eq_true_eq] at eight
    exact eight.1
  have timeLength : time.length = 6 := by
    simp only [isDigits, Bool.and_eq_true, decide_eq_true_eq] at six
    exact six.1
  have text : day ++ 'T' :: time ++ ['Z'] = day ++ ('T' :: (time ++ ['Z'])) := by simp
  have front : (day ++ ('T' :: (time ++ ['Z']))).take 8 = day := List.take_left' dayLength
  have middle : (day ++ ('T' :: (time ++ ['Z']))).drop 8 = 'T' :: (time ++ ['Z']) :=
    List.drop_left' dayLength
  have later : (day ++ ('T' :: (time ++ ['Z']))).drop 9 = time ++ ['Z'] := by
    rw [← List.drop_drop (i := 1) (j := 8), middle]
    rfl
  have clock : (time ++ ['Z']).take 6 = time := List.take_left' timeLength
  have zulu : (day ++ ('T' :: (time ++ ['Z']))).drop 15 = ['Z'] := by
    rw [← List.drop_drop (i := 6) (j := 9), later, List.drop_left' timeLength]
  rw [text, matchDateTime]
  simp only [front, middle, later, clock, zulu, eight, six, List.head?_cons]
  simp

theorem three_parts (width : ℕ) (first second third : Text) (left : first.length = width)
    (middle : second.length = 2) :
    (first ++ second ++ third).take width = first ∧
      ((first ++ second ++ third).drop width).take 2 = second ∧
      (first ++ second ++ third).drop (width + 2) = third := by
  have behind : (first ++ second ++ third).drop width = second ++ third := by
    rw [List.append_assoc, List.drop_left' left]
  refine ⟨?_, ?_, ?_⟩
  · rw [List.append_assoc, List.take_left' left]
  · rw [behind, List.take_left' middle]
  · rw [← List.drop_drop, behind, List.drop_left' middle]

/-- `new Date` gives the instant whose digits it is given. -/
theorem newDate_plain (date : Date) (ms : ℕ) (valid : Valid date) (low : 0 ≤ date.year)
    (high : date.year ≤ 9999) (inside : ms < 86400000) (whole : ms % 1000 = 0) (utc : Bool) :
    newDate runtime ⟨(plainDay date).take 4, ((plainDay date).drop 4).take 2, (plainDay date).drop 6,
      (plainTime ms).take 2, ((plainTime ms).drop 2).take 2, (plainTime ms).drop 4, utc⟩ =
      some (DAY_MS * toDay date + ms) := by
  obtain ⟨month, day⟩ := valid_small date valid
  obtain ⟨years, months, days⟩ := three_parts 4 (Decimal.fixed 4 date.year.natAbs)
    (Decimal.fixed 2 date.month) (Decimal.fixed 2 date.day) (by simp) (by simp)
  obtain ⟨hours, minutes, seconds⟩ := three_parts 2 (Decimal.fixed 2 (ms / 3600000))
    (Decimal.fixed 2 (ms / 60000 % 60)) (Decimal.fixed 2 (ms / 1000 % 60)) (by simp) (by simp)
  rw [plainDay, years, months, days, plainTime, hours, minutes, seconds, newDate]
  simp only [Decimal.value_fixed 4 _ (by omega : date.year.natAbs < 10 ^ 4),
    Decimal.value_fixed 2 _ month, Decimal.value_fixed 2 _ day,
    Decimal.value_fixed 2 _ (by omega : ms / 3600000 < 10 ^ 2),
    Decimal.value_fixed 2 _ (by omega : ms / 60000 % 60 < 10 ^ 2),
    Decimal.value_fixed 2 _ (by omega : ms / 1000 % 60 < 10 ^ 2)]
  have year : ((date.year.natAbs : ℕ) : ℤ) = date.year := by omega
  have again : ofDay (toDay date) = date := ofDay_toDay date valid
  rw [year, if_pos ⟨again, .inl (by omega)⟩]
  congr 2
  omega

theorem parseIcsDateTime_time (whole : instant % 1000 = 0) (low : 0 ≤ (ofDay (dayOf instant)).year)
    (high : (ofDay (dayOf instant)).year ≤ 9999) :
    parseIcsDateTime runtime (fmtIcsDateTime instant false) none = some instant := by
  have inside : (instant % DAY_MS).toNat < 86400000 := by
    simp only [DAY_MS]
    omega
  have seconds : (instant % DAY_MS).toNat % 1000 = 0 := by
    simp only [DAY_MS]
    omega
  simp only [parseIcsDateTime, trimChars_fmtIcsDateTime, isDigits_zulu, Bool.false_eq_true, if_false]
  rw [fmtIcsDateTime_time instant low high,
    matchDateTime_plain _ _ (isDigits_plainDay _) (isDigits_plainTime _)]
  simp only [newDate_plain runtime _ _ (ofDay_valid _) low high inside seconds, toDay_ofDay]
  simp only [dayOf, DAY_MS]
  congr 1
  omega

theorem fmtIcsDateTime_day (low : 1000 ≤ (ofDay (dayOf instant)).year)
    (high : (ofDay (dayOf instant)).year ≤ 9999) :
    fmtIcsDateTime instant true = plainDay (ofDay (dayOf instant)) := by
  obtain ⟨month, day⟩ := valid_small _ (ofDay_valid (dayOf instant))
  have long : 4 ≤ (Nat.toDigits 10 (ofDay (dayOf instant)).year.natAbs).length := by
    by_contra short
    have small := (Nat.length_toDigits_le_iff (by decide : 1 < 10) (by decide : 0 < 3)).mp
      (by omega : (Nat.toDigits 10 (ofDay (dayOf instant)).year.natAbs).length ≤ 3)
    omega
  have year : integerText (ofDay (dayOf instant)).year =
      Decimal.fixed 4 (ofDay (dayOf instant)).year.natAbs := by
    rw [integerText, if_neg (by omega), ← Decimal.pad_eq_fixed 3 _ (by omega), Decimal.pad,
      Decimal.padStart, Nat.sub_eq_zero_of_le long]
    rfl
  simp only [fmtIcsDateTime, if_true, plainDay]
  rw [year, pad2, pad2, Decimal.pad_eq_fixed 1 _ month, Decimal.pad_eq_fixed 1 _ day]

theorem parseIcsDateTime_day (midnight : instant % DAY_MS = 0)
    (low : 1000 ≤ (ofDay (dayOf instant)).year) (high : (ofDay (dayOf instant)).year ≤ 9999) :
    parseIcsDateTime runtime (fmtIcsDateTime instant true) none = some instant := by
  have read := newDate_plain runtime (ofDay (dayOf instant)) 0 (ofDay_valid _) (by omega) high
    (by decide) (by decide) true
  have hour : (plainTime 0).take 2 = ['0', '0'] := by decide
  have minute : ((plainTime 0).drop 2).take 2 = ['0', '0'] := by decide
  have second : (plainTime 0).drop 4 = ['0', '0'] := by decide
  rw [hour, minute, second, toDay_ofDay] at read
  simp only [parseIcsDateTime, trimChars_fmtIcsDateTime]
  rw [fmtIcsDateTime_day instant low high, if_pos (isDigits_plainDay _), read]
  simp only [dayOf, DAY_MS] at midnight ⊢
  congr 1
  omega

theorem parseIcsDateTime_early (low : 0 ≤ (ofDay (dayOf instant)).year)
    (early : (ofDay (dayOf instant)).year < 1000) :
    parseIcsDateTime runtime (fmtIcsDateTime instant true) none =
      runtime.dateFallback (fmtIcsDateTime instant true) := by
  obtain ⟨month, day⟩ := valid_small _ (ofDay_valid (dayOf instant))
  have year : (integerText (ofDay (dayOf instant)).year).length ≤ 3 := by
    rw [integerText, if_neg (by omega)]
    exact (Nat.length_toDigits_le_iff (by decide : 1 < 10) (by decide : 0 < 3)).mpr (by omega)
  have short : (fmtIcsDateTime instant true).length ≤ 7 := by
    simp only [fmtIcsDateTime, if_true]
    rw [pad2, pad2, Decimal.pad_eq_fixed 1 _ month, Decimal.pad_eq_fixed 1 _ day]
    simp only [List.length_append, Decimal.fixed_length]
    omega
  have few : ∀ text : Text, text.length ≤ 7 → isDigits 8 text = false := by
    intro text bound
    rw [isDigits, Bool.and_eq_false_iff]
    left
    rw [decide_eq_false_iff_not]
    omega
  have unmatched : matchDateTime (fmtIcsDateTime instant true) = none := by
    rw [matchDateTime]
    simp only [few _ (by rw [List.length_take]; omega : ((fmtIcsDateTime instant true).take 8).length ≤ 7)]
    simp
  simp only [parseIcsDateTime, trimChars_fmtIcsDateTime, few _ short, unmatched, Bool.false_eq_true, if_false]

structure Shown where
  uid : Text
  summary : Text
  description : Option Text
  location : Option Text
  startsAt : ℤ
  endsAt : ℤ
  allDay : Bool

def IcsEvent.shown (event : IcsEvent) : Shown :=
  ⟨event.uid, event.summary, event.description, event.location, event.startsAt, event.endsAt,
    event.allDay⟩

def SerializeInput.shown (event : SerializeInput) : Shown :=
  ⟨event.uid, event.summary, event.description, event.location, event.startsAt, event.endsAt,
    event.allDay⟩

/-- Text with no control character of Unicode but the line feed. -/
def PlainText (text : Text) : Prop :=
  ∀ c ∈ text, (c.toNat ≤ 0x1F ∨ 0x7F ≤ c.toNat ∧ c.toNat ≤ 0x9F) → c = '\n'

structure Proper (event : SerializeInput) : Prop where
  uid : PlainText event.uid
  summary : PlainText event.summary
  description : ∀ text, event.description = some text → PlainText text
  location : ∀ text, event.location = some text → PlainText text
  named : event.uid ≠ []
  trimmed : JsText.trimChars event.uid = event.uid
  starts : 1 ≤ (ofDay (dayOf event.startsAt)).year ∧ (ofDay (dayOf event.startsAt)).year ≤ 9999
  ends : 1 ≤ (ofDay (dayOf event.endsAt)).year ∧ (ofDay (dayOf event.endsAt)).year ≤ 9999
  seconds : event.startsAt % 1000 = 0 ∧ event.endsAt % 1000 = 0
  days : event.allDay = true →
    event.startsAt % DAY_MS = 0 ∧ event.endsAt % DAY_MS = 0 ∧ event.startsAt < event.endsAt
  ordered : event.startsAt ≤ event.endsAt

/-- A text that is written as it is: nothing in it ends a line for some reader, and no backslash stands
before an `n`. -/
def Kept (text : Text) : Prop := (∀ c ∈ text, isLineBreaking c = false) ∧ Unambiguous text

/-- A text that may be absent, but is not empty. -/
def KeptIfAny (value : Option Text) : Prop := ∀ text, value = some text → text ≠ [] ∧ Kept text

def OneLine (uid : Text) : Prop := ∀ c ∈ uid, isControl c = false

def FullYear (event : SerializeInput) : Prop :=
  event.allDay = true → 1000 ≤ (ofDay (dayOf event.startsAt)).year

theorem PlainText.no_return (plain : PlainText text) : '\r' ∉ text :=
  fun inside => absurd (plain '\r' inside (.inl (by decide))) (by decide)

theorem comes_back_iff (plain : PlainText text) : unescapeText (escapeText text) = text ↔ Kept text := by
  rw [unescapeText_escapeText text (plain.no_return text), reread_blankControls_iff]
  rfl

theorem comes_back_if_any_iff (value : Option Text) (plain : ∀ text, value = some text → PlainText text) :
    (written value).map (fun text => unescapeText (escapeText text)) = value ↔ KeptIfAny value := by
  match value with
  | none | some [] => simp [written, KeptIfAny]
  | some (c :: rest) =>
    have back := comes_back_iff (c :: rest) (plain _ rfl)
    simp only [written, KeptIfAny, Option.map_some, Option.some.injEq, back]
    constructor
    · intro kept text same
      exact same ▸ ⟨by simp, kept⟩
    · intro kept
      exact (kept _ rfl).2

theorem oneLine_eq_iff (uid : Text) : oneLine uid = uid ↔ OneLine uid := by
  constructor
  · intro same c inside
    rw [← same] at inside
    obtain ⟨d, _, rfl⟩ := List.mem_map.mp inside
    split
    · decide
    next plain => simpa using plain
  · intro plain
    rw [oneLine, List.map_congr_left (g := id), List.map_id]
    intro c inside
    simp [plain c inside]

theorem trimChars_oneLine (uid : Text) (plain : PlainText uid) (trimmed : JsText.trimChars uid = uid) :
    JsText.trimChars (oneLine uid) = oneLine uid := by
  -- a control at an end would be a line feed or a separator, which trimming takes away
  have kept : ∀ c ∈ uid, JsText.isSpace c = false → isControl c = false := by
    intro c inside letter
    by_contra control
    have feed : c ≠ '\n' := by
      intro same
      rw [same] at letter
      exact absurd letter (by decide)
    have code : ¬ (c.toNat ≤ 0x1F ∨ 0x7F ≤ c.toNat ∧ c.toNat ≤ 0x9F) :=
      fun range => feed (plain c inside range)
    simp only [isControl, JsText.isSpace, Bool.or_eq_false_iff, decide_eq_false_iff_not] at control letter
    omega
  apply JsText.trimChars_of_ends
  · intro c first
    rw [oneLine, List.head?_map] at first
    obtain ⟨d, head, rfl⟩ := Option.map_eq_some_iff.mp first
    have letter := JsText.trimChars_head uid d (trimmed.symm ▸ head)
    rw [kept d (List.mem_of_mem_head? head) letter]
    exact letter
  · intro c last
    rw [oneLine, List.getLast?_map] at last
    obtain ⟨d, tail, rfl⟩ := Option.map_eq_some_iff.mp last
    have letter := JsText.trimChars_last uid d (trimmed.symm ▸ tail)
    rw [kept d (List.mem_of_mem_getLast? tail) letter]
    exact letter

variable (event : SerializeInput)

theorem instants_read (proper : Proper event) (full : FullYear event) :
    parseIcsDateTime runtime (fmtIcsDateTime event.startsAt event.allDay) none = some event.startsAt ∧
      parseIcsDateTime runtime (fmtIcsDateTime event.endsAt event.allDay) none = some event.endsAt := by
  cases day : event.allDay with
  | false =>
    exact ⟨parseIcsDateTime_time runtime _ proper.seconds.1 (by have := proper.starts.1; omega)
      proper.starts.2, parseIcsDateTime_time runtime _ proper.seconds.2
      (by have := proper.ends.1; omega) proper.ends.2⟩
  | true =>
    obtain ⟨startDay, endDay, after⟩ := proper.days day
    have year := year_ofDay_mono (dayOf event.startsAt) (dayOf event.endsAt) (by
      simp only [dayOf, DAY_MS]
      omega)
    have start := full day
    exact ⟨parseIcsDateTime_day runtime _ startDay start proper.starts.2,
      parseIcsDateTime_day runtime _ endDay (by omega) proper.ends.2⟩

theorem readBack_full (proper : Proper event) (full : FullYear event) :
    (readBack runtime event).map IcsEvent.shown = some
      ⟨oneLine event.uid, unescapeText (escapeText event.summary),
        (written event.description).map (fun text => unescapeText (escapeText text)),
        (written event.location).map (fun text => unescapeText (escapeText text)),
        event.startsAt, event.endsAt, event.allDay⟩ := by
  obtain ⟨starts, ends⟩ := instants_read runtime event proper full
  have uid := trimChars_oneLine event.uid proper.uid proper.trimmed
  have named : oneLine event.uid ≠ [] := by
    rw [oneLine, ne_eq, List.map_eq_nil_iff]
    exact proper.named
  have long : event.allDay = true → event.startsAt < event.endsAt := fun day => (proper.days day).2.2
  have ordered := proper.ordered
  have finished : (readDraft runtime event).finish = some
      { uid := oneLine event.uid
        summary := unescapeText (escapeText event.summary)
        description := (written event.description).map (fun text => unescapeText (escapeText text))
        location := (written event.location).map (fun text => unescapeText (escapeText text))
        startsAt := event.startsAt
        endsAt := event.endsAt
        allDay := event.allDay
        rrule := none
        tzid := none
        exdates := []
        exdateDays := []
        recurrenceId := none
        recurrenceRange := none
        dtstartWall := none
        status := event.status.map IcsStatus.text } := by
    cases day : event.allDay with
    | false =>
      rw [day] at starts ends
      simp [Draft.finish, readDraft, starts, ends, uid, day, named, ordered]
    | true =>
      rw [day] at starts ends
      simp [Draft.finish, readDraft, starts, ends, uid, day, named]
  rw [readBack, finished, Option.map_some, Option.map_some, oneDayLong, if_neg]
  · rfl
  · intro short
    have after := long short.1
    exact absurd short.2 (not_le.mpr after)

theorem readBack_early (proper : Proper event) (day : event.allDay = true)
    (early : (ofDay (dayOf event.startsAt)).year < 1000)
    (unknown : runtime.dateFallback = fun _ => none) : readBack runtime event = none := by
  have starts : parseIcsDateTime runtime (fmtIcsDateTime event.startsAt true) none = none := by
    rw [parseIcsDateTime_early runtime _ (by have := proper.starts.1; omega) early, unknown]
  simp [readBack, Draft.finish, readDraft, day, starts]

structure ComesBack (event : SerializeInput) : Prop where
  uid : OneLine event.uid
  summary : Kept event.summary
  description : KeptIfAny event.description
  location : KeptIfAny event.location
  year : FullYear event

theorem readBack_of_comesBack (proper : Proper event) (back : ComesBack event) :
    (readBack runtime event).map IcsEvent.shown = some event.shown := by
  rw [readBack_full runtime event proper back.year, (oneLine_eq_iff _).mpr back.uid,
    (comes_back_iff _ proper.summary).mpr back.summary,
    (comes_back_if_any_iff _ proper.description).mpr back.description,
    (comes_back_if_any_iff _ proper.location).mpr back.location]
  rfl

theorem comesBack_of_readBack (proper : Proper event)
    (unknown : runtime.dateFallback = fun _ => none)
    (same : (readBack runtime event).map IcsEvent.shown = some event.shown) : ComesBack event := by
  have full : FullYear event := by
    intro day
    by_contra early
    rw [readBack_early runtime event proper day (by omega) unknown] at same
    cases same
  rw [readBack_full runtime event proper full, Option.some.injEq, SerializeInput.shown,
    Shown.mk.injEq] at same
  obtain ⟨uid, summary, description, location, _⟩ := same
  exact ⟨(oneLine_eq_iff _).mp uid, (comes_back_iff _ proper.summary).mp summary,
    (comes_back_if_any_iff _ proper.description).mp description,
    (comes_back_if_any_iff _ proper.location).mp location, full⟩

theorem filterMap_map_eq_iff {α β γ : Type} (read : α → Option β) (left : β → γ) (right : α → γ)
    (list : List α) : (list.filterMap read).map left = list.map right ↔
      ∀ a ∈ list, (read a).map left = some (right a) := by
  induction list with
  | nil => simp
  | cons a list ih =>
    rw [List.forall_mem_cons, ← ih]
    cases found : read a with
    | none =>
      have fewer := List.length_filterMap_le read list
      constructor
      · intro same
        have lengths := congrArg List.length same
        simp only [List.filterMap_cons, found, List.length_map, List.length_cons] at lengths
        omega
      · intro both
        cases both.1
    | some b => simp [found]

/-- A feed comes back, whatever the runtime makes of a text that is no date, exactly where each of its
events does. -/
theorem feed_reads_back_iff (events : List SerializeInput) (calName : Text)
    (proper : ∀ event ∈ events, Proper event) :
    (∀ fallback, (parseIcs { runtime with dateFallback := fallback }
        (serializeIcs now events calName)).map IcsEvent.shown = events.map SerializeInput.shown) ↔
      ∀ event ∈ events, ComesBack event := by
  constructor
  · intro same event inside
    have none_known := same (fun _ => none)
    rw [parseIcs_serializeIcs, filterMap_map_eq_iff] at none_known
    exact comesBack_of_readBack _ event (proper event inside) rfl (none_known event inside)
  · intro back fallback
    rw [parseIcs_serializeIcs, filterMap_map_eq_iff]
    intro event inside
    exact readBack_of_comesBack _ event (proper event inside) (back event inside)

theorem events_read_apart (events : List SerializeInput) (calName : Text) :
    parseIcs runtime (serializeIcs now events calName) =
        events.flatMap (fun event => parseIcs runtime (serializeIcs now [event] calName)) ∧
      ∀ event, (parseIcs runtime (serializeIcs now [event] calName)).length ≤ 1 := by
  have alone : ∀ event, parseIcs runtime (serializeIcs now [event] calName) =
      (readBack runtime event).toList := by
    intro event
    rw [parseIcs_serializeIcs]
    cases found : readBack runtime event with
    | none | some => simp [found]
  constructor
  · simp only [alone, parseIcs_serializeIcs]
    induction events with
    | nil => rfl
    | cons event events ih =>
      rw [List.flatMap_cons, ← ih]
      cases found : readBack runtime event with
      | none | some => simp [found]
  · intro event
    rw [alone, Option.length_toList]
    split <;> simp

theorem feed_reads_back (now : ℤ) (events : List SerializeInput) (calName : Text)
    (proper : ∀ event ∈ events, Proper event) (back : ∀ event ∈ events, ComesBack event) :
    (parseIcs runtime (serializeIcs now events calName)).map IcsEvent.shown =
        events.map SerializeInput.shown ∧
      ∀ others : List SerializeInput,
        parseIcs runtime (serializeIcs now others calName) =
            others.flatMap (fun event => parseIcs runtime (serializeIcs now [event] calName)) ∧
          ∀ event, (parseIcs runtime (serializeIcs now [event] calName)).length ≤ 1 := by
  refine ⟨?_, fun others => events_read_apart runtime now others calName⟩
  exact (feed_reads_back_iff runtime now events calName proper).mpr back runtime.dateFallback

/-- A runtime that knows the zone of the epoch alone. -/
def utcRuntime : Runtime where
  intl := Intl.only ⟨"UTC", fun _ => 0⟩ (by decide)
  upper c := [c.toUpper]
  upper_ascii _ _ := rfl
  dateFallback _ := none

/-- Marks of every kind, over two lines; a backslash that is not before an `n`. -/
def standup : SerializeInput where
  uid := ['s', '1']
  summary := ['a', ',', ';', '\\', ',', '\n', 'E', 'N', 'D', ':', 'V']
  description := some ['\\', '\\', ';']
  location := none
  meetingUrl := none
  status := some .confirmed
  startsAt := 1767225600000
  endsAt := 1767229200000
  allDay := false
  updatedAt := none

def holiday : SerializeInput where
  uid := ['h']
  summary := []
  description := none
  location := some ['x']
  meetingUrl := none
  status := none
  startsAt := 1767225600000
  endsAt := 1767312000000
  allDay := true
  updatedAt := some 0

def twoLineUid : SerializeInput := { holiday with uid := ['a', '\n', 'b'] }

theorem plainText_of_all
    (all : text.all (fun c => decide (32 ≤ c.toNat ∧ c.toNat < 127) || c = '\n') = true) :
    PlainText text := by
  intro c inside control
  have known := List.all_eq_true.mp all c inside
  simp only [Bool.or_eq_true, decide_eq_true_eq] at known
  rcases known with letter | newline
  · omega
  · exact newline

theorem standup_proper : Proper standup where
  uid := plainText_of_all _ (by decide)
  summary := plainText_of_all _ (by decide)
  description := by
    intro text same
    obtain rfl := Option.some.inj same
    exact plainText_of_all _ (by decide)
  location := by simp [standup]
  named := by decide
  trimmed := by decide
  starts := by decide
  ends := by decide
  seconds := by decide
  days := by decide
  ordered := by decide

theorem holiday_proper : Proper holiday where
  uid := plainText_of_all _ (by decide)
  summary := plainText_of_all _ (by decide)
  description := by simp [holiday]
  location := by
    intro text same
    obtain rfl := Option.some.inj same
    exact plainText_of_all _ (by decide)
  named := by decide
  trimmed := by decide
  starts := by decide
  ends := by decide
  seconds := by decide
  days := by decide
  ordered := by decide

theorem kept_of_check (plain : text.all (fun c => !isLineBreaking c) = true)
    (same : reread text = text) : Kept text := by
  refine ⟨?_, (reread_eq_iff text).mp same⟩
  intro c inside
  simpa using List.all_eq_true.mp plain c inside

theorem standup_comesBack : ComesBack standup where
  uid := (oneLine_eq_iff _).mp (by decide)
  summary := kept_of_check _ (by decide) (by decide)
  description := by
    intro text same
    obtain rfl := Option.some.inj same
    exact ⟨by simp, kept_of_check _ (by decide) (by decide)⟩
  location := by simp [KeptIfAny, standup]
  year := by simp [FullYear, standup]

theorem holiday_comesBack : ComesBack holiday where
  uid := (oneLine_eq_iff _).mp (by decide)
  summary := kept_of_check _ (by decide) (by decide)
  description := by simp [KeptIfAny, holiday]
  location := by
    intro text same
    obtain rfl := Option.some.inj same
    exact ⟨by simp, kept_of_check _ (by decide) (by decide)⟩
  year := fun _ => by decide

theorem standup_and_holiday_read_back :
    (∀ event ∈ [standup, holiday], Proper event) ∧ (∀ event ∈ [standup, holiday], ComesBack event) ∧
      (parseIcs utcRuntime (serializeIcs 0 [standup, holiday] [])).map IcsEvent.shown =
        [standup, holiday].map SerializeInput.shown := by
  have proper : ∀ event ∈ [standup, holiday], Proper event := by
    intro event inside
    simp only [List.mem_cons, List.not_mem_nil, or_false] at inside
    rcases inside with rfl | rfl
    · exact standup_proper
    · exact holiday_proper
  have back : ∀ event ∈ [standup, holiday], ComesBack event := by
    intro event inside
    simp only [List.mem_cons, List.not_mem_nil, or_false] at inside
    rcases inside with rfl | rfl
    · exact standup_comesBack
    · exact holiday_comesBack
  exact ⟨proper, back, (feed_reads_back utcRuntime 0 [standup, holiday] [] proper back).1⟩

/-- A name over two lines is put on one. -/
theorem two_line_uid_changed :
    Proper twoLineUid ∧
      (parseIcs utcRuntime (serializeIcs 0 [twoLineUid] [])).map IcsEvent.shown ≠
        [twoLineUid].map SerializeInput.shown := by
  have proper : Proper twoLineUid :=
    { holiday_proper with
      uid := plainText_of_all _ (by decide)
      named := by decide
      trimmed := by decide }
  refine ⟨proper, ?_⟩
  intro same
  rw [parseIcs_serializeIcs, filterMap_map_eq_iff] at same
  have back := comesBack_of_readBack utcRuntime twoLineUid proper rfl (same _ (by simp))
  exact absurd (back.uid '\n' (by decide)) (by decide)

end Droplet.Ics
