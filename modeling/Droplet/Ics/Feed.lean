import Droplet.IsoText
import Droplet.Ics.Text
import Droplet.Lib.JsText

/-! Reading and writing a calendar feed (`services/ics.ts`). -/

namespace Droplet.Ics

open ZonedTime IsoText Gregorian

/-- What the code takes from its runtime: the zone database, the upper case of a character, and what
`new Date` makes of a text that is no date of the standard's own format (`none`: an invalid date). -/
structure Runtime where
  intl : Intl
  upper : Char → Text
  upper_ascii : ∀ c, c.toNat < 128 → upper c = [c.toUpper]
  dateFallback : Text → Option ℤ

structure DtstartWall where
  ymd : Text
  minuteOfDay : ℕ

structure IcsEvent where
  uid : Text
  summary : Text
  description : Option Text
  location : Option Text
  startsAt : ℤ
  endsAt : ℤ
  allDay : Bool
  rrule : Option Text
  tzid : Option String
  exdates : List ℤ
  exdateDays : List Text
  recurrenceId : Option ℤ
  recurrenceRange : Option Text
  dtstartWall : Option DtstartWall
  status : Option Text

/-- An event while it is read; an instant that is invalid is as good as none. -/
structure Draft where
  uid : Option Text := none
  summary : Option Text := none
  description : Option Text := none
  location : Option Text := none
  startsAt : Option ℤ := none
  endsAt : Option ℤ := none
  allDay : Bool := false
  rrule : Option Text := none
  tzid : Option String := none
  exdates : List ℤ := []
  exdateDays : List Text := []
  recurrenceId : Option ℤ := none
  recurrenceRange : Option Text := none
  dtstartWall : Option DtstartWall := none
  status : Option Text := none

/-- `.replace(/\r\n/g, "\n")` -/
def plainBreaks : Text → Text
  | [] => []
  | '\r' :: '\n' :: rest => '\n' :: plainBreaks rest
  | c :: rest => c :: plainBreaks rest

/-- A line that begins with white space goes on with the one before. -/
def unfoldLine (out : List Text) (line : Text) : List Text :=
  match line, out.getLast? with
  | c :: rest, some last =>
    if c = ' ' ∨ c = '\t' then out.dropLast ++ [last ++ rest] else out ++ [line]
  | _, _ => out ++ [line]

def unfoldLines (text : Text) : List Text :=
  ((plainBreaks text).splitOn '\n').foldl unfoldLine []

structure ContentLine where
  name : Text
  params : List (Text × Text)
  value : Text

/-- The value of a parameter, `none` where it is absent. -/
def ContentLine.param (line : ContentLine) (name : Text) : Option Text :=
  (line.params.reverse.find? (fun pair => pair.1 = name)).map Prod.snd

variable (runtime : Runtime)

def toUpperCase (text : Text) : Text := text.flatMap runtime.upper

/-- `.replace(/^"(.*)"$/, "$1")`, where `.` is no line end. -/
def unquote (text : Text) : Text :=
  let inner := (text.drop 1).dropLast
  if 2 ≤ text.length ∧ text.head? = some '"' ∧ text.getLast? = some '"' ∧
      inner.all (fun c => c ≠ '\n' && c ≠ '\r' && c.toNat ≠ 0x2028 && c.toNat ≠ 0x2029) then inner
  else text

def parseParam (part : Text) : Option (Text × Text) :=
  if part.head? ≠ some '=' ∧ '=' ∈ part then
    some (toUpperCase runtime (part.takeWhile (fun c => c ≠ '=')),
      unquote ((part.dropWhile (fun c => c ≠ '=')).drop 1))
  else none

def parseLine (line : Text) : Option ContentLine :=
  if ':' ∈ line then
    let head := line.takeWhile (fun c => c ≠ ':')
    let parts := head.splitOn ';'
    some ⟨toUpperCase runtime (parts.headD []), (parts.drop 1).filterMap (parseParam runtime),
      (line.dropWhile (fun c => c ≠ ':')).drop 1⟩
  else none

/-- The names that are tried for a `TZID`, the longest first. -/
def tzidCandidates (tzid : Text) : List Text :=
  let t := JsText.trimChars tzid
  (if t = [] then [] else [t]) ++
    match t with
    | '/' :: rest => (rest.splitOn '/').tails.dropLast.map (fun segments => ['/'].intercalate segments)
    | _ => []

def normalizeTzid (tzid : Text) : Option String :=
  ((tzidCandidates tzid).map String.ofList).find? (fun name => (runtime.intl.resolve name).isSome)

def isDigits (width : ℕ) (text : Text) : Bool := text.length = width && text.all Char.isDigit

/-- The digits of `YYYYMMDDTHHMMSS`, and whether a `Z` is behind them. -/
structure DateTimeText where
  year : Text
  month : Text
  day : Text
  hour : Text
  minute : Text
  second : Text
  isUtc : Bool

/-- `/^(\d{4})(\d{2})(\d{2})T(\d{2})(\d{2})(\d{2})(Z?)$/` -/
def matchDateTime (v : Text) : Option DateTimeText :=
  let day := v.take 8
  let time := (v.drop 9).take 6
  let zulu := v.drop 15
  if isDigits 8 day ∧ (v.drop 8).head? = some 'T' ∧ isDigits 6 time ∧ (zulu = [] ∨ zulu = ['Z']) then
    some ⟨day.take 4, (day.drop 4).take 2, day.drop 6, time.take 2, (time.drop 2).take 2, time.drop 4,
      zulu = ['Z']⟩
  else none

/-- `new Date` of the standard's format, from the digits of it. -/
def newDate (t : DateTimeText) : Option ℤ :=
  let date : Date :=
    ⟨Decimal.value t.year, Decimal.value t.month, Decimal.value t.day⟩
  let hour := Decimal.value t.hour
  let minute := Decimal.value t.minute
  let second := Decimal.value t.second
  if ofDay (toDay date) = date ∧
      (hour < 24 ∧ minute < 60 ∧ second < 60 ∨ hour = 24 ∧ minute = 0 ∧ second = 0) then
    some (DAY_MS * toDay date + (hour * 3600000 + minute * 60000 + second * 1000 : ℕ))
  else
    runtime.dateFallback (t.year ++ '-' :: t.month ++ '-' :: t.day ++ 'T' :: t.hour ++ ':' :: t.minute ++
      ':' :: t.second ++ ['Z'])

def parseIcsDateTime (value : Text) (tzid : Option Text) : Option ℤ :=
  let v := JsText.trimChars value
  if isDigits 8 v then
    newDate runtime ⟨v.take 4, (v.drop 4).take 2, v.drop 6, ['0', '0'], ['0', '0'], ['0', '0'], true⟩
  else
    match matchDateTime v with
    | some t =>
      match t.isUtc, tzid with
      | false, some tzid =>
        ((normalizeTzid runtime tzid).bind runtime.intl.resolve).map (fun zone =>
          zonedWallClockToUtc (Decimal.value t.year) (Decimal.value t.month)
            (Decimal.value t.day) (Decimal.value t.hour) (Decimal.value t.minute)
            (Decimal.value t.second) zone)
      | _, _ => newDate runtime t
    | none => runtime.dateFallback v

/-- `/^(\d{4})(\d{2})(\d{2})T(\d{2})(\d{2})/` -/
def matchWall (v : Text) : Option DtstartWall :=
  let day := v.take 8
  let time := (v.drop 9).take 4
  if isDigits 8 day ∧ (v.drop 8).head? = some 'T' ∧ isDigits 4 time then
    some ⟨day.take 4 ++ '-' :: (day.drop 4).take 2 ++ '-' :: day.drop 6,
      Decimal.value (time.take 2) * 60 + Decimal.value (time.drop 2)⟩
  else none

def setDtstart (draft : Draft) (line : ContentLine) : Draft :=
  let value := JsText.trimChars line.value
  let tzid := line.param "TZID".toList
  let zone := if value.getLast? = some 'Z' then none else tzid.bind (normalizeTzid runtime)
  { draft with
    startsAt := parseIcsDateTime runtime line.value tzid
    tzid := zone
    dtstartWall := if zone.isSome then matchWall value else none
    allDay := draft.allDay || line.param "VALUE".toList = some "DATE".toList || isDigits 8 value }

def addExdate (tzid : Option Text) (draft : Draft) (raw : Text) : Draft :=
  let v := JsText.trimChars raw
  if isDigits 8 v then
    { draft with
      exdateDays := draft.exdateDays ++ [v.take 4 ++ '-' :: (v.drop 4).take 2 ++ '-' :: v.drop 6] }
  else
    match parseIcsDateTime runtime v tzid with
    | some instant => { draft with exdates := draft.exdates ++ [instant] }
    | none => draft

def setProperty (draft : Draft) (line : ContentLine) : Draft :=
  if line.name = "UID".toList then { draft with uid := some (JsText.trimChars line.value) }
  else if line.name = "SUMMARY".toList then { draft with summary := some (unescapeText line.value) }
  else if line.name = "DESCRIPTION".toList then
    { draft with description := some (unescapeText line.value) }
  else if line.name = "LOCATION".toList then { draft with location := some (unescapeText line.value) }
  else if line.name = "DTSTART".toList then setDtstart runtime draft line
  else if line.name = "DTEND".toList then
    { draft with endsAt := parseIcsDateTime runtime line.value (line.param "TZID".toList) }
  else if line.name = "RRULE".toList then { draft with rrule := some line.value }
  else if line.name = "EXDATE".toList then
    (line.value.splitOn ',').foldl (addExdate runtime (line.param "TZID".toList)) draft
  else if line.name = "RECURRENCE-ID".toList then
    { draft with
      recurrenceId := (parseIcsDateTime runtime line.value (line.param "TZID".toList)).or
        draft.recurrenceId
      recurrenceRange := (line.param "RANGE".toList).map (toUpperCase runtime) }
  else if line.name = "STATUS".toList then
    { draft with status := some (toUpperCase runtime (JsText.trimChars line.value)) }
  else draft

/-- The event of a draft at its end, where it has the shape of one. -/
def Draft.finish (draft : Draft) : Option IcsEvent :=
  let endsAt := match draft.allDay, draft.startsAt, draft.endsAt with
    | true, some start, none => some (start + DAY_MS)
    | _, _, endsAt => endsAt
  match draft.uid, draft.summary, draft.startsAt, endsAt with
  | some uid, some summary, some startsAt, some endsAt =>
    if uid ≠ [] ∧ (draft.allDay = true ∨ startsAt ≤ endsAt) then
      some ⟨uid, summary, draft.description, draft.location, startsAt, endsAt, draft.allDay,
        draft.rrule, draft.tzid, draft.exdates, draft.exdateDays, draft.recurrenceId,
        draft.recurrenceRange, draft.dtstartWall, draft.status⟩
    else none
  | _, _, _, _ => none

structure Reading where
  inEvent : Bool
  nestedDepth : ℕ
  current : Draft
  events : List IcsEvent

def beginEvent : Text := "BEGIN:VEVENT".toList
def endEvent : Text := "END:VEVENT".toList
def beginMark : Text := "BEGIN:".toList
def endMark : Text := "END:".toList

def readLine (state : Reading) (line : Text) : Reading :=
  let upper := toUpperCase runtime (JsText.trimChars line)
  if upper = beginEvent then { state with inEvent := true, nestedDepth := 0, current := {} }
  else if upper = endEvent then
    ⟨false, 0, {}, state.events ++ state.current.finish.toList⟩
  else if state.inEvent = false then state
  else if 0 < state.nestedDepth then
    -- a component inside the event: only its end counts
    if beginMark <+: upper then { state with nestedDepth := state.nestedDepth + 1 }
    else if endMark <+: upper then { state with nestedDepth := state.nestedDepth - 1 }
    else state
  else if beginMark <+: upper then { state with nestedDepth := 1 }
  else
    match parseLine runtime line with
    | none => state
    | some parsed => { state with current := setProperty runtime state.current parsed }

def oneDayLong (event : IcsEvent) : IcsEvent :=
  if event.allDay = true ∧ event.endsAt ≤ event.startsAt then
    { event with endsAt := event.startsAt + DAY_MS }
  else event

def parseIcs (text : Text) : List IcsEvent :=
  ((unfoldLines text).foldl (readLine runtime) ⟨false, 0, {}, []⟩).events.map oneDayLong

/-- `toISOString` ends in the milliseconds and a `Z`. -/
def fmtIcsDateTime (instant : ℤ) (allDay : Bool) : Text :=
  if allDay then
    let date := ofDay (dayOf instant)
    integerText date.year ++ pad2 date.month ++ pad2 date.day
  else
    let plain := (isoText instant).filter (fun c => c ≠ '-' && c ≠ ':')
    plain.take (plain.length - 5) ++ ['Z']

inductive IcsStatus where
  | tentative
  | confirmed
  | cancelled
  | completed

def IcsStatus.text : IcsStatus → Text
  | .tentative => "TENTATIVE".toList
  | .confirmed => "CONFIRMED".toList
  | .cancelled => "CANCELLED".toList
  | .completed => "COMPLETED".toList

structure SerializeInput where
  uid : Text
  summary : Text
  description : Option Text
  location : Option Text
  meetingUrl : Option Text
  status : Option IcsStatus
  startsAt : ℤ
  endsAt : ℤ
  allDay : Bool
  updatedAt : Option ℤ

/-- A line that is there unless its value is absent or empty. -/
def optionalLine (name : Text) (write : Text → Text) : Option Text → List Text
  | none | some [] => []
  | some value => [name ++ write value]

def dateLines (event : SerializeInput) : List Text :=
  if event.allDay then
    ["DTSTART;VALUE=DATE:".toList ++ fmtIcsDateTime event.startsAt true,
      "DTEND;VALUE=DATE:".toList ++ fmtIcsDateTime event.endsAt true]
  else
    ["DTSTART:".toList ++ fmtIcsDateTime event.startsAt false,
      "DTEND:".toList ++ fmtIcsDateTime event.endsAt false]

def eventLines (now : ℤ) (event : SerializeInput) : List Text :=
  [beginEvent, "UID:".toList ++ oneLine event.uid, "DTSTAMP:".toList ++ fmtIcsDateTime now false] ++
    dateLines event ++ ["SUMMARY:".toList ++ escapeText event.summary] ++
    event.status.toList.map (fun status => "STATUS:".toList ++ status.text) ++
    optionalLine "DESCRIPTION:".toList escapeText event.description ++
    optionalLine "LOCATION:".toList escapeText event.location ++
    optionalLine "URL:".toList escapeUri event.meetingUrl ++
    event.updatedAt.toList.map (fun instant => "LAST-MODIFIED:".toList ++ fmtIcsDateTime instant false) ++
    [endEvent]

def headerLines (calName : Text) : List Text :=
  ["BEGIN:VCALENDAR".toList, "VERSION:2.0".toList, "PRODID:-//Droplet//edge-platform//EN".toList,
    "CALSCALE:GREGORIAN".toList, "METHOD:PUBLISH".toList,
    "X-WR-CALNAME:".toList ++ escapeText calName]

def serializeIcs (now : ℤ) (events : List SerializeInput) (calName : Text) : Text :=
  ['\r', '\n'].intercalate
    (headerLines calName ++ events.flatMap (eventLines now) ++ ["END:VCALENDAR".toList]) ++ ['\r', '\n']

end Droplet.Ics
