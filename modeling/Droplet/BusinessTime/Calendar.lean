import Droplet.ZonedTime

/-! Business calendars: their shape, the checks on it, and what they compile to
(`services/support/business-time.ts`, first half).

The memo tables of the source only save work on values that never change, so the
functions here compute afresh. -/

namespace Droplet.BusinessTime

open ZonedTime

structure BusinessWindow where
  day : ℤ
  start : String
  «end» : String
  deriving DecidableEq

structure BusinessCalendar where
  timezone : String
  windows : List BusinessWindow
  holidays : List String
  deriving DecidableEq

def MAX_WINDOWS : ℕ := 100
def MAX_HOLIDAYS : ℕ := 2000
def MAX_SCAN_DAYS : ℕ := 3660

/-- `/^(\d{2}):(\d{2})$/`. -/
def matchClock (value : String) : Option (ℕ × ℕ) :=
  match value.toList with
  | [h1, h2, ':', m1, m2] =>
    if [h1, h2, m1, m2].all Char.isDigit then
      some (Decimal.value [h1, h2], Decimal.value [m1, m2])
    else none
  | _ => none

def parseClock (value : Option (Json ℚ)) (allow24 : Bool) : Result ℕ :=
  let parsed := match value with
    | some (.str text) => matchClock text
    | _ => none
  match parsed with
  | none => .error (.quoting "not an HH:MM time" value)
  | some (hours, minutes) =>
    if minutes > 59 then .error (.quoting "not an HH:MM time" value)
    else if hours = 24 ∧ minutes = 0 ∧ allow24 = true then .ok 1440
    else if hours > 23 then .error (.quoting "not an HH:MM time" value)
    else .ok (hours * 60 + minutes)

def parseClockText (value : String) (allow24 : Bool) : Result ℕ :=
  parseClock (some (.str value)) allow24

def BusinessWindow.toJson (window : BusinessWindow) : Json ℚ :=
  .obj [("day", .num window.day), ("start", .str window.start), ("end", .str window.end)]

def BusinessCalendar.toJson (calendar : BusinessCalendar) : Json ℚ :=
  .obj [("timezone", .str calendar.timezone),
    ("windows", .arr (calendar.windows.map BusinessWindow.toJson)),
    ("holidays", .arr (calendar.holidays.map Json.str))]

variable (intl : Intl)

def isZoneField : Option (Json ℚ) → Option String
  | some (.str tz) => if isValidIanaZone intl tz then some tz else none
  | _ => none

def checkWindow (w : Json ℚ) (i : ℕ) : Result BusinessWindow := do
  let .obj _ := w | throw (.text ("window " ++ toString (i + 1) ++ " is not an object"))
  let day ← match w.field "day" with
    | some (.num q) =>
      if q.den = 1 ∧ 0 ≤ q.num ∧ q.num ≤ 6 then pure q.num
      else throw (.text ("window " ++ toString (i + 1) ++
        ": day must be 0 (Sunday) to 6 (Saturday)"))
    | _ => throw (.text ("window " ++ toString (i + 1) ++
        ": day must be 0 (Sunday) to 6 (Saturday)"))
  let _ ← parseClock (w.field "start") false
  let _ ← parseClock (w.field "end") true
  match w.field "start", w.field "end" with
  | some (.str s), some (.str e) => return ⟨day, s, e⟩
  | _, _ => throw (.quoting "not an HH:MM time" none)

def checkWindows : List (Json ℚ) → ℕ → Result (List BusinessWindow)
  | [], _ => .ok []
  | w :: rest, i => do
      let window ← checkWindow w i
      let others ← checkWindows rest (i + 1)
      return window :: others

def checkHolidays : List (Json ℚ) → Result (List String)
  | [] => .ok []
  | .str h :: rest => do
      if isCalendarYmd h then
        let others ← checkHolidays rest
        return h :: others
      else throw (.quoting "not a YYYY-MM-DD date" (some (.str h)))
  | value :: _ => .error (.quoting "not a YYYY-MM-DD date" (some value))

def checkShape (input : Json ℚ) : Result BusinessCalendar := do
  let .obj _ := input | throw (.text "a calendar is an object")
  let timezone ← match isZoneField intl (input.field "timezone") with
    | some tz => pure tz
    | none => throw (.quoting "not an IANA time zone" (input.field "timezone"))
  let windows ← match input.field "windows" with
    | some (.arr windows) => pure windows
    | _ => throw (.text "windows must be a list")
  if windows.length > MAX_WINDOWS then throw (.text "at most 100 windows")
  let holidays ← match input.field "holidays" with
    | some (.arr holidays) => pure holidays
    | _ => throw (.text "holidays must be a list")
  if holidays.length > MAX_HOLIDAYS then throw (.text "at most 2000 holidays")
  let checked ← checkWindows windows 0
  let days ← checkHolidays holidays
  return ⟨timezone, checked, days⟩

/-- Refuse a window of no length, which the arithmetic reads as no time. -/
def checkLengths : List BusinessWindow → Result Unit
  | [] => .ok ()
  | w :: rest => do
      let s ← parseClockText w.start false
      let e ← parseClockText w.end true
      if s = e then
        throw (.text ("a window can't start and end at the same time (" ++ w.start ++ ")"))
      checkLengths rest

def minutesOf (value : String) (allow24 : Bool) : ℕ :=
  match parseClockText value allow24 with
  | .ok minutes => minutes
  | .error _ => 0

/-- By day, then start, then end. -/
def windowOrder (a b : BusinessWindow) : Prop :=
  a.day < b.day ∨ (a.day = b.day ∧ (minutesOf a.start false < minutesOf b.start false ∨
    (minutesOf a.start false = minutesOf b.start false ∧
      minutesOf a.end true ≤ minutesOf b.end true)))

instance : DecidableRel windowOrder := fun _ _ =>
  inferInstanceAs (Decidable (_ ∨ (_ ∧ (_ ∨ (_ ∧ _)))))

def validateCalendarForSave (input : Json ℚ) : Result BusinessCalendar := do
  let calendar ← checkShape intl input
  if calendar.windows.length = 0 then
    throw (.text "add at least one window of business hours")
  checkLengths calendar.windows
  let timezone ← canonicalZone intl calendar.timezone
  return ⟨timezone, calendar.windows.insertionSort windowOrder,
    calendar.holidays.eraseDups.insertionSort (· ≤ ·)⟩

/-- Minutes from the midnight of the day the window starts on; the end may pass 1440. -/
abbrev Segment := ℕ × ℕ

structure Compiled where
  tz : String
  byWeekday : List (List Segment)
  holidays : List String
  empty : Bool
  deriving DecidableEq

def segmentOrder (a b : Segment) : Prop := a.1 < b.1 ∨ (a.1 = b.1 ∧ a.2 ≤ b.2)

instance : DecidableRel segmentOrder := fun _ _ =>
  inferInstanceAs (Decidable (_ ∨ (_ ∧ _)))

/-- The windows of one weekday, in the order of the calendar. A window of no length is
no time; an end before its start is in the next morning. -/
def perDay (windows : List BusinessWindow) (day : ℕ) : Result (List Segment) :=
  match windows with
  | [] => .ok []
  | w :: rest => do
      let s ← parseClockText w.start false
      let e0 ← parseClockText w.end true
      let others ← perDay rest day
      if e0 = s ∨ w.day ≠ day then return others
      return (s, if e0 < s then e0 + 1440 else e0) :: others

def mergeStep (merged : List Segment) (next : Segment) : List Segment :=
  match merged with
  | [] => [next]
  | last :: before =>
    if next.1 ≤ last.2 then (last.1, max last.2 next.2) :: before
    else next :: last :: before

def mergeSegments (segments : List Segment) : List Segment :=
  ((segments.insertionSort segmentOrder).foldl mergeStep []).reverse

def compile (calendar : BusinessCalendar) : Result Compiled := do
  let cal ← checkShape intl calendar.toJson
  let days ← (List.range 7).mapM (perDay cal.windows)
  let byWeekday := days.map mergeSegments
  return ⟨cal.timezone, byWeekday, cal.holidays, byWeekday.all List.isEmpty⟩

end Droplet.BusinessTime
