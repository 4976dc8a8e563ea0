import Droplet.Lib.Decimal
import Droplet.Lib.Gregorian
import Droplet.Lib.Json

/-! Wall clocks in named zones (`lib/zoned-time.ts`).

The runtime's zone database is a parameter: a zone is its canonical name and its
UTC offset as a function of the instant. Instants are epoch milliseconds. -/

namespace Droplet.ZonedTime

open Gregorian

def DAY_MS : ℤ := 86400000
def MINUTE_MS : ℤ := 60000

/-- A `RangeError`: its text, and the value the text quotes through `JSON.stringify`
(`none` for `undefined`). -/
inductive RangeError where
  | text (message : String)
  | quoting (message : String) (value : Option (Json ℚ))

abbrev Result := Except RangeError

structure Zone where
  canonical : String
  offset : ℤ → ℤ

/-- The offset is a step function of the instant: its steps are at least three days
apart and at most three hours high. -/
structure StepZone (zone : Zone) : Prop where
  spaced : ∀ t u, zone.offset t ≠ zone.offset (t - 1) → zone.offset u ≠ zone.offset (u - 1) →
    t < u → 3 * DAY_MS ≤ u - t
  small : ∀ t, |zone.offset t - zone.offset (t - 1)| ≤ 10800000

def utf16Length (text : String) : ℕ :=
  (text.toList.map (fun c => if c.toNat > 0xFFFF then 2 else 1)).sum

/-- `Intl.DateTimeFormat`: the zone a name resolves to, or `none` where the constructor
throws. A canonical name resolves to its own zone and is an ordinary short name. -/
structure Intl where
  resolve : String → Option Zone
  resolve_canonical : ∀ tz zone, resolve tz = some zone → resolve zone.canonical = some zone
  canonical_short : ∀ tz zone, resolve tz = some zone → utf16Length zone.canonical ≤ 64

def Intl.only (zone : Zone) (short : utf16Length zone.canonical ≤ 64) : Intl where
  resolve tz := if tz = zone.canonical then some zone else none
  resolve_canonical := by
    intro tz found resolved
    split at resolved
    · cases resolved
      simp
    · cases resolved
  canonical_short := by
    intro tz found resolved
    split at resolved
    · cases resolved
      exact short
    · cases resolved

variable (intl : Intl)

def zoneFormatter (tz : String) : Result Zone :=
  match intl.resolve tz with
  | some zone => .ok zone
  | none => .error (.quoting "Invalid time zone specified" (some (.str tz)))

/-- `instant + offset` is the wall clock of the zone. -/
def timeZoneOffsetMs (zone : Zone) (utcInstantMs : ℤ) : ℤ := zone.offset utcInstantMs

/-- `Date.UTC`, which reads the years 0 to 99 as 1900 to 1999 and counts on from a month to those of the
next years. -/
def dateUTC (y : ℤ) (mo d h mi s : ℕ) : ℤ :=
  let year := if 0 ≤ y ∧ y ≤ 99 then 1900 + y else y
  let months : ℤ := mo - 1
  toDay ⟨year + months / 12, (months % 12).toNat + 1, d⟩ * DAY_MS + (h : ℤ) * 3600000 +
    (mi : ℤ) * MINUTE_MS + (s : ℤ) * 1000

/-- The instant a wall clock denotes in a zone: the first of the candidates that read
back, else the wall clock at the offset before the gap. -/
def zonedWallClockToUtc (y : ℤ) (mo d h mi s : ℕ) (zone : Zone) : ℤ :=
  let wallAsUtc := dateUTC y mo d h mi s
  let offsetBefore := timeZoneOffsetMs zone (wallAsUtc - DAY_MS)
  let offsetAfter := timeZoneOffsetMs zone (wallAsUtc + DAY_MS)
  let valid := ([offsetBefore, offsetAfter].eraseDups.map (fun off => wallAsUtc - off)).filter
    (fun instant => decide (timeZoneOffsetMs zone instant = wallAsUtc - instant))
  match valid.min? with
  | some first => first
  | none => wallAsUtc - offsetBefore

def startsWithLetter (text : String) : Bool :=
  match text.toList with
  | c :: _ => c.isAlpha
  | [] => false

def isValidIanaZone (tz : String) : Bool :=
  if utf16Length tz = 0 ∨ utf16Length tz > 64 then false
  else
    match intl.resolve tz with
    | none => false
    | some zone => startsWithLetter zone.canonical && startsWithLetter tz

def canonicalZone (tz : String) : Result String :=
  if isValidIanaZone intl tz then
    match intl.resolve tz with
    | some zone => .ok zone.canonical
    | none => .error (.quoting "not an IANA time zone" (some (.str tz)))
  else .error (.quoting "not an IANA time zone" (some (.str tz)))

structure LocalParts where
  ymd : String
  isoWeekday : ℕ
  minuteOfDay : ℕ

/-- `/^(\d{4})-(\d{2})-(\d{2})$/`. -/
def matchYmd (ymd : String) : Option (ℕ × ℕ × ℕ) :=
  match ymd.toList with
  | [y1, y2, y3, y4, '-', m1, m2, '-', d1, d2] =>
    if [y1, y2, y3, y4, m1, m2, d1, d2].all Char.isDigit then
      some (Decimal.value [y1, y2, y3, y4], Decimal.value [m1, m2], Decimal.value [d1, d2])
    else none
  | _ => none

/-- `String(n)` of an integer. -/
def integerText (n : ℤ) : List Char :=
  if n < 0 then '-' :: Nat.toDigits 10 n.natAbs else Nat.toDigits 10 n.natAbs

def pad2 (n : ℕ) : List Char := Decimal.pad 2 n

def dateText (date : Date) : String :=
  String.ofList (Decimal.padStart 4 (integerText date.year) ++ '-' :: pad2 date.month ++
    '-' :: pad2 date.day)

def ymdOfUtcDate (day : ℤ) : String := dateText (ofDay day)

def isCalendarYmd (ymd : String) : Bool :=
  match matchYmd ymd with
  | none => false
  | some (y, mo, d) =>
    if y < 1 ∨ mo < 1 ∨ mo > 12 ∨ d < 1 ∨ d > 31 then false
    else ymdOfUtcDate (toDay ⟨y, mo, d⟩) == ymd

def parseYmd (ymd : String) : Result Date :=
  match matchYmd ymd with
  | none => .error (.quoting "not a YYYY-MM-DD date" (some (.str ymd)))
  | some (y, mo, d) =>
    if isCalendarYmd ymd then .ok ⟨y, mo, d⟩
    else .error (.text ("not a calendar date: " ++ ymd))

def isoWeekdayOf (ymd : String) : Result ℕ := do
  let date ← parseYmd ymd
  let js := ((toDay date + 4) % 7).toNat
  return if js = 0 then 7 else js

def ymdAddDays (ymd : String) (n : ℤ) : Result String := do
  let date ← parseYmd ymd
  return ymdOfUtcDate (toDay date + n)

/-- `en-US` prints the year of the era. -/
def eraYear (year : ℤ) : ℤ := if year ≤ 0 then 1 - year else year

def localPartsOf (instant : ℤ) (tz : String) : Result LocalParts := do
  let zone ← zoneFormatter intl tz
  let wall := instant + timeZoneOffsetMs zone instant
  let date := ofDay (wall / DAY_MS)
  let ymd := dateText { date with year := eraYear date.year }
  let isoWeekday ← isoWeekdayOf ymd
  return ⟨ymd, isoWeekday, (wall % DAY_MS / MINUTE_MS).toNat⟩

def zonedDateMinuteToUtc (ymd : String) (minute : ℕ) (tz : String) : Result ℤ := do
  if minute > 1440 then
    throw (.text ("zonedDateMinuteToUtc: minute out of range: " ++ toString minute))
  let day ← if minute = 1440 then ymdAddDays ymd 1 else pure ymd
  let m := if minute = 1440 then 0 else minute
  let date ← parseYmd day
  match intl.resolve tz with
  | some zone =>
    return zonedWallClockToUtc date.year date.month date.day (m / 60) (m % 60) 0 zone
  | none => throw (.quoting "not a time zone the runtime resolves" (some (.str tz)))

end Droplet.ZonedTime
