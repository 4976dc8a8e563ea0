import Droplet.Lib.IntervalScan
import Droplet.BusinessTime.Calendar

/-! The two operations on business time (`services/support/business-time.ts`, second
half): the scan of a calendar's days, the length of a span and the instant a length
from a start falls on. -/

namespace Droplet.BusinessTime

open ZonedTime Gregorian IntervalScan

/-- Whole days since 1970-01-01 of a local calendar date. -/
def dayNumberOf (ymd : String) : Result ℤ := do
  let date ← parseYmd ymd
  return toDay date

/-- The date part of `Date#toISOString`, which writes a year outside 0 to 9999 with a
sign and six digits. -/
def isoDateText (date : Date) : List Char :=
  let year :=
    if 0 ≤ date.year ∧ date.year ≤ 9999 then Decimal.pad 4 date.year.natAbs
    else (if date.year < 0 then '-' else '+') :: Decimal.pad 6 date.year.natAbs
  year ++ '-' :: pad2 date.month ++ '-' :: pad2 date.day

/-- `toISOString().slice(0, 10)`; a day beyond the range of `Date` throws. -/
def ymdOfDay (n : ℤ) : Result String :=
  if n < -100000000 ∨ n > 100000000 then .error (.text "Invalid time value")
  else .ok (String.ofList ((isoDateText (ofDay n)).take 10))

/-- 0 = Sunday. -/
def weekdayOfDay (n : ℤ) : ℕ := ((n + 4) % 7).toNat

variable (intl : Intl)

/-- The instant `minute` minutes after local midnight of day `n`. -/
def instantAt (c : Compiled) (n : ℤ) (minute : ℕ) : Result ℤ :=
  if minute ≥ 1440 then do
    let ymd ← ymdOfDay (n + 1)
    zonedDateMinuteToUtc intl ymd (minute - 1440) c.tz
  else do
    let ymd ← ymdOfDay n
    zonedDateMinuteToUtc intl ymd minute c.tz

/-- The merged segments of the windows that start on day `n`. -/
def segmentsOf (c : Compiled) (n : ℤ) : List Segment :=
  (c.byWeekday[weekdayOfDay n]?).getD []

/-- The real extents of some segments. The gap rule can put an end before its start:
that window has no time. -/
def extentsOf (c : Compiled) (n : ℤ) : List Segment → Result (List Interval)
  | [] => .ok []
  | (s, e) :: rest => do
      let start ← instantAt intl c n s
      let stop ← instantAt intl c n e
      let others ← extentsOf c n rest
      return if positive : start < stop then ⟨start, stop, positive⟩ :: others else others

def startOrder (x y : Interval) : Prop := x.s ≤ y.s

instance : DecidableRel startOrder := fun _ _ => inferInstanceAs (Decidable (_ ≤ _))

/-- The business intervals of the windows that start on day `n`, in order. -/
def intervalsOf (c : Compiled) (n : ℤ) : Result (List Interval) := do
  let ymd ← ymdOfDay n
  if c.holidays.contains ymd then return []
  let out ← extentsOf intl c n (segmentsOf c n)
  return out.insertionSort startOrder

def scanDays (c : Compiled) : ℕ → ℤ → List (Result (List Interval))
  | 0, _ => []
  | days + 1, n => intervalsOf intl c n :: scanDays c days (n + 1)

def localDay (c : Compiled) (instant : ℤ) : Result ℤ := do
  let parts ← localPartsOf intl instant c.tz
  dayNumberOf parts.ymd

/-- From the local day before `fromMs` for at most `MAX_SCAN_DAYS` days. -/
def intervalsFrom (c : Compiled) (fromMs : ℤ) : Result (List (Result (List Interval))) := do
  let day ← localDay intl c fromMs
  return scanDays intl c (MAX_SCAN_DAYS + 1) (day - 1)

structure Spending where
  remaining : ℤ
  pos : ℤ

/-- The body of the loop of `addBusinessMs`. -/
def spend (state : Spending) (iv : Interval) : ℤ ⊕ Spending :=
  let lo := max iv.s state.pos
  if iv.e ≤ lo then .inr state
  else
    let available := iv.e - lo
    if state.remaining ≤ available then .inl (lo + state.remaining)
    else .inr ⟨state.remaining - available, iv.e⟩

structure Counting where
  total : ℤ
  pos : ℤ

/-- The body of the loop of `businessMsBetween`. -/
def count (upTo : ℤ) (state : Counting) (iv : Interval) : ℤ ⊕ Counting :=
  if iv.s ≥ upTo then .inl state.total
  else
    let lo := max iv.s state.pos
    let hi := min iv.e upTo
    let total := if hi > lo then state.total + (hi - lo) else state.total
    let pos := if iv.e > state.pos then iv.e else state.pos
    if pos ≥ upTo then .inl total else .inr ⟨total, pos⟩

/-- What a loop over the scan returns, or the text it ends with when it runs out. -/
def scanResult {σ : Type} (c : Compiled) (fromMs : ℤ) (body : σ → Interval → ℤ ⊕ σ) (state : σ)
    (exhausted : String) : Result ℤ := do
  let days ← intervalsFrom intl c fromMs
  match ← forOfChunks body days state with
  | .inl result => return result
  | .inr _ => throw (.text exhausted)

/-- The instant `ms` business milliseconds after `start`. Lengths are whole
milliseconds, which `Math.round` leaves alone. -/
def addBusinessMs (start ms : ℤ) (calendar : Option BusinessCalendar) : Result ℤ :=
  if ms < 0 then .error (.text ("not a non-negative length: " ++ toString ms))
  else if ms = 0 then .ok start
  else
    match calendar with
    | none => .ok (start + ms)
    | some cal => do
        let c ← compile intl cal
        if c.empty then throw (.text "this calendar has no business hours")
        scanResult intl c start spend ⟨ms, start⟩ "no business time to spend within 3660 days"

/-- Business milliseconds from `a` on to a later `b`. -/
def businessMsForward (a b : ℤ) (calendar : Option BusinessCalendar) : Result ℤ :=
  match calendar with
  | none => .ok (b - a)
  | some cal => do
      let c ← compile intl cal
      if c.empty then return 0
      scanResult intl c a (count b) ⟨0, a⟩ "span is longer than 3660 days"

/-- Business milliseconds in `[a, b)`: negative when `b` is before `a`. -/
def businessMsBetween (a b : ℤ) (calendar : Option BusinessCalendar) : Result ℤ :=
  if a = b then .ok 0
  else if b < a then do
    let back ← businessMsForward intl b a calendar
    return -back
  else businessMsForward intl a b calendar

end Droplet.BusinessTime
