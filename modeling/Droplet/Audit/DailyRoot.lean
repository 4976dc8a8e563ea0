import Droplet.Audit.Retention

/-! Daily roots over the activity chain (`services/audit-daily-root.service.ts`): the span of
rows a root covers, the signing of one day, and the nightly job with its catch-up. -/

namespace Droplet.Audit

open Gregorian Decimal ZonedTime IsoText

structure DailyRootContent where
  date : String
  firstRowId : String
  lastRowId : String
  prevRootHash : String
  rowCount : ℕ
  tailSignatureHash : String

def canonicalizeDailyRoot (content : DailyRootContent) : String :=
  String.ofList (Json.text (.obj [
    ("date", .str content.date),
    ("firstRowId", .str content.firstRowId),
    ("lastRowId", .str content.lastRowId),
    ("prevRootHash", .str content.prevRootHash),
    ("rowCount", .num (countText content.rowCount)),
    ("tailSignatureHash", .str content.tailSignatureHash)]))

structure DailyRoot where
  date : String
  firstRowId : ℤ
  lastRowId : ℤ
  rowCount : ℕ
  tailSignatureHash : String
  prevRootHash : String
  rootHash : String
  signature : String
  algorithm : String

/-- What the device key made of a payload, its signature in base64. -/
structure DeviceSignature where
  signature : String
  algorithm : String

/-- `signWithDeviceKey` on the text of the payload; `none` where it throws. -/
abbrev DailyRootSigner := String → Option DeviceSignature

inductive RootError where
  | error (message : String)
  /-- `toISOString` of an invalid date. -/
  | rangeError
  | typeError
  /-- An invalid date as the bound of a query. -/
  | query
  | device

def utcDateString (instant : ℤ) : Except RootError String :=
  match toISOString instant with
  | none => .error .rangeError
  | some iso => .ok (String.ofList (iso.toList.take 10))

/-- A year of a sign and six digits, and a month; there is no year minus zero. -/
def matchSignedMonth (date : String) : Option (ℤ × ℕ) :=
  match date.toList with
  | [sign, y1, y2, y3, y4, y5, y6, '-', m1, m2] =>
    if [y1, y2, y3, y4, y5, y6, m1, m2].all Char.isDigit then
      let year := value [y1, y2, y3, y4, y5, y6]
      if sign = '+' then some (year, value [m1, m2])
      else if sign = '-' ∧ year ≠ 0 then some (-year, value [m1, m2])
      else none
    else none
  | _ => none

/-- The day of a text of one of the shapes `utcDateString` writes. -/
def parsedDay (date : String) : Option ℤ :=
  match matchYmd date with
  | some (y, mo, d) =>
    if 1 ≤ mo ∧ mo ≤ 12 ∧ 1 ≤ d ∧ d ≤ 31 then some (toDay ⟨y, mo, d⟩) else none
  | none =>
    match matchSignedMonth date with
    | some (y, mo) => if 1 ≤ mo ∧ mo ≤ 12 then some (toDay ⟨y, mo, 1⟩) else none
    | none => none

/-- `Date.parse` of a date and `T00:00:00.000Z`; `none` is `NaN`. -/
def parseMidnight (date : String) : Option ℤ :=
  match parsedDay date with
  | some day => if |day * DAY_MS| ≤ MAX_TIME then some (day * DAY_MS) else none
  | none => none

def endOfUtcDay (date : String) : Option ℤ := (parseMidnight date).map (fun start => start + DAY_MS)

structure RootSpan where
  firstRowId : ℤ
  lastRowId : ℤ
  tailSignatureHash : String

variable {Key : Type} (digests : Digests Key)

def dailyRootHash (content : DailyRootContent) : String :=
  digests.hashSignature (canonicalizeDailyRoot content)

/-- The rows behind the previous root up to the tail, none of them on an empty day; all rows
up to the tail where there is no root yet, and `none` where there is no tail either. -/
def rootSpan (rows : List ActivityRow) (prevRoot : Option DailyRoot) (tail : Option ActivityRow) :
    Except RootError (Option RootSpan) :=
  match prevRoot with
  | some prev =>
    let empty : RootSpan := ⟨prev.lastRowId + 1, prev.lastRowId, prev.tailSignatureHash⟩
    match tail with
    | some row =>
      if prev.lastRowId + 1 ≤ row.id then
        .ok (some ⟨prev.lastRowId + 1, row.id, digests.hashSignature row.signature⟩)
      else .ok (some empty)
    | none => .ok (some empty)
  | none =>
    match tail with
    | none => .ok none
    | some row =>
      match (findPage rows none 1).head? with
      | none => .error .typeError
      | some head => .ok (some ⟨head.id, row.id, digests.hashSignature row.signature⟩)

def rootContent (rows : List ActivityRow) (prevRoot : Option DailyRoot) (date : String)
    (span : RootSpan) : DailyRootContent where
  date := date
  firstRowId := toString span.firstRowId
  lastRowId := toString span.lastRowId
  prevRootHash := (prevRoot.map DailyRoot.rootHash).getD ""
  rowCount :=
    if span.firstRowId ≤ span.lastRowId then
      (rows.filter (fun row => decide (span.firstRowId ≤ row.id ∧ row.id ≤ span.lastRowId))).length
    else 0
  tailSignatureHash := span.tailSignatureHash

def storedRoot (content : DailyRootContent) (span : RootSpan) (signed : DeviceSignature) :
    DailyRoot where
  date := content.date
  firstRowId := span.firstRowId
  lastRowId := span.lastRowId
  rowCount := content.rowCount
  tailSignatureHash := span.tailSignatureHash
  prevRootHash := content.prevRootHash
  rootHash := dailyRootHash digests content
  signature := signed.signature
  algorithm := signed.algorithm

structure SignOutcome where
  created : Bool
  date : String

/-- The roots it leaves and what it returns. Nothing is written where it throws. -/
def signDailyRootForDate (rows : List ActivityRow) (identity : DailyRootSigner)
    (roots : List DailyRoot) (date : String) : Except RootError (List DailyRoot × SignOutcome) :=
  match matchYmd date with
  | none => .error (.error ("invalid root date: " ++ date))
  | some _ =>
    match roots.find? (fun root => root.date == date) with
    | some _ => .ok (roots, ⟨false, date⟩)
    | none =>
      match endOfUtcDay date with
      | none => .error .query
      | some dayEnd =>
        let prevRoot := greatest DailyRoot.date roots
        let tail := tailRow (rows.filter (fun row => decide (row.content.atMs < dayEnd)))
        match rootSpan digests rows prevRoot tail with
        | .error failure => .error failure
        | .ok none => .ok (roots, ⟨false, date⟩)
        | .ok (some span) =>
          let content := rootContent rows prevRoot date span
          match identity (canonicalizeDailyRoot content) with
          | none => .error .device
          | some signed =>
            .ok (roots ++ [storedRoot digests content span signed], ⟨true, date⟩)

def MAX_CATCHUP_DAYS : ℕ := 60

/-- The loop over the days, with room for some more of them. The text of the day is made
before the room is asked for. -/
def datesFrom (yesterday : String) : ℕ → ℤ → Except RootError (List String)
  | 0, cursor => (utcDateString cursor).map (fun _ => [])
  | room + 1, cursor =>
    match utcDateString cursor with
    | .error failure => .error failure
    | .ok date =>
      if date ≤ yesterday then
        (datesFrom yesterday room (cursor + DAY_MS)).map (fun rest => date :: rest)
      else .ok []

/-- The day behind the newest root, or yesterday; `none` is an invalid date. -/
def firstCursor (roots : List DailyRoot) (yesterday : String) : Option ℤ :=
  match greatest DailyRoot.date roots with
  | some lastRoot => endOfUtcDay lastRoot.date
  | none => parseMidnight yesterday

def datesToSign (roots : List DailyRoot) (now : ℤ) : Except RootError (List String) :=
  match utcDateString (now - DAY_MS) with
  | .error failure => .error failure
  | .ok yesterday =>
    match firstCursor roots yesterday with
    | none => .error .rangeError
    | some cursor => datesFrom yesterday MAX_CATCHUP_DAYS cursor

structure JobOutcome where
  signed : List String
  skipped : ℕ

/-- The days one after the other. A day that throws ends the job; the roots before it stay. -/
def signDates (rows : List ActivityRow) (identity : DailyRootSigner) :
    List String → List DailyRoot → JobOutcome → List DailyRoot × Except RootError JobOutcome
  | [], roots, done => (roots, .ok done)
  | date :: rest, roots, done =>
    match signDailyRootForDate digests rows identity roots date with
    | .error failure => (roots, .error failure)
    | .ok (next, outcome) =>
      signDates rows identity rest next
        (if outcome.created then { done with signed := done.signed ++ [date] }
        else { done with skipped := done.skipped + 1 })

def runDailyRootJob (rows : List ActivityRow) (identity : DailyRootSigner) (roots : List DailyRoot)
    (now : ℤ) : List DailyRoot × Except RootError JobOutcome :=
  match datesToSign roots now with
  | .error failure => (roots, .error failure)
  | .ok dates => signDates digests rows identity dates roots ⟨[], 0⟩

/-- The ledger and the table of roots. -/
structure Archive (Key : Type) where
  ledger : Ledger Key
  roots : List DailyRoot

/-- Appends, purges and rotations of the ledger, and runs of the job, each with a device
that may fail on any payload. -/
inductive ArchiveEvent (Key : Type) where
  | ledger (event : Event Key)
  | job (now : ℤ) (identity : DailyRootSigner)

def performArchive (archive : Archive Key) : ArchiveEvent Key → Option (Archive Key)
  | .ledger event =>
    (perform digests archive.ledger event).map (fun ledger => { archive with ledger := ledger })
  | .job now identity =>
    some { archive with
      roots := (runDailyRootJob digests archive.ledger.rows identity archive.roots now).1 }

def runArchive (archive : Archive Key) : List (ArchiveEvent Key) → Option (Archive Key)
  | [] => some archive
  | event :: rest => (performArchive digests archive event).bind (fun next => runArchive next rest)

end Droplet.Audit
