import Droplet.BusinessTime.Operations

/-! The pure SLA clock (`services/support/sla-engine.ts`): what a ticket's terms say at an
instant. Terms carry their calendar. Instants that the source stores as ISO text are
instants here. -/

namespace Droplet.Sla

open ZonedTime BusinessTime

inductive SlaMetric where
  | firstResponse
  | nextResponse
  | resolution
  deriving DecidableEq

inductive SlaStatus where
  | NONE
  | ON_TRACK
  | AT_RISK
  | BREACHED
  | MET
  | PAUSED
  deriving DecidableEq

inductive SlaClock where
  | RUNNING
  | PAUSED
  | STOPPED
  deriving DecidableEq

inductive Priority where
  | urgent
  | high
  | medium
  | low
  | none
  deriving DecidableEq

/-- The two statuses that are announced. -/
inductive SlaAlert where
  | AT_RISK
  | BREACHED
  deriving DecidableEq

structure SlaTerms where
  priority : Option Priority
  firstResponseMins : Option ℕ
  nextResponseMins : Option ℕ
  resolutionMins : Option ℕ
  atRiskPercent : ℕ
  calendar : Option BusinessCalendar
  nextResponseStartedAt : Option ℤ
  nextResponsePausedMs : ℤ
  notified : List SlaAlert
  deriving DecidableEq

structure SlaClockInput where
  createdAt : ℤ
  now : ℤ
  clock : SlaClock
  firstRespondedAt : Option ℤ
  solvedAt : Option ℤ
  pausedMs : ℤ
  pausedAt : Option ℤ
  terms : SlaTerms
  previousStatus : SlaStatus

structure SlaClockResult where
  firstResponseDueAt : Option ℤ
  nextResponseDueAt : Option ℤ
  resolutionDueAt : Option ℤ
  slaPausedMs : ℤ
  slaPausedAt : Option ℤ
  slaStatus : SlaStatus
  metric : Option SlaMetric
  remainingBusinessMs : Option ℤ
  deriving DecidableEq

def MAX_SAFE_INTEGER : ℤ := 9007199254740991

def ranks : SlaStatus → ℤ
  | .NONE => -1
  | .ON_TRACK => 0
  | .AT_RISK => 1
  | .BREACHED => 2
  | .MET => 0
  | .PAUSED => 0

variable (intl : Intl)

/-- `z.number().int().min(1).max(525600).nullable()`. -/
def minutesField (name : String) (value : Option ℕ) : Result (Option ℕ) :=
  match value with
  | none => .ok none
  | some mins => if 1 ≤ mins ∧ mins ≤ 525600 then .ok (some mins) else .error (.text name)

/-- `z.string().datetime()` has a year of four digits. -/
def datetimeField (name : String) (value : Option ℤ) : Result (Option ℤ) :=
  match value with
  | none => .ok none
  | some t =>
    if -62167219200000 ≤ t ∧ t < 253402300800000 then .ok (some t) else .error (.text name)

def parseSlaTerms (terms : SlaTerms) : Result SlaTerms := do
  let firstResponseMins ← minutesField "firstResponseMins" terms.firstResponseMins
  let nextResponseMins ← minutesField "nextResponseMins" terms.nextResponseMins
  let resolutionMins ← minutesField "resolutionMins" terms.resolutionMins
  if ¬ (1 ≤ terms.atRiskPercent ∧ terms.atRiskPercent ≤ 99) then throw (.text "atRiskPercent")
  let nextResponseStartedAt ← datetimeField "nextResponseStartedAt" terms.nextResponseStartedAt
  if ¬ (0 ≤ terms.nextResponsePausedMs ∧ terms.nextResponsePausedMs ≤ MAX_SAFE_INTEGER) then
    throw (.text "nextResponsePausedMs")
  if terms.notified.length > 2 then throw (.text "notified")
  let calendar ← match terms.calendar with
    | none => pure none
    | some cal => do
        let saved ← validateCalendarForSave intl cal.toJson
        pure (some saved)
  return { terms with
    firstResponseMins := firstResponseMins
    nextResponseMins := nextResponseMins
    resolutionMins := resolutionMins
    nextResponseStartedAt := nextResponseStartedAt
    calendar := calendar }

/-- What the evaluation knows of the pauses before it looks at a target. -/
structure Pauses where
  pausedMs : ℤ
  pausedAt : Option ℤ
  effectiveAt : ℤ
  deadlinePaused : ℤ

/-- Business time of an open pause up to its end; a pause in the future earns nothing. -/
def accruedPause (pausedAt : Option ℤ) (pauseEnd : ℤ) (calendar : Option BusinessCalendar) :
    Result ℤ :=
  match pausedAt with
  | none => .ok 0
  | some since => do
      let length ← businessMsBetween intl since pauseEnd calendar
      return max 0 length

def pauses (input : SlaClockInput) : Result Pauses := do
  let pauseEnd := if input.clock = .STOPPED then input.solvedAt.getD input.now else input.now
  let accrued ← accruedPause intl input.pausedAt pauseEnd input.terms.calendar
  let pausedMs := input.pausedMs + (if input.clock = .PAUSED then 0 else accrued)
  -- While paused, the remaining working time is measured at the pause instant.
  return {
    pausedMs := pausedMs
    pausedAt := if input.clock = .PAUSED then some (input.pausedAt.getD input.now) else none
    effectiveAt :=
      match input.clock with
      | .PAUSED => input.pausedAt.getD input.now
      | .STOPPED => input.solvedAt.getD input.now
      | .RUNNING => input.now
    deadlinePaused := pausedMs + (if input.clock = .PAUSED then accrued else 0) }

structure Target where
  name : SlaMetric
  start : ℤ
  mins : ℕ
  paused : ℤ
  active : Bool

def targets (input : SlaClockInput) (p : Pauses) : List Target :=
  [⟨.firstResponse, input.createdAt, input.terms.firstResponseMins.getD 0, p.deadlinePaused,
      input.firstRespondedAt.isNone⟩,
    ⟨.nextResponse, input.terms.nextResponseStartedAt.getD input.createdAt,
      input.terms.nextResponseMins.getD 0,
      max 0 (p.deadlinePaused - input.terms.nextResponsePausedMs),
      input.terms.nextResponseStartedAt.isSome⟩,
    ⟨.resolution, input.createdAt, input.terms.resolutionMins.getD 0, p.deadlinePaused,
      input.solvedAt.isNone⟩]

def completionOf (input : SlaClockInput) : SlaMetric → Option ℤ
  | .firstResponse => input.firstRespondedAt
  | .nextResponse => none
  | .resolution => input.solvedAt

/-- The closed pauses a target does not answer for. -/
def creditOf (input : SlaClockInput) (p : Pauses) (name : SlaMetric) : ℤ :=
  max 0 (p.pausedMs - (if name = .nextResponse then input.terms.nextResponsePausedMs else 0))

/-- What one pass of the loop over the targets reads off. -/
structure Reading where
  name : SlaMetric
  mins : ℕ
  active : Bool
  due : ℤ
  elapsed : ℤ
  candidate : SlaStatus
  left : Option ℤ

def readTarget (input : SlaClockInput) (p : Pauses) (target : Target) : Result (Option Reading) :=
  if target.mins = 0 then .ok none
  -- Completed metrics are judged at their actual completion.
  else if target.active = false ∧ completionOf input target.name = none then .ok none
  else do
    let length : ℤ := target.mins * 60000
    let due ← addBusinessMs intl target.start (length + target.paused) input.terms.calendar
    let spent ← businessMsBetween intl target.start
      ((completionOf input target.name).getD p.effectiveAt) input.terms.calendar
    let elapsed := max 0 (spent - creditOf input p target.name)
    let candidate : SlaStatus :=
      if elapsed ≥ length then .BREACHED
      else if target.active = true ∧ elapsed * 100 ≥ length * input.terms.atRiskPercent then .AT_RISK
      else .ON_TRACK
    let left ← if target.active then do
        let running ← businessMsBetween intl target.start p.effectiveAt input.terms.calendar
        pure (some (max 0 (length - max 0 (running - creditOf input p target.name))))
      else pure none
    return some ⟨target.name, target.mins, target.active, due, elapsed, candidate, left⟩

def readTargets (input : SlaClockInput) (p : Pauses) : List Target → Result (List Reading)
  | [] => .ok []
  | target :: rest => do
      let reading ← readTarget intl input p target
      let others ← readTargets input p rest
      return reading.toList ++ others

structure Judgement where
  status : SlaStatus
  metric : Option SlaMetric
  remaining : Option ℤ

def leastLeft (remaining left : Option ℤ) : Option ℤ :=
  match remaining, left with
  | none, left => left
  | some r, none => some r
  | some r, some l => some (min r l)

/-- The worst candidate, the first metric that has it, and the least time left. -/
def judge (so_far : Judgement) (reading : Reading) : Judgement :=
  let worse := ranks reading.candidate > ranks so_far.status
  { status := if worse then reading.candidate else so_far.status
    metric := if worse then some reading.name else so_far.metric
    remaining := leastLeft so_far.remaining reading.left }

def dueOf (readings : List Reading) (name : SlaMetric) : Option ℤ :=
  (readings.find? (fun r => r.active && decide (r.name = name))).map Reading.due

/-- A missed promise stays missed when it is answered or solved later. -/
def finalStatus (input : SlaClockInput) (status : SlaStatus) : SlaStatus :=
  if input.previousStatus = .BREACHED then .BREACHED
  else if status ≠ .BREACHED ∧ input.clock = .PAUSED then .PAUSED
  else if status ≠ .BREACHED ∧ input.clock = .STOPPED then .MET
  else status

def conclude (input : SlaClockInput) (p : Pauses) (readings : List Reading) : SlaClockResult :=
  let judged := readings.foldl judge ⟨.ON_TRACK, none, none⟩
  { firstResponseDueAt := dueOf readings .firstResponse
    nextResponseDueAt := dueOf readings .nextResponse
    resolutionDueAt := dueOf readings .resolution
    slaPausedMs := p.pausedMs
    slaPausedAt := p.pausedAt
    slaStatus := finalStatus input judged.status
    metric := judged.metric
    remainingBusinessMs := judged.remaining }

def evaluateSla (input : SlaClockInput) : Result SlaClockResult := do
  if input.pausedMs < 0 ∨ input.pausedMs > MAX_SAFE_INTEGER then throw (.text "invalid_sla_clock")
  let p ← pauses intl input
  let readings ← readTargets intl input p (targets input p)
  return conclude input p readings

end Droplet.Sla
