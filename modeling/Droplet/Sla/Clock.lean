import Droplet.Sla.Engine

/-! The ticket clock (`services/support/sla-clock.service.ts`): one ticket's row, the calls
that bring its SLA up to date, and the writers that make them. Each call is one
transaction, so a call that throws leaves the row as it was. Failures of the database
or of the directory are outside the model. -/

namespace Droplet.Sla

open ZonedTime BusinessTime

structure TargetMins where
  firstResponseMins : Option ℕ
  nextResponseMins : Option ℕ
  resolutionMins : Option ℕ

inductive EscalationAction where
  | raise_priority
  | reassign (userId : String)
  | notify (userIds : List String)

/-- A rule for one status; `metric = none` is `"any"`. -/
structure EscalationRule where
  on : SlaAlert
  metric : Option SlaMetric
  actions : List EscalationAction

structure PolicyRow where
  enabled : Bool
  calendarId : Option String
  targets : Priority → Option TargetMins
  atRiskPercent : ℕ
  escalation : List EscalationRule
  calendar : Option BusinessCalendar

def minutesOk : Option ℕ → Bool
  | none => true
  | some mins => decide (1 ≤ mins ∧ mins ≤ 525600)

def idOk (id : String) : Bool := decide (1 ≤ utf16Length id ∧ utf16Length id ≤ 64)

def targetOk : Option TargetMins → Bool
  | none => true
  | some target =>
    minutesOk target.firstResponseMins && minutesOk target.nextResponseMins &&
      minutesOk target.resolutionMins && (target.firstResponseMins.isSome ||
        target.nextResponseMins.isSome || target.resolutionMins.isSome)

def EscalationAction.isReassign : EscalationAction → Bool
  | .reassign _ => true
  | _ => false

def EscalationAction.ok : EscalationAction → Bool
  | .raise_priority => true
  | .reassign userId => idOk userId
  | .notify userIds => decide (1 ≤ userIds.length ∧ userIds.length ≤ 50) && userIds.all idOk

def EscalationRule.ok (rule : EscalationRule) : Bool :=
  decide (1 ≤ rule.actions.length ∧ rule.actions.length ≤ 10) &&
    rule.actions.all EscalationAction.ok &&
    decide ((rule.actions.filter EscalationAction.isReassign).length ≤ 1)

def policySchema (row : PolicyRow) : Result PolicyRow := do
  if ¬ (row.calendarId.all idOk) then throw (.text "calendarId")
  if ¬ ([Priority.urgent, .high, .medium, .low, .none].all (fun p => targetOk (row.targets p))) then
    throw (.text "targets")
  if ¬ (1 ≤ row.atRiskPercent ∧ row.atRiskPercent ≤ 99) then throw (.text "atRiskPercent")
  if ¬ (row.escalation.length ≤ 20 ∧ row.escalation.all EscalationRule.ok) then
    throw (.text "escalation")
  return row

/-- A policy counts only while it is enabled. -/
def policyOf (policyRow : Option PolicyRow) : Result (Option PolicyRow) :=
  match policyRow with
  | none => .ok none
  | some row =>
    if row.enabled then do
      let policy ← policySchema row
      return some policy
    else .ok none

inductive Activity where
  | sla_at_risk (field : Option SlaMetric) (oldValue : SlaStatus)
  | sla_breached (field : Option SlaMetric) (oldValue : SlaStatus)
  | priority_updated (oldValue newValue : Priority)
  | assigned (newValue : String)
  deriving DecidableEq

/-- A work item with its ticket; `live` is that the row is found: on a service desk and
not archived. -/
structure Ticket where
  live : Bool
  priority : Priority
  createdAt : ℤ
  clock : SlaClock
  terminal : Bool
  assignees : List String
  firstRespondedAt : Option ℤ
  solvedAt : Option ℤ
  slaStatus : SlaStatus
  firstResponseDueAt : Option ℤ
  nextResponseDueAt : Option ℤ
  resolutionDueAt : Option ℤ
  slaPausedMs : ℤ
  slaPausedAt : Option ℤ
  slaTargets : Option SlaTerms
  activities : List Activity
  deriving DecidableEq

inductive SlaEvent where
  | tick
  | create
  | priority
  | escalation_priority
  | state
  | reply
  | requester
  deriving DecidableEq

/-- What a call finds around the ticket: the time, the desk's policy as it stands, and who
passes `assertAgents`. -/
structure Occasion where
  now : ℤ
  policyRow : Option PolicyRow
  agents : String → Bool

variable (intl : Intl)

def retargets (event : SlaEvent) (priority : Priority) (terms : Option SlaTerms) : Bool :=
  decide ((event = .create ∧ terms = none) ∨
    ((event = .priority ∨ event = .escalation_priority) ∧
      terms.bind SlaTerms.priority ≠ some priority))

/-- The notices a change of terms carries over. A manual retarget starts a new risk
window; an escalation belongs to the transition already announced. -/
def carriedNotices (event : SlaEvent) (terms : Option SlaTerms) : List SlaAlert :=
  match terms with
  | none => []
  | some terms =>
    if event = .escalation_priority then terms.notified
    else terms.notified.filter (fun alert => decide (alert = .BREACHED))

/-- The calendar of terms computed afresh: the paused time was measured in the old one. -/
def keptCalendar (policy : PolicyRow) (terms : Option SlaTerms) :
    Result (Option BusinessCalendar) :=
  match terms, policy.calendar with
  | some terms, _ => .ok terms.calendar
  | none, none => .ok none
  | none, some cal => do
      let saved ← validateCalendarForSave intl cal.toJson
      return some saved

def termsFor (event : SlaEvent) (priority : Priority) (policy : Option PolicyRow)
    (terms : Option SlaTerms) : Result (Option SlaTerms) :=
  if retargets event priority terms then
    match policy with
    | none => .ok none
    | some policy =>
      match policy.targets priority with
      | none => .ok none
      | some target => do
          let calendar ← keptCalendar intl policy terms
          return some {
            priority := some priority
            firstResponseMins := target.firstResponseMins
            nextResponseMins := target.nextResponseMins
            resolutionMins := target.resolutionMins
            atRiskPercent := policy.atRiskPercent
            calendar := calendar
            nextResponseStartedAt := terms.bind SlaTerms.nextResponseStartedAt
            nextResponsePausedMs := (terms.map SlaTerms.nextResponsePausedMs).getD 0
            notified := carriedNotices event terms }
  else .ok terms

def clockInput (ticket : Ticket) (now : ℤ) (terms : SlaTerms) : SlaClockInput where
  createdAt := ticket.createdAt
  now := now
  clock := ticket.clock
  firstRespondedAt := ticket.firstRespondedAt
  solvedAt := ticket.solvedAt
  pausedMs := ticket.slaPausedMs
  pausedAt := ticket.slaPausedAt
  terms := terms
  previousStatus := ticket.slaStatus

/-- A reply ends the next-response cycle; a message that nobody has answered yet starts
one, with the pauses up to it taken out. -/
def heard (event : SlaEvent) (ticket : Ticket) (now : ℤ) (terms : SlaTerms) : Result SlaTerms :=
  if event = .reply then .ok { terms with nextResponseStartedAt := none }
  else if event = .requester ∧ ticket.firstRespondedAt ≠ none ∧
      terms.nextResponseStartedAt = none then do
    let running ← accruedPause intl ticket.slaPausedAt now terms.calendar
    return { terms with
      nextResponseStartedAt := some now
      nextResponsePausedMs := ticket.slaPausedMs + running }
  else .ok terms

def alertOf : SlaStatus → Option SlaAlert
  | .AT_RISK => some .AT_RISK
  | .BREACHED => some .BREACHED
  | _ => none

/-- An on-time reply makes room for the next cycle's own warning. -/
def afterReply (event : SlaEvent) (status : SlaStatus) (notified : List SlaAlert) :
    List SlaAlert :=
  if event = .reply ∧ status = .ON_TRACK then
    notified.filter (fun alert => decide (alert = .BREACHED))
  else notified

def transitionOf (status : SlaStatus) (notified : List SlaAlert) : Option SlaAlert :=
  match alertOf status with
  | some alert => if alert ∈ notified then none else some alert
  | none => none

def raisedPriority : Priority → Priority
  | .none => .low
  | .low => .medium
  | .medium => .high
  | .high => .urgent
  | .urgent => .urgent

structure Escalation where
  ticket : Ticket
  raised : Bool

/-- One action. `assignees` are those of the row as the call read it. -/
def act (occasion : Occasion) (assignees : List String) (state : Escalation)
    (action : EscalationAction) : Escalation :=
  match action with
  | .raise_priority =>
    let priority := raisedPriority state.ticket.priority
    if priority = state.ticket.priority then state
    else
      { raised := true
        ticket := { state.ticket with
          priority := priority
          activities := state.ticket.activities ++
            [.priority_updated state.ticket.priority priority] } }
  | .reassign userId =>
    if occasion.agents userId && !assignees.contains userId then
      { state with ticket := { state.ticket with
          assignees := [userId]
          activities := state.ticket.activities ++ [.assigned userId] } }
    else state
  | .notify _ => state

def EscalationRule.applies (rule : EscalationRule) (alert : SlaAlert) (metric : Option SlaMetric) :
    Bool :=
  decide (rule.on = alert) && (rule.metric.isNone || decide (rule.metric = metric))

def actionsFor (policy : Option PolicyRow) (alert : SlaAlert) (metric : Option SlaMetric) :
    List EscalationAction :=
  match policy with
  | none => []
  | some policy =>
    (policy.escalation.filter (fun rule => rule.applies alert metric)).flatMap EscalationRule.actions

def announcement (alert : SlaAlert) (metric : Option SlaMetric) (old : SlaStatus) : Activity :=
  match alert with
  | .AT_RISK => .sla_at_risk metric old
  | .BREACHED => .sla_breached metric old

def withoutSla (ticket : Ticket) : Ticket :=
  { ticket with
    slaTargets := none
    slaStatus := .NONE
    firstResponseDueAt := none
    nextResponseDueAt := none
    resolutionDueAt := none }

/-- The row with an evaluation written to it. -/
def withResult (ticket : Ticket) (terms : SlaTerms) (result : SlaClockResult) : Ticket :=
  { ticket with
    firstResponseDueAt := result.firstResponseDueAt
    nextResponseDueAt := result.nextResponseDueAt
    resolutionDueAt := result.resolutionDueAt
    slaPausedMs := result.slaPausedMs
    slaPausedAt := result.slaPausedAt
    slaStatus := result.slaStatus
    slaTargets := some terms }

/-- A breach seen before the reply is not forgotten by it. -/
def withBefore (before : Option SlaClockResult) (result : SlaClockResult) : SlaClockResult :=
  match before with
  | some earlier =>
    if earlier.slaStatus = .BREACHED then
      { result with slaStatus := .BREACHED, metric := earlier.metric }
    else result
  | none => result

/-- What is written once the clock has been evaluated: the row, and with a new alert its
announcement and the policy's actions. -/
def settle (occasion : Occasion) (event : SlaEvent) (policy : Option PolicyRow) (ticket : Ticket)
    (terms : SlaTerms) (result : SlaClockResult) : Escalation :=
  let notified := afterReply event result.slaStatus terms.notified
  match transitionOf result.slaStatus notified with
  | none => ⟨withResult ticket { terms with notified := notified } result, false⟩
  | some alert =>
    let written := withResult ticket { terms with notified := notified ++ [alert] } result
    let announced := { written with
      activities := written.activities ++ [announcement alert result.metric ticket.slaStatus] }
    (actionsFor policy alert result.metric).foldl (act occasion ticket.assignees) ⟨announced, false⟩

def storedTerms (ticket : Ticket) : Result (Option SlaTerms) :=
  match ticket.slaTargets with
  | none => .ok none
  | some terms => do
      let parsed ← parseSlaTerms intl terms
      return some parsed

def beforeReply (event : SlaEvent) (ticket : Ticket) (now : ℤ) (terms : SlaTerms) :
    Result (Option SlaClockResult) :=
  if event = .reply then do
    let result ← evaluateSla intl (clockInput ticket now terms)
    return some result
  else .ok none

/-- One call without the call it makes to itself after it has raised the priority. -/
def syncPass (occasion : Occasion) (event : SlaEvent) (ticket : Ticket) : Result Escalation :=
  if ticket.live = false then .ok ⟨ticket, false⟩
  else do
    let policy ← policyOf occasion.policyRow
    let stored ← storedTerms intl ticket
    match ← termsFor intl event ticket.priority policy stored with
    | none => return ⟨withoutSla ticket, false⟩
    | some terms =>
      let before ← beforeReply intl event ticket occasion.now terms
      let terms ← heard intl event ticket occasion.now terms
      let result ← evaluateSla intl (clockInput ticket occasion.now terms)
      return settle occasion event policy ticket terms (withBefore before result)

/-- With `fuel` calls to itself at most. -/
def syncWithin (occasion : Occasion) : ℕ → SlaEvent → Ticket → Result Ticket
  | 0, _, _ => .error (.text "out of fuel")
  | fuel + 1, event, ticket => do
      let state ← syncPass intl occasion event ticket
      if state.raised then syncWithin occasion fuel .escalation_priority state.ticket
      else return state.ticket

/-- A call calls itself only after raising the priority, which goes up at most four times. -/
def syncTicketSla (occasion : Occasion) (event : SlaEvent) (ticket : Ticket) : Result Ticket :=
  syncWithin intl occasion 5 event ticket

/-- What a writer changes in the row before it calls, in the same transaction. -/
inductive Change where
  | create
  | tick
  | state (clock : SlaClock) (terminal : Bool)
  | reply
  | requester
  | priority (level : Priority)

def Change.event : Change → SlaEvent
  | .create => .create
  | .tick => .tick
  | .state _ _ => .state
  | .reply => .reply
  | .requester => .requester
  | .priority _ => .priority

/-- Entering a completed group stamps `solvedAt`, leaving one clears it; the first public
reply stamps `firstRespondedAt`. -/
def Change.apply (change : Change) (now : ℤ) (ticket : Ticket) : Ticket :=
  match change with
  | .state clock terminal =>
    { ticket with
      clock := clock
      terminal := terminal
      solvedAt :=
        if ticket.terminal = false ∧ terminal = true then some now
        else if ticket.terminal = true ∧ terminal = false then none
        else ticket.solvedAt }
  | .reply => { ticket with firstRespondedAt := ticket.firstRespondedAt.or (some now) }
  | .priority level => { ticket with priority := level }
  | _ => ticket

structure Call where
  change : Change
  occasion : Occasion

def perform (call : Call) (ticket : Ticket) : Result Ticket :=
  syncTicketSla intl call.occasion call.change.event (call.change.apply call.occasion.now ticket)

/-- A call that throws is rolled back. -/
def commit (ticket : Ticket) (call : Call) : Ticket :=
  match perform intl call ticket with
  | .ok next => next
  | .error _ => ticket

def run (ticket : Ticket) (calls : List Call) : Ticket := calls.foldl (commit intl) ticket

def newTicket (createdAt : ℤ) (priority : Priority) (clock : SlaClock) (terminal : Bool)
    (assignees : List String) : Ticket where
  live := true
  priority := priority
  createdAt := createdAt
  clock := clock
  terminal := terminal
  assignees := assignees
  firstRespondedAt := none
  solvedAt := if terminal then some createdAt else none
  slaStatus := .NONE
  firstResponseDueAt := none
  nextResponseDueAt := none
  resolutionDueAt := none
  slaPausedMs := 0
  slaPausedAt := none
  slaTargets := none
  activities := []

end Droplet.Sla
