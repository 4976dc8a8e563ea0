import Droplet.BusinessTime.Saved
import Droplet.Sla.Clock

/-! What one call can do to a ticket, said once: the ways a pass ends, what it leaves
alone, and that a call goes through as many passes as it raises the priority. -/

namespace Droplet.Sla

open ZonedTime BusinessTime Fallible

variable (intl : Intl)

/-- The ways a pass ends: no such row, no SLA for it, or an evaluation. -/
inductive Passes (occasion : Occasion) (event : SlaEvent) (ticket : Ticket) : Escalation → Prop
  | absent (gone : ticket.live = false) : Passes occasion event ticket ⟨ticket, false⟩
  | lapsed {policy : Option PolicyRow} {stored : Option SlaTerms} (live : ticket.live = true)
      (policyOk : policyOf occasion.policyRow = .ok policy)
      (storedOk : storedTerms intl ticket = .ok stored)
      (none : termsFor intl event ticket.priority policy stored = .ok none) :
      Passes occasion event ticket ⟨withoutSla ticket, false⟩
  | evaluated {policy : Option PolicyRow} {stored : Option SlaTerms} {terms asked : SlaTerms}
      {before : Option SlaClockResult} {result : SlaClockResult} (live : ticket.live = true)
      (policyOk : policyOf occasion.policyRow = .ok policy)
      (storedOk : storedTerms intl ticket = .ok stored)
      (termsOk : termsFor intl event ticket.priority policy stored = .ok (some terms))
      (beforeOk : beforeReply intl event ticket occasion.now terms = .ok before)
      (heardOk : heard intl event ticket occasion.now terms = .ok asked)
      (resultOk : evaluateSla intl (clockInput ticket occasion.now asked) = .ok result) :
      Passes occasion event ticket
        (settle occasion event policy ticket asked (withBefore before result))

variable (occasion : Occasion)

theorem syncPass_ok_iff (event : SlaEvent) (ticket : Ticket) (state : Escalation) :
    syncPass intl occasion event ticket = .ok state ↔ Passes intl occasion event ticket state := by
  cases live : ticket.live with
  | false =>
    simp only [syncPass, live, if_true, Except.ok.injEq]
    constructor
    · intro same
      exact same ▸ .absent live
    · intro passes
      cases passes <;> simp_all
  | true =>
    simp only [syncPass, live, Bool.true_eq_false, if_false, bind_ok_iff]
    constructor
    · intro returns
      obtain ⟨policy, policyOk, stored, storedOk, terms, termsOk, rest⟩ := returns
      cases terms with
      | none =>
        rw [pure_ok_iff] at rest
        exact rest ▸ .lapsed live policyOk storedOk termsOk
      | some terms =>
        simp only [bind_ok_iff, pure_ok_iff] at rest
        obtain ⟨before, beforeOk, asked, heardOk, result, resultOk, rfl⟩ := rest
        exact .evaluated live policyOk storedOk termsOk beforeOk heardOk resultOk
    · intro passes
      cases passes with
      | absent gone => simp [gone] at live
      | lapsed _ policyOk storedOk none =>
        exact ⟨_, policyOk, _, storedOk, _, none, rfl⟩
      | evaluated _ policyOk storedOk termsOk beforeOk heardOk resultOk =>
        refine ⟨_, policyOk, _, storedOk, _, termsOk, ?_⟩
        simp only [bind_ok_iff, pure_ok_iff]
        exact ⟨_, beforeOk, _, heardOk, _, resultOk, rfl⟩

/-- Equal up to what an escalation writes. -/
structure SameButActions (a b : Ticket) : Prop where
  live : a.live = b.live
  createdAt : a.createdAt = b.createdAt
  clock : a.clock = b.clock
  terminal : a.terminal = b.terminal
  firstRespondedAt : a.firstRespondedAt = b.firstRespondedAt
  solvedAt : a.solvedAt = b.solvedAt
  slaStatus : a.slaStatus = b.slaStatus
  firstResponseDueAt : a.firstResponseDueAt = b.firstResponseDueAt
  nextResponseDueAt : a.nextResponseDueAt = b.nextResponseDueAt
  resolutionDueAt : a.resolutionDueAt = b.resolutionDueAt
  slaPausedMs : a.slaPausedMs = b.slaPausedMs
  slaPausedAt : a.slaPausedAt = b.slaPausedAt
  slaTargets : a.slaTargets = b.slaTargets

theorem SameButActions.refl (a : Ticket) : SameButActions a a := by
  constructor <;> rfl

theorem SameButActions.trans {a b c : Ticket} (first : SameButActions a b)
    (second : SameButActions b c) : SameButActions a c where
  live := first.live.trans second.live
  createdAt := first.createdAt.trans second.createdAt
  clock := first.clock.trans second.clock
  terminal := first.terminal.trans second.terminal
  firstRespondedAt := first.firstRespondedAt.trans second.firstRespondedAt
  solvedAt := first.solvedAt.trans second.solvedAt
  slaStatus := first.slaStatus.trans second.slaStatus
  firstResponseDueAt := first.firstResponseDueAt.trans second.firstResponseDueAt
  nextResponseDueAt := first.nextResponseDueAt.trans second.nextResponseDueAt
  resolutionDueAt := first.resolutionDueAt.trans second.resolutionDueAt
  slaPausedMs := first.slaPausedMs.trans second.slaPausedMs
  slaPausedAt := first.slaPausedAt.trans second.slaPausedAt
  slaTargets := first.slaTargets.trans second.slaTargets

variable (assignees : List String)

theorem act_frame (state : Escalation) (action : EscalationAction) :
    SameButActions (act occasion assignees state action).ticket state.ticket := by
  cases action with
  | raise_priority | reassign =>
    simp only [act]
    split <;> constructor <;> rfl
  | notify userIds => exact .refl _

theorem actions_frame (actions : List EscalationAction) (state : Escalation) :
    SameButActions (actions.foldl (act occasion assignees) state).ticket state.ticket := by
  induction actions generalizing state with
  | nil => exact .refl _
  | cons action rest ih => exact (ih _).trans (act_frame occasion assignees state action)

/-- The notices after a pass: those kept over a reply, and the new one. -/
def noticesAfter (event : SlaEvent) (status : SlaStatus) (notified : List SlaAlert) :
    List SlaAlert :=
  afterReply event status notified ++
    (transitionOf status (afterReply event status notified)).toList

theorem settle_frame (event : SlaEvent) (policy : Option PolicyRow) (ticket : Ticket)
    (terms : SlaTerms) (result : SlaClockResult) :
    SameButActions (settle occasion event policy ticket terms result).ticket
      (withResult ticket
        { terms with notified := noticesAfter event result.slaStatus terms.notified } result) := by
  simp only [settle, noticesAfter]
  cases transition : transitionOf result.slaStatus
      (afterReply event result.slaStatus terms.notified) with
  | none =>
    simp only [Option.toList_none, List.append_nil]
    exact .refl _
  | some alert =>
    simp only [Option.toList_some]
    refine (actions_frame _ _ _ _).trans ?_
    constructor <;> rfl

@[simp] theorem withBefore_keeps (before : Option SlaClockResult) (result : SlaClockResult) :
    (withBefore before result).slaPausedMs = result.slaPausedMs ∧
      (withBefore before result).slaPausedAt = result.slaPausedAt ∧
      (withBefore before result).firstResponseDueAt = result.firstResponseDueAt ∧
      (withBefore before result).nextResponseDueAt = result.nextResponseDueAt ∧
      (withBefore before result).resolutionDueAt = result.resolutionDueAt := by
  cases before with
  | none => simp [withBefore]
  | some earlier =>
    simp only [withBefore]
    split <;> simp

theorem policyOf_ok (policyRow : Option PolicyRow) (policy : PolicyRow)
    (returns : policyOf policyRow = .ok (some policy)) : policyRow = some policy := by
  unfold policyOf at returns
  split at returns
  · cases returns
  · split at returns
    · obtain ⟨parsed, parsedOk, rest⟩ := bind_ok_iff.mp returns
      rw [pure_ok_iff, Option.some.injEq] at rest
      subst rest
      simp only [policySchema] at parsedOk
      split at parsedOk
      · simp at parsedOk
      split at parsedOk
      · simp at parsedOk
      split at parsedOk
      · simp at parsedOk
      split at parsedOk
      · simp at parsedOk
      rw [pure_ok_iff] at parsedOk
      rw [parsedOk]
    · cases returns

def CalendarSaved (terms : SlaTerms) : Prop :=
  ∀ cal, terms.calendar = some cal → Saved intl cal

theorem minutesField_ok (name : String) (value result : Option ℕ)
    (returns : minutesField name value = .ok result) : result = value := by
  unfold minutesField at returns
  split at returns
  · exact (Except.ok.inj returns).symm
  · split at returns
    · exact (Except.ok.inj returns).symm
    · cases returns

theorem datetimeField_ok (name : String) (value result : Option ℤ)
    (returns : datetimeField name value = .ok result) : result = value := by
  unfold datetimeField at returns
  split at returns
  · exact (Except.ok.inj returns).symm
  · split at returns
    · exact (Except.ok.inj returns).symm
    · cases returns

/-- The numbers and the date of the terms are within their bounds. -/
structure FieldsFit (terms : SlaTerms) : Prop where
  firstResponseMins : minutesField "firstResponseMins" terms.firstResponseMins =
    .ok terms.firstResponseMins
  nextResponseMins : minutesField "nextResponseMins" terms.nextResponseMins =
    .ok terms.nextResponseMins
  resolutionMins : minutesField "resolutionMins" terms.resolutionMins = .ok terms.resolutionMins
  atRiskPercent : 1 ≤ terms.atRiskPercent ∧ terms.atRiskPercent ≤ 99
  nextResponseStartedAt : datetimeField "nextResponseStartedAt" terms.nextResponseStartedAt =
    .ok terms.nextResponseStartedAt
  nextResponsePausedMs : 0 ≤ terms.nextResponsePausedMs ∧
    terms.nextResponsePausedMs ≤ MAX_SAFE_INTEGER

def storedCalendar : Option BusinessCalendar → Result (Option BusinessCalendar)
  | none => .ok none
  | some cal => do
      let saved ← validateCalendarForSave intl cal.toJson
      return some saved

theorem parseSlaTerms_ok_iff (terms parsed : SlaTerms) :
    parseSlaTerms intl terms = .ok parsed ↔
      FieldsFit terms ∧ terms.notified.length ≤ 2 ∧
        ∃ calendar, storedCalendar intl terms.calendar = .ok calendar ∧
          parsed = { terms with calendar := calendar } := by
  constructor
  · intro returns
    simp only [parseSlaTerms] at returns
    obtain ⟨first, firstOk, returns⟩ := bind_ok_iff.mp returns
    obtain ⟨next, nextOk, returns⟩ := bind_ok_iff.mp returns
    obtain ⟨resolution, resolutionOk, returns⟩ := bind_ok_iff.mp returns
    split at returns
    · simp at returns
    next percent =>
      obtain ⟨started, startedOk, returns⟩ := bind_ok_iff.mp returns
      split at returns
      · simp at returns
      next paused =>
        split at returns
        · simp at returns
        next few =>
          obtain rfl := minutesField_ok _ _ _ firstOk
          obtain rfl := minutesField_ok _ _ _ nextOk
          obtain rfl := minutesField_ok _ _ _ resolutionOk
          obtain rfl := datetimeField_ok _ _ _ startedOk
          refine ⟨⟨firstOk, nextOk, resolutionOk, not_not.mp percent, startedOk, not_not.mp paused⟩,
            not_lt.mp few, ?_⟩
          cases calendar : terms.calendar with
          | none =>
            simp only [calendar, pure_bind, pure_ok_iff] at returns
            exact ⟨none, rfl, returns.symm⟩
          | some cal =>
            simp only [calendar] at returns
            obtain ⟨saved, savedOk, returns⟩ := bind_ok_iff.mp returns
            simp only [pure_bind, pure_ok_iff] at returns
            exact ⟨some saved, by simp only [storedCalendar, savedOk, ok_bind]; rfl, returns.symm⟩
  · intro fits
    obtain ⟨fields, few, calendar, calendarOk, rfl⟩ := fits
    simp only [parseSlaTerms, fields.firstResponseMins, fields.nextResponseMins,
      fields.resolutionMins, fields.nextResponseStartedAt, ok_bind,
      if_neg (not_not.mpr fields.atRiskPercent), if_neg (not_not.mpr fields.nextResponsePausedMs),
      if_neg (not_lt.mpr few)]
    cases given : terms.calendar with
    | none =>
      rw [given] at calendarOk
      cases calendarOk
      rfl
    | some cal =>
      rw [given, storedCalendar, bind_ok_iff] at calendarOk
      obtain ⟨saved, savedOk, rest⟩ := calendarOk
      rw [pure_ok_iff] at rest
      subst rest
      simp only [savedOk, ok_bind]
      rfl

theorem parseSlaTerms_ok (terms parsed : SlaTerms) (saved : CalendarSaved intl terms)
    (returns : parseSlaTerms intl terms = .ok parsed) : parsed = terms := by
  obtain ⟨_, _, calendar, calendarOk, rfl⟩ := (parseSlaTerms_ok_iff intl terms parsed).mp returns
  cases given : terms.calendar with
  | none =>
    rw [given] at calendarOk
    cases calendarOk
    rw [← given]
  | some cal =>
    simp only [given, storedCalendar, (saved cal given).validate, ok_bind, pure_ok_iff] at calendarOk
    rw [← calendarOk, ← given]

theorem storedTerms_ok (ticket : Ticket) (stored : Option SlaTerms)
    (saved : ∀ terms, ticket.slaTargets = some terms → CalendarSaved intl terms)
    (returns : storedTerms intl ticket = .ok stored) : stored = ticket.slaTargets := by
  unfold storedTerms at returns
  cases frozen : ticket.slaTargets with
  | none =>
    simp only [frozen] at returns
    exact (Except.ok.inj returns).symm
  | some terms =>
    simp only [frozen] at returns
    obtain ⟨parsed, parsedOk, returns⟩ := bind_ok_iff.mp returns
    rw [pure_ok_iff] at returns
    rw [← returns, parseSlaTerms_ok intl terms parsed (saved terms frozen) parsedOk]

def freshTerms (event : SlaEvent) (priority : Priority) (policy : PolicyRow) (target : TargetMins)
    (calendar : Option BusinessCalendar) (stored : Option SlaTerms) : SlaTerms :=
  { priority := some priority
    firstResponseMins := target.firstResponseMins
    nextResponseMins := target.nextResponseMins
    resolutionMins := target.resolutionMins
    atRiskPercent := policy.atRiskPercent
    calendar := calendar
    nextResponseStartedAt := stored.bind SlaTerms.nextResponseStartedAt
    nextResponsePausedMs := (stored.map SlaTerms.nextResponsePausedMs).getD 0
    notified := carriedNotices event stored }

variable (event : SlaEvent) (priority : Priority)

theorem termsFor_cases (policy : Option PolicyRow) (stored : Option SlaTerms)
    (terms : SlaTerms) (returns : termsFor intl event priority policy stored = .ok (some terms)) :
    stored = some terms ∨ ∃ row target calendar, policy = some row ∧
      row.targets priority = some target ∧ keptCalendar intl row stored = .ok calendar ∧
      terms = freshTerms event priority row target calendar stored := by
  unfold termsFor at returns
  split at returns
  · right
    split at returns
    · cases returns
    · next row =>
      split at returns
      · cases returns
      · next target targetOk =>
        obtain ⟨calendar, calendarOk, rest⟩ := bind_ok_iff.mp returns
        rw [pure_ok_iff, Option.some.injEq] at rest
        exact ⟨row, target, calendar, rfl, targetOk, calendarOk, rest.symm⟩
  · left
    exact Except.ok.inj returns

theorem keptCalendar_saved (policy : PolicyRow) (stored : Option SlaTerms)
    (calendar : Option BusinessCalendar) (kept : ∀ terms, stored = some terms → CalendarSaved intl terms)
    (returns : keptCalendar intl policy stored = .ok calendar) : ∀ cal, calendar = some cal → Saved intl cal := by
  cases stored with
  | some terms =>
    have same : terms.calendar = calendar := Except.ok.inj returns
    subst same
    exact kept terms rfl
  | none =>
    simp only [keptCalendar] at returns
    cases found : policy.calendar with
    | none =>
      simp only [found, Except.ok.injEq] at returns
      simp [← returns]
    | some cal =>
      simp only [found] at returns
      obtain ⟨saved, savedOk, rest⟩ := bind_ok_iff.mp returns
      rw [pure_ok_iff] at rest
      subst rest
      intro other same
      obtain rfl := Option.some.inj same
      exact saved_of_validate intl cal saved savedOk

theorem termsFor_saved (policy : Option PolicyRow) (stored : Option SlaTerms)
    (terms : SlaTerms) (kept : ∀ old, stored = some old → CalendarSaved intl old)
    (returns : termsFor intl event priority policy stored = .ok (some terms)) : CalendarSaved intl terms := by
  rcases termsFor_cases intl event priority policy stored terms returns with same | afresh
  · exact kept terms same
  · obtain ⟨row, target, calendar, _, _, calendarOk, rfl⟩ := afresh
    exact keptCalendar_saved intl row stored calendar kept calendarOk

theorem heard_frame (ticket : Ticket) (now : ℤ) (terms asked : SlaTerms)
    (returns : heard intl event ticket now terms = .ok asked) :
    asked.calendar = terms.calendar ∧ asked.notified = terms.notified := by
  unfold heard at returns
  split at returns
  · obtain rfl := Except.ok.inj returns
    exact ⟨rfl, rfl⟩
  · split at returns
    · obtain ⟨running, _, rest⟩ := bind_ok_iff.mp returns
      rw [pure_ok_iff] at rest
      subst rest
      exact ⟨rfl, rfl⟩
    · obtain rfl := Except.ok.inj returns
      exact ⟨rfl, rfl⟩

/-- How often a priority has been raised from the lowest. -/
def height : Priority → ℕ
  | .none => 0
  | .low => 1
  | .medium => 2
  | .high => 3
  | .urgent => 4

theorem height_le : height priority ≤ 4 := by
  cases priority <;> simp [height]

theorem height_raised (raises : raisedPriority priority ≠ priority) :
    height priority < height (raisedPriority priority) := by
  cases priority <;> simp_all [raisedPriority, height]

theorem act_height (state : Escalation) (action : EscalationAction)
    (floor : ℕ) (low : floor ≤ height state.ticket.priority)
    (higher : state.raised = true → floor < height state.ticket.priority) :
    floor ≤ height (act occasion assignees state action).ticket.priority ∧
      ((act occasion assignees state action).raised = true →
        floor < height (act occasion assignees state action).ticket.priority) := by
  cases action with
  | raise_priority =>
    simp only [act]
    split
    · exact ⟨low, higher⟩
    · next raises =>
      have up := height_raised state.ticket.priority raises
      exact ⟨by simp only; omega, fun _ => by simp only; omega⟩
  | reassign userId =>
    simp only [act]
    split
    · exact ⟨low, higher⟩
    · exact ⟨low, higher⟩
  | notify userIds => exact ⟨low, higher⟩

theorem actions_height (actions : List EscalationAction)
    (state : Escalation) (floor : ℕ) (low : floor ≤ height state.ticket.priority)
    (higher : state.raised = true → floor < height state.ticket.priority) :
    (actions.foldl (act occasion assignees) state).raised = true →
      floor < height (actions.foldl (act occasion assignees) state).ticket.priority := by
  induction actions generalizing state with
  | nil => exact higher
  | cons action rest ih =>
    have step := act_height occasion assignees state action floor low higher
    exact ih _ step.1 step.2

theorem syncPass_height (event : SlaEvent) (ticket : Ticket) (state : Escalation)
    (returns : syncPass intl occasion event ticket = .ok state) (raised : state.raised = true) :
    height ticket.priority < height state.ticket.priority := by
  rw [syncPass_ok_iff] at returns
  cases returns with
  | absent | lapsed => cases raised
  | @evaluated policy _ _ asked before result =>
    revert raised
    simp only [settle]
    split
    · intro raised
      cases raised
    · apply actions_height
      · exact le_rfl
      · intro raised
        cases raised

theorem syncWithin_enough (fuel : ℕ) (event : SlaEvent) (ticket : Ticket)
    (enough : 4 < fuel + height ticket.priority) :
    syncWithin intl occasion fuel event ticket = syncWithin intl occasion (fuel + 1) event ticket := by
  induction fuel generalizing event ticket with
  | zero =>
    have top := height_le ticket.priority
    omega
  | succ fuel ih =>
    rw [syncWithin, syncWithin]
    cases returns : syncPass intl occasion event ticket with
    | error failure => rfl
    | ok state =>
      simp only [ok_bind]
      cases raised : state.raised with
      | false => rfl
      | true =>
        have up := syncPass_height intl occasion event ticket state returns raised
        simp only [if_true]
        exact ih .escalation_priority state.ticket (by omega)

theorem syncTicketSla_eq (event : SlaEvent) (ticket : Ticket) :
    syncTicketSla intl occasion event ticket = (do
      let state ← syncPass intl occasion event ticket
      if state.raised then syncTicketSla intl occasion .escalation_priority state.ticket
      else return state.ticket) := by
  simp only [syncTicketSla]
  conv_lhs => rw [syncWithin]
  cases returns : syncPass intl occasion event ticket with
  | error failure => rfl
  | ok state =>
    simp only [ok_bind]
    cases raised : state.raised with
    | false => rfl
    | true =>
      have up := syncPass_height intl occasion event ticket state returns raised
      simp only [if_true]
      exact syncWithin_enough intl occasion 4 .escalation_priority state.ticket (by omega)

theorem syncWithin_keeps (J : Ticket → Prop)
    (pass : ∀ event ticket state, J ticket → syncPass intl occasion event ticket = .ok state →
      J state.ticket)
    (fuel : ℕ) (event : SlaEvent) (ticket next : Ticket) (holds : J ticket)
    (returns : syncWithin intl occasion fuel event ticket = .ok next) : J next := by
  induction fuel generalizing event ticket with
  | zero => cases returns
  | succ fuel ih =>
    rw [syncWithin] at returns
    obtain ⟨state, passed, returns⟩ := bind_ok_iff.mp returns
    have kept := pass event ticket state holds passed
    cases raised : state.raised with
    | false =>
      simp only [raised, Bool.false_eq_true, if_false, pure_ok_iff] at returns
      exact returns ▸ kept
    | true =>
      simp only [raised, if_true] at returns
      exact ih .escalation_priority state.ticket kept returns

end Droplet.Sla
