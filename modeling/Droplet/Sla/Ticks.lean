import Droplet.Sla.Agreement

/-! Ticks never change the clock: a tick writes the status, the due dates and the notices of
a ticket, and none of them is read back into the pauses or the due dates of a later call. -/

namespace Droplet.Sla

open ZonedTime BusinessTime Fallible

variable (intl : Intl)

theorem alerts_length (alerts : List SlaAlert) (distinct : alerts.Nodup) : alerts.length ≤ 2 := by
  have inside : alerts ⊆ [.AT_RISK, .BREACHED] := by
    intro alert _
    cases alert <;> simp
  exact (distinct.subperm inside).length_le

variable (event : SlaEvent)

theorem carriedNotices_nodup (terms : Option SlaTerms)
    (distinct : ∀ old, terms = some old → old.notified.Nodup) : (carriedNotices event terms).Nodup := by
  cases terms with
  | none => exact List.nodup_nil
  | some old =>
    simp only [carriedNotices]
    split
    · exact distinct old rfl
    · exact (distinct old rfl).filter _

theorem noticesAfter_nodup (status : SlaStatus) (notified : List SlaAlert)
    (distinct : notified.Nodup) : (noticesAfter event status notified).Nodup := by
  have kept : (afterReply event status notified).Nodup := by
    simp only [afterReply]
    split
    · exact distinct.filter _
    · exact distinct
  simp only [noticesAfter, transitionOf]
  split
  · split
    · simpa using kept
    · next alert _ fresh =>
      simp only [Option.toList_some]
      exact List.nodup_append.mpr ⟨kept, List.nodup_singleton alert, by
        intro x member y last same
        rw [List.mem_singleton] at last
        exact fresh (last ▸ same ▸ member)⟩
  · simpa using kept

def NoRaise (policyRow : Option PolicyRow) : Prop :=
  ∀ row, policyRow = some row → ∀ rule ∈ row.escalation, .raise_priority ∉ rule.actions

variable (occasion : Occasion)

theorem actions_quiet (assignees : List String) (actions : List EscalationAction)
    (state : Escalation) (quiet : EscalationAction.raise_priority ∉ actions) :
    (actions.foldl (act occasion assignees) state).raised = state.raised ∧
      (actions.foldl (act occasion assignees) state).ticket.priority = state.ticket.priority := by
  induction actions generalizing state with
  | nil => exact ⟨rfl, rfl⟩
  | cons action rest ih =>
    simp only [List.mem_cons, not_or] at quiet
    have step : (act occasion assignees state action).raised = state.raised ∧
        (act occasion assignees state action).ticket.priority = state.ticket.priority := by
      cases action with
      | raise_priority => exact absurd rfl quiet.1
      | reassign userId =>
        simp only [act]
        split <;> exact ⟨rfl, rfl⟩
      | notify userIds => exact ⟨rfl, rfl⟩
    obtain ⟨raised, priority⟩ := ih (act occasion assignees state action) quiet.2
    exact ⟨raised.trans step.1, priority.trans step.2⟩

theorem settle_quiet (event : SlaEvent) (policy : Option PolicyRow) (ticket : Ticket)
    (terms : SlaTerms) (result : SlaClockResult)
    (policyOk : policyOf occasion.policyRow = .ok policy) (quiet : NoRaise occasion.policyRow) :
    (settle occasion event policy ticket terms result).raised = false ∧
      (settle occasion event policy ticket terms result).ticket.priority = ticket.priority := by
  simp only [settle]
  split
  · exact ⟨rfl, rfl⟩
  · next alert _ =>
    apply actions_quiet
    intro member
    cases policy with
    | none => cases member
    | some policy =>
      have row := policyOf_ok occasion.policyRow policy policyOk
      obtain ⟨rule, ruleIn, actionIn⟩ := List.mem_flatMap.mp member
      exact quiet policy row rule (List.mem_filter.mp ruleIn).1 actionIn

theorem passes_quiet (event : SlaEvent) (ticket : Ticket) (state : Escalation)
    (quiet : NoRaise occasion.policyRow) (passes : Passes intl occasion event ticket state) :
    state.raised = false ∧ state.ticket.priority = ticket.priority := by
  cases passes with
  | absent | lapsed => exact ⟨rfl, rfl⟩
  | evaluated live policyOk storedOk termsOk beforeOk heardOk resultOk =>
    exact settle_quiet occasion event _ ticket _ _ policyOk quiet

theorem perform_ok_iff (call : Call) (ticket next : Ticket) (quiet : NoRaise call.occasion.policyRow) :
    perform intl call ticket = .ok next ↔ ∃ state, state.ticket = next ∧
      Passes intl call.occasion call.change.event (call.change.apply call.occasion.now ticket)
        state := by
  rw [perform, syncTicketSla_eq, bind_ok_iff]
  simp only [syncPass_ok_iff]
  constructor
  · intro found
    obtain ⟨state, passes, rest⟩ := found
    have silent := (passes_quiet intl _ _ _ state quiet passes).1
    simp only [silent, Bool.false_eq_true, if_false, pure_ok_iff] at rest
    exact ⟨state, rest, passes⟩
  · intro found
    obtain ⟨state, rfl, passes⟩ := found
    have silent := (passes_quiet intl _ _ _ state quiet passes).1
    exact ⟨state, passes, by simp [silent]⟩

def erase (terms : SlaTerms) : SlaTerms := { terms with notified := [] }

theorem eq_of_erase (a b : SlaTerms) (same : erase a = erase b) : b = { a with notified := b.notified } := by
  cases a
  cases b
  simp only [erase, SlaTerms.mk.injEq] at same
  simp only [SlaTerms.mk.injEq]
  tauto

/-- Equal up to the status, the due dates, the notices and what an escalation writes. -/
structure SameClock (a b : Ticket) : Prop where
  live : a.live = b.live
  priority : a.priority = b.priority
  createdAt : a.createdAt = b.createdAt
  clock : a.clock = b.clock
  terminal : a.terminal = b.terminal
  firstRespondedAt : a.firstRespondedAt = b.firstRespondedAt
  solvedAt : a.solvedAt = b.solvedAt
  slaPausedMs : a.slaPausedMs = b.slaPausedMs
  slaPausedAt : a.slaPausedAt = b.slaPausedAt
  slaTargets : a.slaTargets.map erase = b.slaTargets.map erase

theorem SameClock.refl (a : Ticket) : SameClock a a := by
  constructor <;> rfl

theorem SameClock.symm {a b : Ticket} (same : SameClock a b) : SameClock b a where
  live := same.live.symm
  priority := same.priority.symm
  createdAt := same.createdAt.symm
  clock := same.clock.symm
  terminal := same.terminal.symm
  firstRespondedAt := same.firstRespondedAt.symm
  solvedAt := same.solvedAt.symm
  slaPausedMs := same.slaPausedMs.symm
  slaPausedAt := same.slaPausedAt.symm
  slaTargets := same.slaTargets.symm

theorem SameClock.trans {a b c : Ticket} (first : SameClock a b) (second : SameClock b c) : SameClock a c where
  live := first.live.trans second.live
  priority := first.priority.trans second.priority
  createdAt := first.createdAt.trans second.createdAt
  clock := first.clock.trans second.clock
  terminal := first.terminal.trans second.terminal
  firstRespondedAt := first.firstRespondedAt.trans second.firstRespondedAt
  solvedAt := first.solvedAt.trans second.solvedAt
  slaPausedMs := first.slaPausedMs.trans second.slaPausedMs
  slaPausedAt := first.slaPausedAt.trans second.slaPausedAt
  slaTargets := first.slaTargets.trans second.slaTargets

theorem SameClock.apply {a b : Ticket} (same : SameClock a b) (change : Change) (now : ℤ) :
    SameClock (change.apply now a) (change.apply now b) := by
  cases change with
  | create | tick | requester => exact same
  | state clock terminal =>
    exact ⟨same.live, same.priority, same.createdAt, rfl, rfl, same.firstRespondedAt,
      by simp only [Change.apply, same.terminal, same.solvedAt], same.slaPausedMs,
      same.slaPausedAt, same.slaTargets⟩
  | reply =>
    exact ⟨same.live, same.priority, same.createdAt, same.clock, same.terminal,
      by simp only [Change.apply, same.firstRespondedAt], same.solvedAt, same.slaPausedMs,
      same.slaPausedAt, same.slaTargets⟩
  | priority level =>
    exact ⟨same.live, rfl, same.createdAt, same.clock, same.terminal, same.firstRespondedAt,
      same.solvedAt, same.slaPausedMs, same.slaPausedAt, same.slaTargets⟩

def DistinctNotices (ticket : Ticket) : Prop :=
  ∀ terms, ticket.slaTargets = some terms → terms.notified.Nodup

theorem parseSlaTerms_notified (terms parsed : SlaTerms) (notified : List SlaAlert)
    (few : notified.length ≤ 2) (returns : parseSlaTerms intl terms = .ok parsed) :
    parseSlaTerms intl { terms with notified := notified } =
      .ok { parsed with notified := notified } := by
  obtain ⟨fields, _, calendar, calendarOk, rfl⟩ := (parseSlaTerms_ok_iff intl terms parsed).mp returns
  rw [parseSlaTerms_ok_iff]
  exact ⟨{ fields with }, few, calendar, calendarOk, rfl⟩

theorem storedTerms_same (a b : Ticket) (same : SameClock a b) (distinct : DistinctNotices b)
    (stored : Option SlaTerms) (returns : storedTerms intl a = .ok stored) :
    ∃ other, storedTerms intl b = .ok other ∧ stored.map erase = other.map erase ∧
      ∀ terms, other = some terms → terms.notified.Nodup := by
  have targets := same.slaTargets
  unfold storedTerms at returns ⊢
  cases frozen : a.slaTargets with
  | none =>
    rw [frozen] at targets
    have absent : b.slaTargets = none := by simpa using targets.symm
    simp only [frozen, Except.ok.injEq] at returns
    exact ⟨none, by rw [absent], by rw [← returns], by simp⟩
  | some terms =>
    rw [frozen] at targets
    obtain ⟨other, otherFrozen, erased⟩ := Option.map_eq_some_iff.mp targets.symm
    have otherEq := eq_of_erase terms other erased.symm
    simp only [frozen] at returns
    obtain ⟨parsed, parsedOk, rest⟩ := bind_ok_iff.mp returns
    rw [pure_ok_iff] at rest
    have few := alerts_length other.notified (distinct other otherFrozen)
    have parsedOther := parseSlaTerms_notified intl terms parsed other.notified few parsedOk
    rw [← otherEq] at parsedOther
    refine ⟨some { parsed with notified := other.notified }, ?_, ?_, ?_⟩
    · simp only [otherFrozen, parsedOther, ok_bind]
      rfl
    · rw [← rest]
      rfl
    · intro found equal
      obtain rfl := Option.some.inj equal
      exact distinct other otherFrozen

theorem termsFor_same (priority : Priority) (policy : Option PolicyRow)
    (stored other : Option SlaTerms) (same : stored.map erase = other.map erase)
    (distinct : ∀ terms, other = some terms → terms.notified.Nodup) (found : Option SlaTerms)
    (returns : termsFor intl event priority policy stored = .ok found) :
    ∃ match_, termsFor intl event priority policy other = .ok match_ ∧
      found.map erase = match_.map erase ∧ ∀ terms, match_ = some terms → terms.notified.Nodup := by
  have carried := carriedNotices_nodup event other distinct
  cases stored with
  | none =>
    have absent : other = none := by simpa using same.symm
    subst absent
    refine ⟨found, returns, rfl, ?_⟩
    intro terms equal
    subst equal
    unfold termsFor at returns
    split at returns
    · split at returns
      · cases returns
      · split at returns
        · cases returns
        · obtain ⟨calendar, _, rest⟩ := bind_ok_iff.mp returns
          rw [pure_ok_iff, Option.some.injEq] at rest
          subst rest
          exact carried
    · cases returns
  | some terms =>
    obtain ⟨twin, rfl, erased⟩ := Option.map_eq_some_iff.mp same.symm
    have twinEq := eq_of_erase terms twin erased.symm
    have decision : retargets event priority (some twin) = retargets event priority (some terms) := by
      rw [twinEq]
      simp [retargets]
    unfold termsFor at returns ⊢
    rw [decision]
    split at returns
    · next afresh =>
      simp only [afresh, if_true]
      cases policy with
      | none =>
        obtain rfl := Except.ok.inj returns
        exact ⟨none, rfl, rfl, by simp⟩
      | some policy =>
        cases target : policy.targets priority with
        | none =>
          simp only [target, Except.ok.injEq] at returns
          subst returns
          exact ⟨none, by simp only [target], rfl, by simp⟩
        | some mins =>
          simp only [target, keptCalendar, ok_bind, pure_ok_iff] at returns ⊢
          subst returns
          refine ⟨_, rfl, ?_, ?_⟩
          · rw [twinEq]
            rfl
          · intro fresh equal
            obtain rfl := Option.some.inj equal
            exact carried
    · next kept =>
      obtain rfl := Except.ok.inj returns
      simp only [kept, Bool.false_eq_true, if_false]
      exact ⟨some twin, rfl, same, distinct⟩

theorem heard_same (a b : Ticket) (same : SameClock a b) (now : ℤ) (terms asked : SlaTerms)
    (notified : List SlaAlert) (returns : heard intl event a now terms = .ok asked) :
    heard intl event b now { terms with notified := notified } =
      .ok { asked with notified := notified } := by
  unfold heard at returns ⊢
  rw [← same.firstRespondedAt, ← same.slaPausedAt, ← same.slaPausedMs]
  split at returns
  · next reply =>
    simp only [if_pos reply]
    obtain rfl := Except.ok.inj returns
    rfl
  · next other =>
    simp only [if_neg other]
    split at returns
    · next starts =>
      simp only [if_pos starts]
      obtain ⟨running, runningOk, rest⟩ := bind_ok_iff.mp returns
      rw [pure_ok_iff] at rest
      simp only [runningOk, ok_bind, ← rest]
      rfl
    · next waits =>
      simp only [if_neg waits]
      obtain rfl := Except.ok.inj returns
      rfl

variable (input : SlaClockInput)

theorem evaluateSla_same (notified : List SlaAlert) (status : SlaStatus) (result : SlaClockResult)
    (returns : evaluateSla intl input = .ok result) :
    ∃ other, evaluateSla intl { input with
        terms := { input.terms with notified := notified }, previousStatus := status } =
          .ok { result with slaStatus := other } := by
  obtain ⟨low, high, p, readings, pOk, readingsOk, rfl⟩ :=
    (evaluateSla_ok_iff intl input result).mp returns
  have same : ∀ list, readTargets intl { input with
      terms := { input.terms with notified := notified }, previousStatus := status } p list =
      readTargets intl input p list := by
    intro list
    induction list with
    | nil => rfl
    | cons target rest ih =>
      rw [readTargets, readTargets, ih]
      rfl
  refine ⟨_, (evaluateSla_ok_iff intl _ _).mpr ⟨low, high, p, readings, pOk, ?_, rfl⟩⟩
  rw [same]
  exact readingsOk

structure SameDues (a b : Ticket) : Prop where
  firstResponse : a.firstResponseDueAt = b.firstResponseDueAt
  nextResponse : a.nextResponseDueAt = b.nextResponseDueAt
  resolution : a.resolutionDueAt = b.resolutionDueAt

theorem clockInput_same (a b : Ticket) (same : SameClock a b) (now : ℤ) (terms : SlaTerms)
    (notified : List SlaAlert) :
    clockInput b now { terms with notified := notified } =
      { clockInput a now terms with
        terms := { (clockInput a now terms).terms with notified := notified }
        previousStatus := b.slaStatus } := by
  simp only [clockInput, same.createdAt, same.clock, same.firstRespondedAt, same.solvedAt,
    same.slaPausedMs, same.slaPausedAt]

theorem beforeReply_same (a b : Ticket) (same : SameClock a b) (now : ℤ) (terms : SlaTerms)
    (notified : List SlaAlert) (before : Option SlaClockResult)
    (returns : beforeReply intl event a now terms = .ok before) :
    ∃ other, beforeReply intl event b now { terms with notified := notified } = .ok other := by
  unfold beforeReply at returns ⊢
  split at returns
  · next reply =>
    simp only [if_pos reply]
    obtain ⟨result, resultOk, _⟩ := bind_ok_iff.mp returns
    obtain ⟨status, otherOk⟩ := evaluateSla_same intl _ notified b.slaStatus result resultOk
    rw [← clockInput_same a b same now terms notified] at otherOk
    exact ⟨_, bind_ok_iff.mpr ⟨_, otherOk, rfl⟩⟩
  · next other =>
    simp only [if_neg other]
    exact ⟨none, rfl⟩

/-- What is written on two tickets with the same clock leaves them with the same clock and
the same due dates, whatever was announced on them before. -/
theorem settle_same (event : SlaEvent) (policy : Option PolicyRow) (a b : Ticket)
    (same : SameClock a b) (asked : SlaTerms) (notified : List SlaAlert)
    (before earlier : Option SlaClockResult) (result : SlaClockResult) (status : SlaStatus)
    (policyOk : policyOf occasion.policyRow = .ok policy) (quiet : NoRaise occasion.policyRow) :
    SameClock (settle occasion event policy a asked (withBefore before result)).ticket
        (settle occasion event policy b { asked with notified := notified }
          (withBefore earlier { result with slaStatus := status })).ticket ∧
      SameDues (settle occasion event policy a asked (withBefore before result)).ticket
        (settle occasion event policy b { asked with notified := notified }
          (withBefore earlier { result with slaStatus := status })).ticket := by
  have left := settle_frame occasion event policy a asked (withBefore before result)
  have right := settle_frame occasion event policy b { asked with notified := notified }
    (withBefore earlier { result with slaStatus := status })
  have leftQuiet := (settle_quiet occasion event policy a asked (withBefore before result) policyOk quiet).2
  have rightQuiet := (settle_quiet occasion event policy b { asked with notified := notified }
    (withBefore earlier { result with slaStatus := status }) policyOk quiet).2
  constructor
  · constructor
    · rw [left.live, right.live]
      exact same.live
    · rw [leftQuiet, rightQuiet]
      exact same.priority
    · rw [left.createdAt, right.createdAt]
      exact same.createdAt
    · rw [left.clock, right.clock]
      exact same.clock
    · rw [left.terminal, right.terminal]
      exact same.terminal
    · rw [left.firstRespondedAt, right.firstRespondedAt]
      exact same.firstRespondedAt
    · rw [left.solvedAt, right.solvedAt]
      exact same.solvedAt
    · rw [left.slaPausedMs, right.slaPausedMs]
      simp [withResult]
    · rw [left.slaPausedAt, right.slaPausedAt]
      simp [withResult]
    · rw [left.slaTargets, right.slaTargets]
      rfl
  · constructor
    · rw [left.firstResponseDueAt, right.firstResponseDueAt]
      simp [withResult]
    · rw [left.nextResponseDueAt, right.nextResponseDueAt]
      simp [withResult]
    · rw [left.resolutionDueAt, right.resolutionDueAt]
      simp [withResult]

theorem passes_same (event : SlaEvent) (a b : Ticket) (state : Escalation) (same : SameClock a b)
    (distinct : DistinctNotices b) (quiet : NoRaise occasion.policyRow)
    (passes : Passes intl occasion event a state) :
    ∃ other, Passes intl occasion event b other ∧ SameClock state.ticket other.ticket ∧
      (a.live = true → SameDues state.ticket other.ticket) := by
  cases passes with
  | absent gone =>
    exact ⟨⟨b, false⟩, .absent (same.live ▸ gone), same, by simp [gone]⟩
  | lapsed live policyOk storedOk none =>
    obtain ⟨stored, otherOk, erased, notices⟩ := storedTerms_same intl a b same distinct _ storedOk
    obtain ⟨found, foundOk, nothing, _⟩ := termsFor_same intl event a.priority _ _ stored erased
      notices _ none
    have absent : found = Option.none := by simpa using nothing.symm
    rw [same.priority, absent] at foundOk
    refine ⟨⟨withoutSla b, false⟩, .lapsed (same.live ▸ live) policyOk otherOk foundOk, ?_, ?_⟩
    · exact ⟨same.live, same.priority, same.createdAt, same.clock, same.terminal,
        same.firstRespondedAt, same.solvedAt, same.slaPausedMs, same.slaPausedAt, rfl⟩
    · intro _
      exact ⟨rfl, rfl, rfl⟩
  | @evaluated policy _ terms asked before result live policyOk storedOk termsOk beforeOk heardOk
      resultOk =>
      obtain ⟨stored, otherOk, erased, notices⟩ := storedTerms_same intl a b same distinct _ storedOk
      obtain ⟨found, foundOk, matched, _⟩ := termsFor_same intl event a.priority _ _ stored erased
        notices _ termsOk
      obtain ⟨twin, rfl, twinErased⟩ := Option.map_eq_some_iff.mp matched.symm
      have twinEq := eq_of_erase terms twin twinErased.symm
      rw [same.priority, twinEq] at foundOk
      obtain ⟨earlier, earlierOk⟩ := beforeReply_same intl event a b same occasion.now terms
        twin.notified before beforeOk
      have askedOk := heard_same intl event a b same occasion.now terms asked twin.notified heardOk
      obtain ⟨status, againOk⟩ := evaluateSla_same intl _ twin.notified b.slaStatus result resultOk
      rw [← clockInput_same a b same occasion.now asked twin.notified] at againOk
      obtain ⟨clocks, dues⟩ := settle_same occasion event policy a b same asked twin.notified before
        earlier result status policyOk quiet
      exact ⟨_, .evaluated (same.live ▸ live) policyOk otherOk foundOk earlierOk askedOk againOk,
        clocks, fun _ => dues⟩

/-- A live ticket as calls leave it: with terms, it has a pause exactly while its clock is
paused. -/
structure Settled (ticket : Ticket) : Prop where
  live : ticket.live = true
  saved : ∀ terms, ticket.slaTargets = some terms → CalendarSaved intl terms
  distinct : DistinctNotices ticket
  consistent : ∀ terms, ticket.slaTargets = some terms →
    (ticket.slaPausedAt.isSome = true ↔ ticket.clock = .PAUSED)

theorem pauses_isSome (p : Pauses) (returns : pauses intl input = .ok p) :
    p.pausedAt.isSome = true ↔ input.clock = .PAUSED := by
  simp only [pauses] at returns
  obtain ⟨accrued, _, rest⟩ := bind_ok_iff.mp returns
  rw [pure_ok_iff] at rest
  subst rest
  split <;> simp_all

theorem passes_settled (event : SlaEvent) (ticket : Ticket) (state : Escalation) (live : ticket.live = true)
    (saved : ∀ terms, ticket.slaTargets = some terms → CalendarSaved intl terms)
    (distinct : DistinctNotices ticket) (passes : Passes intl occasion event ticket state) :
    Settled intl state.ticket := by
  cases passes with
  | absent gone => simp [gone] at live
  | lapsed _ policyOk storedOk none =>
    exact ⟨live, by simp [withoutSla], by simp [DistinctNotices, withoutSla], by simp [withoutSla]⟩
  | @evaluated policy stored terms asked before result _ policyOk storedOk termsOk beforeOk heardOk
      resultOk =>
      have storedEq := storedTerms_ok intl ticket stored saved storedOk
      subst storedEq
      have frame := settle_frame occasion event policy ticket asked (withBefore before result)
      obtain ⟨calendar, notified⟩ := heard_frame intl event ticket occasion.now terms asked heardOk
      have termsSaved := termsFor_saved intl event ticket.priority policy _ terms saved termsOk
      have notices : terms.notified.Nodup := by
        rcases termsFor_cases intl event ticket.priority policy _ terms termsOk with same | afresh
        · exact distinct terms same
        · obtain ⟨row, target, calendar, _, _, _, rfl⟩ := afresh
          exact carriedNotices_nodup event ticket.slaTargets distinct
      obtain ⟨_, _, p, readings, pOk, _, rfl⟩ := (evaluateSla_ok_iff intl _ result).mp resultOk
      constructor
      · rw [frame.live]
        exact live
      · intro written same
        rw [frame.slaTargets] at same
        obtain rfl := Option.some.inj same
        intro cal found
        exact termsSaved cal (calendar ▸ found)
      · intro written same
        rw [frame.slaTargets] at same
        obtain rfl := Option.some.inj same
        exact noticesAfter_nodup event _ asked.notified (notified ▸ notices)
      · intro written same
        rw [frame.slaPausedAt, frame.clock]
        simp only [withResult, withBefore_keeps]
        exact pauses_isSome intl _ p pOk

theorem pauses_between (p : Pauses) (consistent : input.pausedAt.isSome = true ↔ input.clock = .PAUSED)
    (pOk : pauses intl input = .ok p) : p.pausedMs = input.pausedMs ∧ p.pausedAt = input.pausedAt := by
  simp only [pauses] at pOk
  obtain ⟨accrued, accruedOk, rest⟩ := bind_ok_iff.mp pOk
  rw [pure_ok_iff] at rest
  subst rest
  cases pausedAt : input.pausedAt with
  | none =>
    have running : input.clock ≠ .PAUSED := by simpa [pausedAt] using consistent
    rw [pausedAt] at accruedOk
    have zero : 0 = accrued := Except.ok.inj accruedOk
    simp [running, ← zero]
  | some since =>
    have paused : input.clock = .PAUSED := by simpa [pausedAt] using consistent
    simp [paused]

theorem tick_same (ticket : Ticket) (state : Escalation) (settled : Settled intl ticket)
    (quiet : NoRaise occasion.policyRow) (passes : Passes intl occasion .tick ticket state) :
    SameClock state.ticket ticket := by
  cases passes with
  | absent gone => exact .refl ticket
  | @lapsed policy stored _ policyOk storedOk none =>
    have storedEq := storedTerms_ok intl ticket stored settled.saved storedOk
    have absent : stored = Option.none := Except.ok.inj none
    exact ⟨rfl, rfl, rfl, rfl, rfl, rfl, rfl, rfl, rfl, by rw [← storedEq, absent]; rfl⟩
  | @evaluated policy stored terms asked before result _ policyOk storedOk termsOk beforeOk heardOk
      resultOk =>
      have storedEq := storedTerms_ok intl ticket stored settled.saved storedOk
      have termsEq : stored = some terms := Except.ok.inj termsOk
      have askedEq : terms = asked := Except.ok.inj heardOk
      subst askedEq
      have frozen := storedEq.symm.trans termsEq
      have consistent := settled.consistent terms frozen
      obtain ⟨_, _, p, readings, pOk, _, rfl⟩ := (evaluateSla_ok_iff intl _ result).mp resultOk
      have frame := settle_frame occasion .tick policy ticket terms
        (withBefore before (conclude (clockInput ticket occasion.now terms) p readings))
      have priority := (settle_quiet occasion .tick policy ticket terms
        (withBefore before (conclude (clockInput ticket occasion.now terms) p readings)) policyOk
        quiet).2
      have pausesSame := pauses_between intl (clockInput ticket occasion.now terms) p consistent pOk
      constructor
      · exact frame.live
      · exact priority
      · exact frame.createdAt
      · exact frame.clock
      · exact frame.terminal
      · exact frame.firstRespondedAt
      · exact frame.solvedAt
      · rw [frame.slaPausedMs]
        simp [withResult, conclude, pausesSame.1, clockInput]
      · rw [frame.slaPausedAt]
        simp [withResult, conclude, pausesSame.2, clockInput]
      · rw [frame.slaTargets, frozen]
        rfl

end Droplet.Sla
