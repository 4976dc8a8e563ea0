import Droplet.Sla.Agreement

/-! A ticket's due dates and its status never disagree, in any evaluation of any run: what
every call keeps of the pauses and of the waiting cycle is what the agreement of one
evaluation asks for. -/

namespace Droplet.Sla

open ZonedTime BusinessTime Fallible

variable (intl : Intl)

structure TermsInv (createdAt now pausedMs : ℤ) (pausedAt : Option ℤ) (terms : SlaTerms) :
    Prop where
  saved : CalendarSaved intl terms
  additive : Additive intl terms.calendar createdAt
  started : ∀ start, terms.nextResponseStartedAt = some start → createdAt ≤ start ∧ start ≤ now ∧
    Snapshot intl terms.calendar pausedMs pausedAt terms.nextResponsePausedMs start

structure TicketInv (now : ℤ) (ticket : Ticket) : Prop where
  unstopped : ticket.clock ≠ .STOPPED
  created : ticket.createdAt ≤ now
  paused : ∀ since, ticket.slaPausedAt = some since → ticket.createdAt ≤ since ∧ since ≤ now
  terms : ∀ terms, ticket.slaTargets = some terms →
    TermsInv intl ticket.createdAt now ticket.slaPausedMs ticket.slaPausedAt terms

/-- The calendar a policy would freeze is one on which business time adds up. -/
def AdditivePolicy (policyRow : Option PolicyRow) (floor : ℤ) : Prop :=
  ∀ row cal saved, policyRow = some row → row.calendar = some cal →
    validateCalendarForSave intl cal.toJson = .ok saved → Additive intl (some saved) floor

theorem keptCalendar_additive (policyRow : Option PolicyRow) (policy : PolicyRow)
    (stored : Option SlaTerms) (calendar : Option BusinessCalendar) (floor : ℤ)
    (policyOk : policyOf policyRow = .ok (some policy)) (additivePolicy : AdditivePolicy intl policyRow floor)
    (kept : ∀ terms, stored = some terms → Additive intl terms.calendar floor)
    (returns : keptCalendar intl policy stored = .ok calendar) : Additive intl calendar floor := by
  cases stored with
  | some terms =>
    have same : terms.calendar = calendar := Except.ok.inj returns
    exact same ▸ kept terms rfl
  | none =>
    simp only [keptCalendar] at returns
    cases found : policy.calendar with
    | none =>
      simp only [found, Except.ok.injEq] at returns
      exact returns ▸ additive_none intl floor
    | some cal =>
      simp only [found] at returns
      obtain ⟨saved, savedOk, rest⟩ := bind_ok_iff.mp returns
      rw [pure_ok_iff] at rest
      subst rest
      exact additivePolicy policy cal saved (policyOf_ok policyRow policy policyOk) found savedOk

theorem termsFor_inv (event : SlaEvent) (priority : Priority) (policyRow policy : Option PolicyRow)
    (stored : Option SlaTerms) (terms : SlaTerms) (createdAt now pausedMs : ℤ)
    (pausedAt : Option ℤ) (policyOk : policyOf policyRow = .ok policy)
    (additivePolicy : AdditivePolicy intl policyRow createdAt)
    (inv : ∀ terms, stored = some terms → TermsInv intl createdAt now pausedMs pausedAt terms)
    (returns : termsFor intl event priority policy stored = .ok (some terms)) :
    TermsInv intl createdAt now pausedMs pausedAt terms := by
  have saved := termsFor_saved intl event priority policy stored terms
    (fun terms same => (inv terms same).saved) returns
  rcases termsFor_cases intl event priority policy stored terms returns with same | afresh
  · exact inv terms same
  · obtain ⟨policy, target, calendar, rfl, targetOk, calendarOk, rfl⟩ := afresh
    have additive := keptCalendar_additive intl policyRow policy stored calendar createdAt policyOk
      additivePolicy (fun terms same => (inv terms same).additive) calendarOk
    refine ⟨saved, additive, ?_⟩
    intro start started
    cases stored with
    | none => cases started
    | some old =>
      have same : calendar = old.calendar := (Except.ok.inj calendarOk).symm
      subst same
      exact (inv old rfl).started start started

theorem heard_inv (event : SlaEvent) (ticket : Ticket) (now : ℤ) (terms asked : SlaTerms)
    (created : ticket.createdAt ≤ now)
    (paused : ∀ since, ticket.slaPausedAt = some since → ticket.createdAt ≤ since ∧ since ≤ now)
    (inv : TermsInv intl ticket.createdAt now ticket.slaPausedMs ticket.slaPausedAt terms)
    (returns : heard intl event ticket now terms = .ok asked) :
    TermsInv intl ticket.createdAt now ticket.slaPausedMs ticket.slaPausedAt asked := by
  unfold heard at returns
  split at returns
  · obtain rfl := Except.ok.inj returns
    exact ⟨inv.saved, inv.additive, by simp⟩
  · split at returns
    · obtain ⟨running, runningOk, rest⟩ := bind_ok_iff.mp returns
      rw [pure_ok_iff] at rest
      subst rest
      refine ⟨inv.saved, inv.additive, ?_⟩
      intro start started
      obtain rfl := Option.some.inj started
      refine ⟨created, le_rfl, ?_⟩
      cases pausedAt : ticket.slaPausedAt with
      | none =>
        rw [pausedAt] at runningOk
        have zero : 0 = running := Except.ok.inj runningOk
        simp [Snapshot, ← zero]
      | some since =>
        rw [pausedAt] at runningOk
        have order := (paused since pausedAt).2
        exact Or.inr ⟨order, running, accruedPause_some intl since now running _ order runningOk, rfl⟩
    · obtain rfl := Except.ok.inj returns
      exact inv

variable {ticket : Ticket}

theorem TicketInv.ordered {now : ℤ} (inv : TicketInv intl now ticket) (terms : SlaTerms)
    (termsInv : TermsInv intl ticket.createdAt now ticket.slaPausedMs ticket.slaPausedAt terms) :
    Ordered intl (clockInput ticket now terms) :=
  ⟨inv.unstopped, inv.created, inv.paused, termsInv.started, termsInv.additive⟩

/-- The snapshot survives the evaluation: a pause that ends is added to the closed ones, one
that begins begins after the cycle. -/
theorem snapshot_after (input : SlaClockInput) (p : Pauses) (ordered : Ordered intl input)
    (returns : pauses intl input = .ok p) (start : ℤ) (started : input.terms.nextResponseStartedAt = some start) :
    Snapshot intl input.terms.calendar p.pausedMs p.pausedAt input.terms.nextResponsePausedMs
      start := by
  obtain ⟨accrued, accruedOk, shape⟩ := pauses_ok intl input p ordered.unstopped returns
  obtain ⟨_, order, snapshot⟩ := ordered.started start started
  have nonneg := accruedPause_nonneg intl _ _ _ _ accruedOk
  cases pausedAt : input.pausedAt with
  | none =>
    rw [pausedAt] at snapshot
    have bound : input.terms.nextResponsePausedMs ≤ input.pausedMs := snapshot
    rcases shape with ⟨_, rfl⟩ | ⟨_, rfl⟩
    · simp only [Snapshot]
      omega
    · simp only [Snapshot, pausedAt, Option.getD_none]
      exact Or.inl ⟨order, bound⟩
  | some since =>
    rw [pausedAt] at snapshot accruedOk
    have inPause := accruedPause_some intl since input.now accrued _
      (ordered.paused since pausedAt).2 accruedOk
    rcases shape with ⟨_, rfl⟩ | ⟨_, rfl⟩
    · simp only [Snapshot]
      rcases snapshot with ⟨_, bound⟩ | ⟨inside, taken, toStart, excluded⟩
      · omega
      · obtain ⟨_, same, _, upTo⟩ := businessMsBetween_shorten intl since input.now accrued start _
          inPause inside order
        rw [toStart] at same
        obtain rfl := Except.ok.inj same
        omega
    · simpa only [Snapshot, pausedAt, Option.getD_some] using snapshot

theorem pauses_pausedAt (input : SlaClockInput) (p : Pauses) (ordered : Ordered intl input)
    (returns : pauses intl input = .ok p) (since : ℤ) (paused : p.pausedAt = some since) :
    input.createdAt ≤ since ∧ since ≤ input.now := by
  obtain ⟨accrued, _, shape⟩ := pauses_ok intl input p ordered.unstopped returns
  rcases shape with ⟨_, rfl⟩ | ⟨_, rfl⟩
  · cases paused
  · have same := Option.some.inj paused
    cases pausedAt : input.pausedAt with
    | none =>
      simp only [pausedAt, Option.getD_none] at same
      exact ⟨same ▸ ordered.created, same.ge⟩
    | some other =>
      simp only [pausedAt, Option.getD_some] at same
      exact same ▸ ordered.paused other pausedAt

theorem syncPass_inv (occasion : Occasion) (event : SlaEvent) (ticket : Ticket) (state : Escalation)
    (inv : TicketInv intl occasion.now ticket) (additive : AdditivePolicy intl occasion.policyRow ticket.createdAt)
    (returns : syncPass intl occasion event ticket = .ok state) :
    TicketInv intl occasion.now state.ticket ∧ state.ticket.createdAt = ticket.createdAt := by
  rw [syncPass_ok_iff] at returns
  cases returns with
  | absent gone => exact ⟨inv, rfl⟩
  | lapsed live policyOk storedOk none =>
    exact ⟨⟨inv.unstopped, inv.created, inv.paused, by simp [withoutSla]⟩, rfl⟩
  | @evaluated policy stored terms asked before result live policyOk storedOk termsOk beforeOk
      heardOk resultOk =>
      have storedEq := storedTerms_ok intl ticket stored
        (fun terms frozen => (inv.terms terms frozen).saved) storedOk
      have termsInv := termsFor_inv intl event ticket.priority _ policy stored terms _ _ _ _ policyOk
        additive (fun terms same => inv.terms terms (storedEq ▸ same)) termsOk
      have askedInv := heard_inv intl event ticket occasion.now terms asked inv.created inv.paused
        termsInv heardOk
      have ordered := inv.ordered intl asked askedInv
      obtain ⟨_, _, p, readings, pOk, _, rfl⟩ := (evaluateSla_ok_iff intl _ result).mp resultOk
      have frame := settle_frame occasion event policy ticket asked
        (withBefore before (conclude (clockInput ticket occasion.now asked) p readings))
      refine ⟨⟨?_, ?_, ?_, ?_⟩, frame.createdAt⟩
      · rw [frame.clock]
        exact inv.unstopped
      · rw [frame.createdAt]
        exact inv.created
      · intro since paused
        rw [frame.slaPausedAt] at paused
        rw [frame.createdAt]
        simp only [withResult, withBefore_keeps] at paused
        exact pauses_pausedAt intl _ p ordered pOk since paused
      · intro written same
        rw [frame.slaTargets] at same
        obtain rfl := Option.some.inj same
        rw [frame.createdAt, frame.slaPausedMs, frame.slaPausedAt]
        refine ⟨askedInv.saved, askedInv.additive, ?_⟩
        intro start started
        obtain ⟨low, high, _⟩ := askedInv.started start started
        refine ⟨low, high, ?_⟩
        simp only [withResult, withBefore_keeps]
        exact snapshot_after intl _ p ordered pOk start started

/-- The evaluations a call makes: before a reply, after what was heard, and again in the
call it makes to itself. -/
inductive Evaluates (occasion : Occasion) : SlaEvent → Ticket → SlaClockInput → Prop
  | before {ticket : Ticket} {policy : Option PolicyRow} {stored : Option SlaTerms}
      {terms : SlaTerms} (live : ticket.live = true)
      (policyOk : policyOf occasion.policyRow = .ok policy)
      (storedOk : storedTerms intl ticket = .ok stored)
      (termsOk : termsFor intl .reply ticket.priority policy stored = .ok (some terms)) :
      Evaluates occasion .reply ticket (clockInput ticket occasion.now terms)
  | after {event : SlaEvent} {ticket : Ticket} {policy : Option PolicyRow}
      {stored : Option SlaTerms} {terms asked : SlaTerms} (live : ticket.live = true)
      (policyOk : policyOf occasion.policyRow = .ok policy)
      (storedOk : storedTerms intl ticket = .ok stored)
      (termsOk : termsFor intl event ticket.priority policy stored = .ok (some terms))
      (heardOk : heard intl event ticket occasion.now terms = .ok asked) :
      Evaluates occasion event ticket (clockInput ticket occasion.now asked)
  | again {event : SlaEvent} {ticket : Ticket} {state : Escalation} {input : SlaClockInput}
      (passed : syncPass intl occasion event ticket = .ok state) (raised : state.raised = true)
      (later : Evaluates occasion .escalation_priority state.ticket input) :
      Evaluates occasion event ticket input

theorem Evaluates.ordered {occasion : Occasion} {event : SlaEvent} {input : SlaClockInput}
    (evaluates : Evaluates intl occasion event ticket input) (inv : TicketInv intl occasion.now ticket)
    (additive : AdditivePolicy intl occasion.policyRow ticket.createdAt) :
    Ordered intl input ∧ input.now = occasion.now := by
  induction evaluates with
  | @before ticket policy stored terms live policyOk storedOk termsOk =>
    have storedEq := storedTerms_ok intl ticket stored
      (fun terms frozen => (inv.terms terms frozen).saved) storedOk
    have termsInv := termsFor_inv intl .reply ticket.priority _ policy stored terms _ _ _ _ policyOk
      additive (fun terms same => inv.terms terms (storedEq ▸ same)) termsOk
    exact ⟨inv.ordered intl terms termsInv, rfl⟩
  | @after event ticket policy stored terms asked live policyOk storedOk termsOk heardOk =>
    have storedEq := storedTerms_ok intl ticket stored
      (fun terms frozen => (inv.terms terms frozen).saved) storedOk
    have termsInv := termsFor_inv intl event ticket.priority _ policy stored terms _ _ _ _ policyOk
      additive (fun terms same => inv.terms terms (storedEq ▸ same)) termsOk
    have askedInv := heard_inv intl event ticket occasion.now terms asked inv.created inv.paused
      termsInv heardOk
    exact ⟨inv.ordered intl asked askedInv, rfl⟩
  | again passed raised later ih =>
    obtain ⟨kept, same⟩ := syncPass_inv intl occasion _ _ _ inv additive passed
    exact ih kept (same ▸ additive)

/-- Calls in order of time, none before `last`. -/
def Chronological : ℤ → List Call → Prop
  | _, [] => True
  | last, call :: rest => last ≤ call.occasion.now ∧ Chronological call.occasion.now rest

def Change.Unstopped (change : Change) : Prop :=
  ∀ clock terminal, change = .state clock terminal → clock ≠ .STOPPED

theorem TicketInv.later {now later : ℤ} (inv : TicketInv intl now ticket) (order : now ≤ later) :
    TicketInv intl later ticket where
  unstopped := inv.unstopped
  created := inv.created.trans order
  paused := by
    intro since paused
    obtain ⟨low, high⟩ := inv.paused since paused
    exact ⟨low, high.trans order⟩
  terms := by
    intro terms frozen
    have kept := inv.terms terms frozen
    refine ⟨kept.saved, kept.additive, ?_⟩
    intro start started
    obtain ⟨low, high, snapshot⟩ := kept.started start started
    exact ⟨low, high.trans order, snapshot⟩

theorem TicketInv.apply {now : ℤ} (inv : TicketInv intl now ticket) (change : Change)
    (unstopped : change.Unstopped) :
    TicketInv intl now (change.apply now ticket) ∧
      (change.apply now ticket).createdAt = ticket.createdAt := by
  cases change with
  | create | tick | requester => exact ⟨inv, rfl⟩
  | state clock terminal =>
    exact ⟨⟨unstopped clock terminal rfl, inv.created, inv.paused, inv.terms⟩, rfl⟩
  | reply | priority => exact ⟨⟨inv.unstopped, inv.created, inv.paused, inv.terms⟩, rfl⟩

theorem commit_inv (call : Call) (ticket : Ticket) (last : ℤ) (inv : TicketInv intl last ticket)
    (order : last ≤ call.occasion.now) (unstopped : call.change.Unstopped)
    (additive : AdditivePolicy intl call.occasion.policyRow ticket.createdAt) :
    TicketInv intl call.occasion.now (commit intl ticket call) ∧
      (commit intl ticket call).createdAt = ticket.createdAt := by
  have here := inv.later intl order
  unfold commit
  cases performed : perform intl call ticket with
  | error failure => exact ⟨here, rfl⟩
  | ok next =>
    obtain ⟨applied, same⟩ := here.apply intl call.change unstopped
    apply syncWithin_keeps intl call.occasion
      (fun t => TicketInv intl call.occasion.now t ∧ t.createdAt = ticket.createdAt) _ 5 _ _ next
      ⟨applied, same⟩ performed
    intro event t state kept passed
    obtain ⟨keptState, sameState⟩ := syncPass_inv intl call.occasion event t state kept.1
      (kept.2.symm ▸ additive) passed
    exact ⟨keptState, sameState.trans kept.2⟩

theorem run_inv (calls : List Call) (ticket : Ticket) (last : ℤ) (inv : TicketInv intl last ticket)
    (unstopped : ∀ call ∈ calls, call.change.Unstopped)
    (additive : ∀ call ∈ calls, AdditivePolicy intl call.occasion.policyRow ticket.createdAt)
    (next : Call) (ordered : Chronological last (calls ++ [next])) :
    TicketInv intl next.occasion.now (run intl ticket calls) ∧
      (run intl ticket calls).createdAt = ticket.createdAt := by
  induction calls generalizing ticket last with
  | nil => exact ⟨inv.later intl ordered.1, rfl⟩
  | cons call rest ih =>
    obtain ⟨kept, same⟩ := commit_inv intl call ticket last inv ordered.1
      (unstopped call List.mem_cons_self) (additive call List.mem_cons_self)
    obtain ⟨final, sameFinal⟩ := ih (commit intl ticket call) call.occasion.now kept
      (fun other member => unstopped other (List.mem_cons_of_mem call member))
      (fun other member => same ▸ additive other (List.mem_cons_of_mem call member)) ordered.2
    exact ⟨final, sameFinal.trans same⟩

theorem newTicket_inv (createdAt : ℤ) (priority : Priority) (clock : SlaClock) (terminal : Bool)
    (assignees : List String) (running : clock ≠ .STOPPED) :
    TicketInv intl createdAt (newTicket createdAt priority clock terminal assignees) :=
  ⟨running, le_rfl, by simp [newTicket], by simp [newTicket]⟩

/-- In every evaluation of every call of a run, an active metric is breached exactly when
its due date has come, running or paused, and no business time remains exactly when
some active metric is breached. -/
theorem due_agrees_with_status (createdAt : ℤ) (priority : Priority) (clock : SlaClock)
    (terminal : Bool) (assignees : List String) (calls : List Call) (call : Call)
    (ordered : Chronological createdAt (calls ++ [call])) (running : clock ≠ .STOPPED)
    (unstopped : ∀ c ∈ calls ++ [call], c.change.Unstopped)
    (additive : ∀ c ∈ calls ++ [call], AdditivePolicy intl c.occasion.policyRow createdAt)
    (input : SlaClockInput) (result : SlaClockResult)
    (evaluates : Evaluates intl call.occasion call.change.event
      (call.change.apply call.occasion.now
        (run intl (newTicket createdAt priority clock terminal assignees) calls)) input)
    (returns : evaluateSla intl input = .ok result) :
    ∃ readings, slaReadings intl input = .ok readings ∧
      Agrees call.occasion.now readings result := by
  obtain ⟨inv, same⟩ := run_inv intl calls _ createdAt
    (newTicket_inv intl createdAt priority clock terminal assignees running)
    (fun c member => unstopped c (List.mem_append_left _ member))
    (fun c member => additive c (List.mem_append_left _ member)) call ordered
  obtain ⟨applied, sameApplied⟩ := inv.apply intl call.change (unstopped call (by simp))
  have sameCreated := sameApplied.trans same
  obtain ⟨inOrder, now⟩ := evaluates.ordered intl applied
    (sameCreated.symm ▸ additive call (by simp))
  obtain ⟨nonneg, _, p, readings, pOk, readingsOk, rfl⟩ :=
    (evaluateSla_ok_iff intl input result).mp returns
  refine ⟨readings, ?_, now ▸ evaluation_agrees intl input p readings inOrder nonneg pOk readingsOk⟩
  simp only [slaReadings, pOk, ok_bind]
  exact readingsOk

/-! A desk on office hours in UTC, and a ticket of Monday 2026-10-05 09:00 that is paused
at 10:00, when its first hour is over. -/

def utcRuntime : Intl := Intl.only utcZone (by decide)

def officePolicy : PolicyRow where
  enabled := true
  calendarId := some "office"
  targets := fun
    | .high => some ⟨some 60, some 30, some 240⟩
    | _ => none
  atRiskPercent := 75
  escalation := []
  calendar := some utcOffice

def officeCall (change : Change) (now : ℤ) : Call := ⟨change, now, some officePolicy, fun _ => false⟩

theorem officePolicy_additive (createdAt : ℤ) (late : (year100 + 1) * DAY_MS ≤ createdAt) :
    AdditivePolicy utcRuntime (some officePolicy) createdAt := by
  intro row cal saved same found savedOk
  obtain rfl := Option.some.inj same
  obtain rfl := Option.some.inj found
  have own : validateCalendarForSave utcRuntime utcOffice.toJson = .ok utcOffice :=
    ok_of_toOption (by decide)
  rw [own] at savedOk
  obtain rfl := Except.ok.inj savedOk
  have additive := additive_of_regular utcRuntime _ _ utcOffice_regular
  intro a b c x y z fromA fromB fromC
  exact additive a b c x y z (late.trans fromA) (late.trans fromB) (late.trans fromC)

def pausedCalls : List Call :=
  [officeCall .create 1791190800000, officeCall (.state .PAUSED false) 1791194400000]

def pausedTerms : SlaTerms :=
  ⟨some .high, some 60, some 30, some 240, 75, some utcOffice, none, 0, [.BREACHED]⟩

def pausedInput : SlaClockInput :=
  ⟨1791190800000, 1791216000000, .PAUSED, none, none, 0, some 1791194400000, pausedTerms, .BREACHED⟩

def pausedResult : SlaClockResult :=
  ⟨some 1791216000000, none, some 1791284400000, 0, some 1791194400000, .BREACHED,
    some .firstResponse, some 0⟩

-- After six hours of pause the first response is due at 16:00, the instant of the tick.
theorem due_agrees_with_status_in_pause :
    evaluateSla utcRuntime pausedInput = .ok pausedResult ∧
      ∃ readings, slaReadings utcRuntime pausedInput = .ok readings ∧
        Agrees 1791216000000 readings pausedResult := by
  have returns : evaluateSla utcRuntime pausedInput = .ok pausedResult :=
    ok_of_toOption (by decide +kernel)
  refine ⟨returns, due_agrees_with_status utcRuntime 1791190800000 .high .RUNNING false []
    pausedCalls (officeCall .tick 1791216000000) ?_ (by decide) ?_ ?_ pausedInput pausedResult ?_
    returns⟩
  · simp [Chronological, pausedCalls, officeCall]
  · intro call member clock terminal same
    simp only [pausedCalls, List.cons_append, List.nil_append, List.mem_cons, List.not_mem_nil,
      or_false] at member
    rcases member with rfl | rfl | rfl
    · cases same
    · cases same
      decide
    · cases same
  · intro call member
    have policy : call.occasion.policyRow = some officePolicy := by
      simp only [pausedCalls, List.cons_append, List.nil_append, List.mem_cons, List.not_mem_nil,
        or_false] at member
      rcases member with rfl | rfl | rfl <;> rfl
    rw [policy]
    exact officePolicy_additive 1791190800000 (by decide)
  · have ticket : run utcRuntime (newTicket 1791190800000 .high .RUNNING false []) pausedCalls =
        { newTicket 1791190800000 .high .PAUSED false [] with
          slaStatus := .BREACHED
          firstResponseDueAt := some 1791194400000
          resolutionDueAt := some 1791205200000
          slaPausedAt := some 1791194400000
          slaTargets := some pausedTerms
          activities := [.sla_breached (some .firstResponse) .ON_TRACK] } := by
      decide +kernel
    rw [ticket]
    exact .after rfl rfl (@ok_of_toOption _ _ _ (some pausedTerms) (by decide)) rfl rfl

end Droplet.Sla
