import Droplet.Sla.Dues
import Droplet.Sla.Ticks

/-! What the paused time of a ticket adds up to over a run: the business time of the closed
pauses, as long as the ticket keeps its terms, and whatever ticks come in between. -/

namespace Droplet.Sla

open ZonedTime BusinessTime Fallible

variable (intl : Intl)

/-- The second run is the first with ticks put in. -/
inductive Inserted : List Call → List Call → Prop
  | nil : Inserted [] []
  | keep (call : Call) {calls extended : List Call} (rest : Inserted calls extended) :
      Inserted (call :: calls) (call :: extended)
  | tick (occasion : Occasion) {calls extended : List Call} (rest : Inserted calls extended) :
      Inserted calls (⟨.tick, occasion⟩ :: extended)

theorem Inserted.mem {calls extended : List Call} (inserted : Inserted calls extended) :
    ∀ call ∈ calls, call ∈ extended := by
  induction inserted with
  | nil => simp
  | keep call rest ih =>
    intro other member
    rcases List.mem_cons.mp member with rfl | later
    · exact List.mem_cons_self
    · exact List.mem_cons_of_mem call (ih other later)
  | tick occasion rest ih =>
    intro other member
    exact List.mem_cons_of_mem _ (ih other member)

theorem Change.apply_frame (change : Change) (now : ℤ) (ticket : Ticket) :
    (change.apply now ticket).live = ticket.live ∧
      (change.apply now ticket).slaTargets = ticket.slaTargets ∧
      (change.apply now ticket).slaPausedMs = ticket.slaPausedMs ∧
      (change.apply now ticket).slaPausedAt = ticket.slaPausedAt := by
  cases change <;> exact ⟨rfl, rfl, rfl, rfl⟩

variable (call : Call)

theorem perform_settled (ticket next : Ticket) (settled : Settled intl ticket)
    (quiet : NoRaise call.occasion.policyRow) (returns : perform intl call ticket = .ok next) :
    Settled intl next := by
  obtain ⟨state, rfl, passes⟩ := (perform_ok_iff intl call ticket next quiet).mp returns
  obtain ⟨live, targets, _⟩ := call.change.apply_frame call.occasion.now ticket
  apply passes_settled intl _ _ _ state (live.trans settled.live) _ _ passes
  · rw [targets]
    exact settled.saved
  · rw [DistinctNotices, targets]
    exact settled.distinct

theorem commit_settled (ticket : Ticket) (settled : Settled intl ticket)
    (quiet : NoRaise call.occasion.policyRow) : Settled intl (commit intl ticket call) := by
  unfold commit
  cases performed : perform intl call ticket with
  | error failure => exact settled
  | ok next => exact perform_settled intl call ticket next settled quiet performed

theorem perform_same (a b next : Ticket) (same : SameClock a b) (settledA : Settled intl a)
    (settledB : Settled intl b) (quiet : NoRaise call.occasion.policyRow)
    (returns : perform intl call a = .ok next) :
    ∃ other, perform intl call b = .ok other ∧ SameClock next other ∧ SameDues next other := by
  obtain ⟨state, rfl, passes⟩ := (perform_ok_iff intl call a next quiet).mp returns
  have distinct : DistinctNotices (call.change.apply call.occasion.now b) := by
    rw [DistinctNotices, (call.change.apply_frame call.occasion.now b).2.1]
    exact settledB.distinct
  obtain ⟨other, otherPasses, sameNext, dues⟩ := passes_same intl _ _ _ _ state
    (same.apply call.change call.occasion.now) distinct quiet passes
  refine ⟨other.ticket, (perform_ok_iff intl call b _ quiet).mpr ⟨other, rfl, otherPasses⟩, sameNext, dues ?_⟩
  rw [(call.change.apply_frame call.occasion.now a).1]
  exact settledA.live

theorem commit_same (a b : Ticket) (same : SameClock a b) (settledA : Settled intl a)
    (settledB : Settled intl b) (quiet : NoRaise call.occasion.policyRow) :
    SameClock (commit intl a call) (commit intl b call) := by
  unfold commit
  cases first : perform intl call a with
  | ok next =>
    obtain ⟨other, second, sameNext, _⟩ := perform_same intl call a b next same settledA settledB quiet first
    rw [second]
    exact sameNext
  | error failure =>
    cases second : perform intl call b with
    | error other => exact same
    | ok other =>
      obtain ⟨next, back, _⟩ := perform_same intl call b a other same.symm settledB settledA quiet second
      rw [first] at back
      cases back

theorem commit_tick (occasion : Occasion) (ticket : Ticket) (settled : Settled intl ticket)
    (quiet : NoRaise occasion.policyRow) : SameClock ticket (commit intl ticket ⟨.tick, occasion⟩) := by
  unfold commit
  cases performed : perform intl ⟨.tick, occasion⟩ ticket with
  | error failure => exact .refl ticket
  | ok next =>
    obtain ⟨state, rfl, passes⟩ := (perform_ok_iff intl _ ticket next quiet).mp performed
    exact (tick_same intl occasion ticket state settled quiet passes).symm

theorem run_same (calls extended : List Call) (a b : Ticket) (inserted : Inserted calls extended)
    (same : SameClock a b) (settledA : Settled intl a) (settledB : Settled intl b)
    (quiet : ∀ call ∈ extended, NoRaise call.occasion.policyRow) :
    SameClock (run intl a calls) (run intl b extended) ∧ Settled intl (run intl a calls) ∧
      Settled intl (run intl b extended) := by
  induction inserted generalizing a b with
  | nil => exact ⟨same, settledA, settledB⟩
  | keep call rest ih =>
    have here := quiet call List.mem_cons_self
    exact ih (commit intl a call) (commit intl b call) (commit_same intl call a b same settledA settledB here)
      (commit_settled intl call a settledA here) (commit_settled intl call b settledB here)
      (fun other member => quiet other (List.mem_cons_of_mem call member))
  | tick occasion rest ih =>
    have here := quiet ⟨.tick, occasion⟩ List.mem_cons_self
    exact ih a (commit intl b ⟨.tick, occasion⟩)
      (same.trans (commit_tick intl occasion b settledB here)) settledA
      (commit_settled intl _ b settledB here)
      (fun other member => quiet other (List.mem_cons_of_mem _ member))

/-- A committed call as the history of the ticket's states has it. -/
structure Moment where
  now : ℤ
  clock : SlaClock
  solvedAt : Option ℤ

/-- The pause that is running, and those that are over. -/
structure PauseLog where
  since : Option ℤ
  closed : List (ℤ × ℤ)

/-- A pause runs while the clock is paused; one that a stop ends is over when the ticket
was solved. -/
def PauseLog.record (log : PauseLog) (moment : Moment) : PauseLog :=
  match moment.clock, log.since with
  | .PAUSED, none => ⟨some moment.now, log.closed⟩
  | .PAUSED, some since => ⟨some since, log.closed⟩
  | .RUNNING, some since => ⟨none, log.closed ++ [(since, moment.now)]⟩
  | .STOPPED, some since => ⟨none, log.closed ++ [(since, moment.solvedAt.getD moment.now)]⟩
  | _, none => ⟨none, log.closed⟩

def moments : Ticket → List Call → List Moment
  | _, [] => []
  | ticket, call :: rest =>
    match perform intl call ticket with
    | .ok next => ⟨call.occasion.now, next.clock, next.solvedAt⟩ :: moments next rest
    | .error _ => moments ticket rest

/-- The business time of some pauses; one that ends before it begins has none. -/
def pausedTotal (calendar : Option BusinessCalendar) : List (ℤ × ℤ) → Result ℤ
  | [] => .ok 0
  | (since, ending) :: rest => do
      let length ← businessMsBetween intl since ending calendar
      let others ← pausedTotal calendar rest
      return max 0 length + others

theorem pausedTotal_append (calendar : Option BusinessCalendar) (closed : List (ℤ × ℤ))
    (since ending total length : ℤ) (before : pausedTotal intl calendar closed = .ok total)
    (last : businessMsBetween intl since ending calendar = .ok length) :
    pausedTotal intl calendar (closed ++ [(since, ending)]) = .ok (total + max 0 length) := by
  induction closed generalizing total with
  | nil =>
    have zero : 0 = total := Except.ok.inj before
    simp only [List.nil_append, pausedTotal, last, ok_bind, ← zero]
    rw [pure_ok_iff]
    omega
  | cons pause rest ih =>
    obtain ⟨first, second⟩ := pause
    obtain ⟨head, headOk, tail⟩ := bind_ok_iff.mp before
    obtain ⟨others, othersOk, sum⟩ := bind_ok_iff.mp tail
    rw [pure_ok_iff] at sum
    simp only [List.cons_append, pausedTotal, headOk, ok_bind, ih others othersOk]
    rw [pure_ok_iff]
    omega

/-- The ticket's pauses are those of the log; without terms it has had none. -/
structure Tracked (ticket : Ticket) (log : PauseLog) : Prop where
  since : ticket.slaPausedAt = log.since
  total : pausedTotal intl (ticket.slaTargets.bind SlaTerms.calendar) log.closed =
    .ok ticket.slaPausedMs
  fresh : ticket.slaTargets = none → log = ⟨none, []⟩

/-- The call leaves the ticket with terms: those it has, or the target of its priority where
the terms are computed afresh. -/
def Targeted (call : Call) (ticket : Ticket) : Prop :=
  if retargets call.change.event (call.change.apply call.occasion.now ticket).priority
      ticket.slaTargets then
    ∀ policy, policyOf call.occasion.policyRow = .ok policy →
      ∃ target, policy.bind (fun row =>
        row.targets (call.change.apply call.occasion.now ticket).priority) = some target
  else ticket.slaTargets ≠ none

/-- Every committed call leaves the ticket with terms, or the ticket has not been paused up
to then. -/
def AllTargeted : Ticket → PauseLog → List Call → Prop
  | _, _, [] => True
  | ticket, log, call :: rest =>
    match perform intl call ticket with
    | .ok next =>
      (Targeted call ticket ∨
        (log = ⟨none, []⟩ ∧ (call.change.apply call.occasion.now ticket).clock ≠ .PAUSED)) ∧
        AllTargeted next (log.record ⟨call.occasion.now, next.clock, next.solvedAt⟩) rest
    | .error _ => AllTargeted ticket log rest

theorem PauseLog.record_unpaused (moment : Moment) (running : moment.clock ≠ .PAUSED) :
    PauseLog.record ⟨none, []⟩ moment = ⟨none, []⟩ := by
  cases clock : moment.clock with
  | PAUSED => exact absurd clock running
  | RUNNING | STOPPED => simp [record, clock]

theorem Targeted.not_lapsed {call : Call} {ticket : Ticket} {policy : Option PolicyRow}
    (targeted : Targeted call ticket) (policyOk : policyOf call.occasion.policyRow = .ok policy)
    (lapses : termsFor intl call.change.event
      (call.change.apply call.occasion.now ticket).priority policy ticket.slaTargets =
        .ok Option.none) : False := by
  unfold Targeted at targeted
  unfold termsFor at lapses
  split at lapses
  · next afresh =>
    rw [if_pos afresh] at targeted
    obtain ⟨target, found⟩ := targeted policy policyOk
    cases policy with
    | none => cases found
    | some row =>
      simp only [Option.bind_some] at found
      simp only [found] at lapses
      obtain ⟨calendar, _, rest⟩ := bind_ok_iff.mp lapses
      rw [pure_ok_iff] at rest
      cases rest
  · next kept =>
    rw [if_neg kept] at targeted
    exact targeted (Except.ok.inj lapses)

theorem pauses_record (input : SlaClockInput) (p : Pauses) (log : PauseLog) (since : input.pausedAt = log.since)
    (total : pausedTotal intl input.terms.calendar log.closed = .ok input.pausedMs)
    (returns : pauses intl input = .ok p) :
    p.pausedAt = (log.record ⟨input.now, input.clock, input.solvedAt⟩).since ∧
      pausedTotal intl input.terms.calendar
        (log.record ⟨input.now, input.clock, input.solvedAt⟩).closed = .ok p.pausedMs := by
  simp only [pauses] at returns
  obtain ⟨accrued, accruedOk, rest⟩ := bind_ok_iff.mp returns
  rw [pure_ok_iff] at rest
  subst rest
  rw [since] at accruedOk ⊢
  cases running : log.since with
  | none =>
    rw [running] at accruedOk
    have zero : 0 = accrued := Except.ok.inj accruedOk
    cases clock : input.clock <;> simp [PauseLog.record, running, ← zero, total]
  | some start =>
    rw [running] at accruedOk
    obtain ⟨length, measured, sum⟩ := bind_ok_iff.mp accruedOk
    rw [pure_ok_iff] at sum
    subst sum
    cases clock : input.clock with
    | RUNNING =>
      simp only [clock, reduceCtorEq, if_false] at measured
      simp only [PauseLog.record, running, reduceCtorEq, if_false, true_and]
      exact pausedTotal_append intl _ _ _ _ _ _ total measured
    | PAUSED => simp [PauseLog.record, running, total]
    | STOPPED =>
      simp only [clock, if_true] at measured
      simp only [PauseLog.record, running, reduceCtorEq, if_false, true_and]
      exact pausedTotal_append intl _ _ _ _ _ _ total measured

/-- Measured in the calendar of the terms of the next call, the closed pauses come to what is
stored. -/
theorem Tracked.total_in_terms {ticket : Ticket} {log : PauseLog} (tracked : Tracked intl ticket log)
    (event : SlaEvent) (priority : Priority) (policy : Option PolicyRow) (terms : SlaTerms)
    (termsOk : termsFor intl event priority policy ticket.slaTargets = .ok (some terms)) :
    pausedTotal intl terms.calendar log.closed = .ok ticket.slaPausedMs := by
  have total := tracked.total
  rcases termsFor_cases intl event priority policy _ terms termsOk with same | afresh
  · rwa [same] at total
  · obtain ⟨row, target, kept, _, _, keptOk, rfl⟩ := afresh
    cases frozen : ticket.slaTargets with
    | none =>
      -- Whatever calendar the new terms have, there is no pause to measure in it.
      rw [tracked.fresh frozen] at total ⊢
      exact total
    | some old =>
      rw [frozen] at keptOk total
      have same : old.calendar = kept := Except.ok.inj keptOk
      exact same ▸ total

theorem perform_tracked (ticket next : Ticket) (log : PauseLog) (live : ticket.live = true)
    (saved : ∀ terms, ticket.slaTargets = some terms → CalendarSaved intl terms) (targeted : Targeted call ticket ∨
      (log = ⟨none, []⟩ ∧ (call.change.apply call.occasion.now ticket).clock ≠ .PAUSED))
    (quiet : NoRaise call.occasion.policyRow)
    (tracked : Tracked intl ticket log) (returns : perform intl call ticket = .ok next) :
    Tracked intl next (log.record ⟨call.occasion.now, next.clock, next.solvedAt⟩) := by
  obtain ⟨state, rfl, passes⟩ := (perform_ok_iff intl call ticket next quiet).mp returns
  obtain ⟨liveEq, targets, pausedMs, pausedAt⟩ :=
    call.change.apply_frame call.occasion.now ticket
  cases passes with
  | absent gone =>
    rw [liveEq, live] at gone
    cases gone
  | @lapsed policy stored _ policyOk storedOk lapses =>
    have storedEq := storedTerms_ok intl _ stored (targets ▸ saved) storedOk
    rw [targets] at storedEq
    subst storedEq
    rcases targeted with termed | unpaused
    · exact (termed.not_lapsed intl policyOk lapses).elim
    · obtain ⟨rfl, running⟩ := unpaused
      have same := PauseLog.record_unpaused ⟨call.occasion.now,
        (call.change.apply call.occasion.now ticket).clock,
        (call.change.apply call.occasion.now ticket).solvedAt⟩ running
      simp only [withoutSla, same]
      refine ⟨pausedAt.trans tracked.since, ?_, fun _ => rfl⟩
      rw [pausedMs]
      exact tracked.total
  | @evaluated policy stored terms asked before result _ policyOk storedOk termsOk beforeOk heardOk
      resultOk =>
      have storedEq := storedTerms_ok intl _ stored (targets ▸ saved) storedOk
      rw [targets] at storedEq
      subst storedEq
      obtain ⟨calendar, _⟩ := heard_frame intl _ _ _ terms asked heardOk
      have before_total := tracked.total_in_terms intl _ _ policy terms termsOk
      obtain ⟨_, _, p, readings, pOk, _, rfl⟩ := (evaluateSla_ok_iff intl _ result).mp resultOk
      have recorded := pauses_record intl _ p log (by simpa only [clockInput, pausedAt] using tracked.since)
        (by simpa only [clockInput, pausedMs, calendar] using before_total) pOk
      have frame := settle_frame call.occasion call.change.event policy
        (call.change.apply call.occasion.now ticket) asked (withBefore before
          (conclude (clockInput (call.change.apply call.occasion.now ticket) call.occasion.now asked)
            p readings))
      rw [frame.clock, frame.solvedAt]
      refine ⟨?_, ?_, ?_⟩
      · rw [frame.slaPausedAt]
        simpa only [withResult, withBefore_keeps, conclude, clockInput] using recorded.1
      · rw [frame.slaTargets, frame.slaPausedMs]
        simpa only [withResult, withBefore_keeps, conclude, clockInput, Option.bind_some] using recorded.2
      · rw [frame.slaTargets]
        simp [withResult]

theorem run_tracked (calls : List Call) (ticket : Ticket) (log : PauseLog)
    (settled : Settled intl ticket) (targeted : AllTargeted intl ticket log calls)
    (quiet : ∀ call ∈ calls, NoRaise call.occasion.policyRow) (tracked : Tracked intl ticket log) :
    Tracked intl (run intl ticket calls)
      ((moments intl ticket calls).foldl PauseLog.record log) := by
  induction calls generalizing ticket log with
  | nil => exact tracked
  | cons call rest ih =>
    have here := quiet call List.mem_cons_self
    have later := fun other member => quiet other (List.mem_cons_of_mem call member)
    have step := commit_settled intl call ticket settled here
    simp only [run, List.foldl_cons, moments, commit, AllTargeted] at step targeted ⊢
    cases performed : perform intl call ticket with
    | error failure =>
      simp only [performed] at step targeted ⊢
      exact ih ticket log settled targeted later tracked
    | ok next =>
      simp only [performed] at step targeted ⊢
      exact ih next _ step targeted.2 later (perform_tracked intl call ticket next log
        settled.live settled.saved targeted.1 here tracked performed)

theorem newTicket_settled (createdAt : ℤ) (priority : Priority) (clock : SlaClock)
    (terminal : Bool) (assignees : List String) :
    Settled intl (newTicket createdAt priority clock terminal assignees) :=
  ⟨rfl, by simp [newTicket], by simp [DistinctNotices, newTicket], by simp [newTicket]⟩

/-- In a run on a policy that never raises the priority, ticks put in anywhere change
neither the pauses of the ticket nor, after any later call, its due dates; and if every
call leaves the ticket with terms or finds it never paused, the paused time is the
business time of the closed pauses, in the calendar of the terms. -/
theorem ticks_keep_the_clock (createdAt : ℤ) (priority : Priority) (clock : SlaClock)
    (terminal : Bool) (assignees : List String) (calls extended : List Call)
    (inserted : Inserted calls extended)
    (quiet : ∀ call ∈ extended, NoRaise call.occasion.policyRow) (ticket : Ticket)
    (opened : ticket = newTicket createdAt priority clock terminal assignees) :
    ((run intl ticket extended).slaPausedMs = (run intl ticket calls).slaPausedMs ∧
        (run intl ticket extended).slaPausedAt = (run intl ticket calls).slaPausedAt ∧
        ∀ call next, NoRaise call.occasion.policyRow →
          perform intl call (run intl ticket calls) = .ok next →
          ∃ other, perform intl call (run intl ticket extended) = .ok other ∧
            SameClock next other ∧ SameDues next other) ∧
      (AllTargeted intl ticket ⟨none, []⟩ calls →
        pausedTotal intl ((run intl ticket calls).slaTargets.bind SlaTerms.calendar)
          ((moments intl ticket calls).foldl PauseLog.record ⟨none, []⟩).closed =
            .ok (run intl ticket calls).slaPausedMs) := by
  have settled : Settled intl ticket := by
    rw [opened]
    exact newTicket_settled intl createdAt priority clock terminal assignees
  obtain ⟨same, settledRun, settledExtended⟩ := run_same intl calls extended ticket ticket inserted
    (.refl ticket) settled settled quiet
  refine ⟨⟨same.slaPausedMs.symm, same.slaPausedAt.symm, ?_⟩, ?_⟩
  · intro call next quietCall returns
    exact perform_same intl call _ _ next same settledRun settledExtended quietCall returns
  · intro targeted
    have tracked : Tracked intl ticket ⟨none, []⟩ := by
      rw [opened]
      exact ⟨rfl, rfl, fun _ => rfl⟩
    exact (run_tracked intl calls ticket _ settled targeted
      (fun call member => quiet call (inserted.mem call member)) tracked).total

/-! A desk without a calendar, with targets for high tickets only. -/

def deskPolicy : PolicyRow where
  enabled := true
  calendarId := none
  targets := fun
    | .high => some ⟨some 60, none, some 240⟩
    | _ => none
  atRiskPercent := 75
  escalation := []
  calendar := none

def deskCall (change : Change) (minute : ℤ) : Call :=
  ⟨change, minute * 60000, some deskPolicy, fun _ => false⟩

theorem deskCall_quiet (change : Change) (minute : ℤ) : NoRaise (deskCall change minute).occasion.policyRow := by
  intro row same
  obtain rfl := Option.some.inj same
  simp [deskPolicy]

/-- Opened at high priority, paused from minute 10 to minute 30. -/
def deskTicket : Ticket := newTicket 0 .high .RUNNING false []

theorem ticks_keep_the_clock_in_pause :
    (run utcRuntime deskTicket [deskCall .create 0, deskCall (.state .PAUSED false) 10,
        deskCall .tick 20, deskCall (.state .RUNNING false) 30]).slaPausedMs = 1200000 ∧
      (run utcRuntime deskTicket [deskCall .create 0, deskCall (.state .PAUSED false) 10,
        deskCall .tick 20, deskCall (.state .RUNNING false) 30]).slaPausedMs =
          (run utcRuntime deskTicket [deskCall .create 0, deskCall (.state .PAUSED false) 10,
            deskCall (.state .RUNNING false) 30]).slaPausedMs := by
  refine ⟨by decide, (ticks_keep_the_clock utcRuntime 0 .high .RUNNING false [] _ _ ?_ ?_
    deskTicket rfl).1.1⟩
  · exact .keep _ (.keep _ (.tick _ (.keep _ .nil)))
  · intro call member
    simp only [List.mem_cons, List.not_mem_nil, or_false] at member
    rcases member with rfl | rfl | rfl | rfl <;> exact deskCall_quiet _ _

/-- A pause of twenty minutes, in which the priority goes to one without a target and
comes back half an hour after the pause. -/
def untargetedCalls : List Call :=
  [deskCall .create 0, deskCall (.state .PAUSED false) 10, deskCall (.priority .low) 20,
    deskCall (.state .RUNNING false) 30, deskCall (.priority .high) 60]

-- The pause goes on in the columns until the ticket has terms again.
theorem pause_outlives_the_terms :
    Chronological 0 untargetedCalls ∧
      (∀ call ∈ untargetedCalls, NoRaise call.occasion.policyRow) ∧
      ((moments utcRuntime deskTicket untargetedCalls).foldl PauseLog.record
        ⟨none, []⟩).closed = [(600000, 1800000)] ∧
      pausedTotal utcRuntime none [(600000, 1800000)] = .ok 1200000 ∧
      (run utcRuntime deskTicket untargetedCalls).slaPausedMs = 3000000 := by
  refine ⟨by simp [Chronological, untargetedCalls, deskCall], ?_, by decide,
    ok_of_toOption (by decide), by decide⟩
  intro call member
  simp only [untargetedCalls, List.mem_cons, List.not_mem_nil, or_false] at member
  rcases member with rfl | rfl | rfl | rfl | rfl <;> exact deskCall_quiet _ _

end Droplet.Sla
