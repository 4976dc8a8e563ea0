import Droplet.Sla.Accrual

/-! A breach is announced once for as long as the ticket keeps its terms: the notice of a
breach is never taken out of the terms, and the terms are lost only by a call that finds
no target for the priority. -/

namespace Droplet.Sla

open ZonedTime BusinessTime Fallible

variable (intl : Intl)

def Activity.isBreach : Activity → Bool
  | .sla_breached _ _ => true
  | _ => false

def breaches (ticket : Ticket) : ℕ := ticket.activities.countP Activity.isBreach

/-- The terms hold the notice of a breach. -/
def Told (ticket : Ticket) : Prop :=
  ∃ terms ∈ ticket.slaTargets, .BREACHED ∈ terms.notified

instance (ticket : Ticket) : Decidable (Told ticket) :=
  inferInstanceAs (Decidable (∃ terms ∈ ticket.slaTargets, .BREACHED ∈ terms.notified))

/-- The breaches that may still be announced under the terms. -/
def allowance (ticket : Ticket) : ℕ := if Told ticket then 0 else 1

theorem allowance_le (ticket : Ticket) : allowance ticket ≤ 1 := by
  unfold allowance
  split <;> omega

theorem allowance_told {ticket : Ticket} (told : Told ticket) : allowance ticket = 0 := if_pos told

variable (event : SlaEvent)

theorem termsFor_told (priority : Priority) (policy : Option PolicyRow) (ticket : Ticket)
    (stored : Option SlaTerms) (terms : SlaTerms) (told : Told ticket)
    (storedOk : storedTerms intl ticket = .ok stored)
    (returns : termsFor intl event priority policy stored = .ok (some terms)) : .BREACHED ∈ terms.notified := by
  obtain ⟨frozen, found, notice⟩ := told
  simp only [storedTerms, Option.mem_def.mp found] at storedOk
  obtain ⟨parsed, parsedOk, rest⟩ := bind_ok_iff.mp storedOk
  rw [pure_ok_iff] at rest
  subst rest
  obtain ⟨_, _, calendar, _, rfl⟩ := (parseSlaTerms_ok_iff intl frozen parsed).mp parsedOk
  rcases termsFor_cases intl event priority policy _ terms returns with same | afresh
  · exact Option.some.inj same ▸ notice
  · obtain ⟨row, target, calendar, _, _, _, rfl⟩ := afresh
    simp only [freshTerms, carriedNotices]
    split
    · exact notice
    · exact List.mem_filter.mpr ⟨notice, by decide⟩

theorem afterReply_told (status : SlaStatus) (notified : List SlaAlert)
    (notice : .BREACHED ∈ notified) : .BREACHED ∈ afterReply event status notified := by
  unfold afterReply
  split
  · exact List.mem_filter.mpr ⟨notice, by decide⟩
  · exact notice

theorem transitionOf_told (status : SlaStatus) (notified : List SlaAlert)
    (notice : .BREACHED ∈ notified) : transitionOf status notified ≠ some .BREACHED := by
  cases status <;> simp [transitionOf, alertOf, notice]

theorem noticesAfter_breached (notified : List SlaAlert) : .BREACHED ∈ noticesAfter event .BREACHED notified := by
  simp only [noticesAfter, transitionOf, alertOf]
  split
  · next told => simpa using told
  · simp

variable (occasion : Occasion)

theorem actions_breaches (assignees : List String) (actions : List EscalationAction) (state : Escalation) :
    breaches (actions.foldl (act occasion assignees) state).ticket = breaches state.ticket := by
  induction actions generalizing state with
  | nil => rfl
  | cons action rest ih =>
    refine (ih _).trans ?_
    cases action with
    | raise_priority =>
      simp only [act]
      split
      · rfl
      · simp [breaches, Activity.isBreach]
    | reassign userId =>
      simp only [act]
      split
      · simp [breaches, Activity.isBreach]
      · rfl
    | notify userIds => rfl

theorem settle_breaches (event : SlaEvent) (policy : Option PolicyRow) (ticket : Ticket)
    (terms : SlaTerms) (result : SlaClockResult) :
    breaches (settle occasion event policy ticket terms result).ticket = breaches ticket +
      (if transitionOf result.slaStatus (afterReply event result.slaStatus terms.notified) =
        some .BREACHED then 1 else 0) := by
  simp only [settle]
  split
  · next quiet => simp [quiet, breaches, withResult]
  · next alert loud =>
    rw [actions_breaches, loud]
    cases alert <;> simp [breaches, withResult, announcement, Activity.isBreach]

/-- What the announcements of a pass or a call come to. -/
structure Careful (ticket next : Ticket) : Prop where
  few : breaches next ≤ breaches ticket + allowance ticket
  kept : next.slaTargets ≠ none → breaches next + allowance next ≤ breaches ticket + allowance ticket
  stays : ticket.slaStatus = .BREACHED →
    next.slaStatus = .BREACHED ∨ (next.slaTargets = none ∧ next.slaStatus = .NONE)

theorem Careful.refl (ticket : Ticket) : Careful ticket ticket :=
  ⟨Nat.le_add_right _ _, fun _ => le_rfl, fun breached => .inl breached⟩

theorem Careful.trans {ticket mid next : Ticket} (first : Careful ticket mid)
    (second : Careful mid next) (terms : mid.slaTargets ≠ none) : Careful ticket next where
  few := second.few.trans (first.kept terms)
  kept := fun later => (second.kept later).trans (first.kept terms)
  stays := by
    intro breached
    rcases first.stays breached with still | lost
    · exact second.stays still
    · exact absurd lost.1 terms

def Noted (ticket : Ticket) : Prop := ticket.slaStatus = .BREACHED → Told ticket

theorem evaluation_stays (input : SlaClockInput) (result : SlaClockResult)
    (before : Option SlaClockResult) (breached : input.previousStatus = .BREACHED)
    (returns : evaluateSla intl input = .ok result) : (withBefore before result).slaStatus = .BREACHED := by
  obtain ⟨_, _, p, readings, _, _, rfl⟩ := (evaluateSla_ok_iff intl input result).mp returns
  have status : (conclude input p readings).slaStatus = .BREACHED := if_pos breached
  cases before with
  | none => exact status
  | some earlier =>
    simp only [withBefore]
    split
    · rfl
    · exact status

theorem settle_told_iff (event : SlaEvent) (policy : Option PolicyRow) (ticket : Ticket)
    (terms : SlaTerms) (result : SlaClockResult) :
    Told (settle occasion event policy ticket terms result).ticket ↔
      .BREACHED ∈ noticesAfter event result.slaStatus terms.notified := by
  have frame := settle_frame occasion event policy ticket terms result
  simp [Told, frame.slaTargets, withResult]

theorem settle_allowance (event : SlaEvent) (policy : Option PolicyRow) (ticket : Ticket)
    (terms : SlaTerms) (result : SlaClockResult) (carried : Told ticket → .BREACHED ∈ terms.notified) :
    breaches (settle occasion event policy ticket terms result).ticket +
        allowance (settle occasion event policy ticket terms result).ticket ≤
      breaches ticket + allowance ticket := by
  have counted := settle_breaches occasion event policy ticket terms result
  have told_iff := settle_told_iff occasion event policy ticket terms result
  by_cases told : Told ticket
  · -- The notice is carried over, so there is nothing to announce.
    have still := afterReply_told event result.slaStatus _ (carried told)
    have toldNext := told_iff.mpr (List.mem_append_left _ still)
    rw [counted, if_neg (transitionOf_told _ _ still), allowance_told toldNext]
    omega
  · have one : allowance ticket = 1 := if_neg told
    by_cases announces : transitionOf result.slaStatus
        (afterReply event result.slaStatus terms.notified) = some .BREACHED
    · have toldNext : Told (settle occasion event policy ticket terms result).ticket := by
        rw [told_iff, noticesAfter, announces]
        simp
      rw [counted, if_pos announces, allowance_told toldNext, one]
    · rw [counted, if_neg announces, one]
      have most := allowance_le (settle occasion event policy ticket terms result).ticket
      omega

theorem passes_careful (event : SlaEvent) (ticket : Ticket) (state : Escalation)
    (noted : Noted ticket) (passes : Passes intl occasion event ticket state) :
    Careful ticket state.ticket ∧ Noted state.ticket ∧
      (state.raised = true → state.ticket.slaTargets ≠ none) := by
  cases passes with
  | absent gone => exact ⟨.refl ticket, noted, by simp⟩
  | lapsed _ policyOk storedOk lapses =>
    refine ⟨⟨?_, ?_, fun _ => .inr ⟨rfl, rfl⟩⟩, ?_, by simp⟩
    · exact Nat.le_add_right (breaches ticket) (allowance ticket)
    · intro some_terms
      exact absurd rfl some_terms
    · intro breached
      cases breached
  | @evaluated policy stored terms asked before result _ policyOk storedOk termsOk beforeOk heardOk
      resultOk =>
      obtain ⟨_, notified⟩ := heard_frame intl event ticket occasion.now terms asked heardOk
      have frame := settle_frame occasion event policy ticket asked (withBefore before result)
      have bound := settle_allowance occasion event policy ticket asked (withBefore before result)
        (fun told => notified.symm ▸ termsFor_told intl event ticket.priority policy ticket stored
          terms told storedOk termsOk)
      refine ⟨⟨by omega, fun _ => bound, ?_⟩, ?_, ?_⟩
      · intro breached
        left
        rw [frame.slaStatus]
        exact evaluation_stays intl _ result before breached resultOk
      · intro breached
        rw [frame.slaStatus] at breached
        have status : (withBefore before result).slaStatus = .BREACHED := breached
        rw [settle_told_iff, status]
        exact noticesAfter_breached event asked.notified
      · intro _
        rw [frame.slaTargets]
        simp [withResult]

theorem syncWithin_careful (fuel : ℕ) (event : SlaEvent) (ticket next : Ticket)
    (noted : Noted ticket) (returns : syncWithin intl occasion fuel event ticket = .ok next) :
    Careful ticket next ∧ Noted next := by
  induction fuel generalizing event ticket with
  | zero => cases returns
  | succ fuel ih =>
    rw [syncWithin] at returns
    obtain ⟨state, passed, returns⟩ := bind_ok_iff.mp returns
    obtain ⟨careful, notedState, terms⟩ := passes_careful intl occasion event ticket state noted
      ((syncPass_ok_iff intl occasion event ticket state).mp passed)
    cases raised : state.raised with
    | false =>
      simp only [raised, Bool.false_eq_true, if_false, pure_ok_iff] at returns
      exact returns ▸ ⟨careful, notedState⟩
    | true =>
      simp only [raised, if_true] at returns
      obtain ⟨later, notedNext⟩ := ih .escalation_priority state.ticket notedState returns
      exact ⟨careful.trans later (terms raised), notedNext⟩

theorem Change.apply_notices (change : Change) (now : ℤ) (ticket : Ticket) :
    (change.apply now ticket).slaStatus = ticket.slaStatus ∧
      (change.apply now ticket).activities = ticket.activities := by
  cases change <;> exact ⟨rfl, rfl⟩

theorem commit_careful (call : Call) (ticket : Ticket) (noted : Noted ticket) :
    Careful ticket (commit intl ticket call) ∧ Noted (commit intl ticket call) := by
  unfold commit
  cases performed : perform intl call ticket with
  | error failure => exact ⟨.refl ticket, noted⟩
  | ok next =>
    obtain ⟨_, targets, _⟩ := call.change.apply_frame call.occasion.now ticket
    obtain ⟨status, activities⟩ := call.change.apply_notices call.occasion.now ticket
    have told : Told (call.change.apply call.occasion.now ticket) ↔ Told ticket := by
      simp only [Told, targets]
    obtain ⟨careful, notedNext⟩ := syncWithin_careful intl call.occasion 5 call.change.event _ next
      (by rwa [Noted, told, status]) performed
    have sameBreaches : breaches (call.change.apply call.occasion.now ticket) = breaches ticket := by
      rw [breaches, activities, breaches]
    have sameAllowance : allowance (call.change.apply call.occasion.now ticket) =
        allowance ticket := if_congr told rfl rfl
    refine ⟨⟨?_, ?_, ?_⟩, notedNext⟩
    · exact sameBreaches ▸ sameAllowance ▸ careful.few
    · exact sameBreaches ▸ sameAllowance ▸ careful.kept
    · exact status ▸ careful.stays

def HoldsTerms : Ticket → List Call → Prop
  | _, [] => True
  | ticket, call :: rest =>
    (commit intl ticket call).slaTargets ≠ none ∧ HoldsTerms (commit intl ticket call) rest

theorem run_careful (calls : List Call) (last : Call) (ticket : Ticket) (noted : Noted ticket)
    (held : HoldsTerms intl ticket calls) : Careful ticket (run intl ticket (calls ++ [last])) := by
  induction calls generalizing ticket with
  | nil => exact (commit_careful intl last ticket noted).1
  | cons call rest ih =>
    obtain ⟨careful, notedNext⟩ := commit_careful intl call ticket noted
    exact careful.trans (ih (commit intl ticket call) notedNext held.2) held.1

theorem run_noted (calls : List Call) (ticket : Ticket) (noted : Noted ticket) :
    Noted (run intl ticket calls) := by
  induction calls generalizing ticket with
  | nil => exact noted
  | cons call rest ih => exact ih _ (commit_careful intl call ticket noted).2

/-- From any point of a run on, and up to and with the next call that leaves the ticket
without terms, at most one breach is announced; a ticket that is BREACHED at that point
announces none and stays BREACHED unless that call takes its terms. -/
theorem breach_announced_once (createdAt : ℤ) (priority : Priority) (clock : SlaClock)
    (terminal : Bool) (assignees : List String) (earlier calls : List Call) (last : Call)
    (ticket : Ticket)
    (reached : ticket = run intl (newTicket createdAt priority clock terminal assignees) earlier)
    (held : HoldsTerms intl ticket calls) :
    breaches (run intl ticket (calls ++ [last])) ≤ breaches ticket + 1 ∧
      (ticket.slaStatus = .BREACHED →
        breaches (run intl ticket (calls ++ [last])) ≤ breaches ticket ∧
          ((run intl ticket (calls ++ [last])).slaStatus = .BREACHED ∨
            ((run intl ticket (calls ++ [last])).slaTargets = none ∧
              (run intl ticket (calls ++ [last])).slaStatus = .NONE))) := by
  have noted : Noted ticket := by
    rw [reached]
    apply run_noted
    intro breached
    cases breached
  have careful := run_careful intl calls last ticket noted held
  constructor
  · have most := allowance_le ticket
    have few := careful.few
    omega
  · intro breached
    refine ⟨?_, careful.stays breached⟩
    have few := careful.few
    rwa [allowance_told (noted breached), Nat.add_zero] at few

theorem breach_announced_once_on_the_desk :
    breaches (run utcRuntime deskTicket [deskCall .create 0]) = 0 ∧
      breaches (run utcRuntime (run utcRuntime deskTicket [deskCall .create 0])
        [deskCall .tick 60, deskCall .tick 300]) ≤ 0 + 1 := by
  have none_yet : breaches (run utcRuntime deskTicket [deskCall .create 0]) = 0 := by
    decide
  refine ⟨none_yet, none_yet ▸ (breach_announced_once utcRuntime 0 .high .RUNNING false []
    [deskCall .create 0] [deskCall .tick 60] (deskCall .tick 300) _ rfl ?_).1⟩
  exact ⟨by decide, trivial⟩

/-- The first response is missed at minute 60; the priority then goes to one without a
target and comes back. -/
def retargetedCalls : List Call :=
  [deskCall .create 0, deskCall .tick 60, deskCall (.priority .low) 70,
    deskCall (.priority .high) 80]

-- The notice went with the terms.
theorem breach_announced_twice :
    (run utcRuntime deskTicket (retargetedCalls.take 2)).slaStatus = .BREACHED ∧
      (run utcRuntime deskTicket (retargetedCalls.take 3)).slaStatus = .NONE ∧
      breaches (run utcRuntime deskTicket retargetedCalls) = 2 := by
  decide

end Droplet.Sla
