import Droplet.Sla.Pass

/-! The call that calls itself: it ends after at most three passes, announces each alert at most once
over all of them, and never lowers the priority. What stops it is that the notices a pass has
written outlive the terms an escalation computes afresh. -/

namespace Droplet.Sla

open ZonedTime BusinessTime Fallible

variable (intl : Intl)

/-- A call with as many passes as it makes, the first included, and what it returns or throws. -/
inductive Calls (occasion : Occasion) : SlaEvent → Ticket → ℕ → Result Ticket → Prop
  | thrown {event : SlaEvent} {ticket : Ticket} {failure : RangeError}
      (pass : syncPass intl occasion event ticket = .error failure) :
      Calls occasion event ticket 1 (.error failure)
  | ended {event : SlaEvent} {ticket : Ticket} {state : Escalation}
      (pass : syncPass intl occasion event ticket = .ok state) (calm : state.raised = false) :
      Calls occasion event ticket 1 (.ok state.ticket)
  | again {event : SlaEvent} {ticket : Ticket} {state : Escalation} {passes : ℕ}
      {result : Result Ticket} (pass : syncPass intl occasion event ticket = .ok state)
      (raised : state.raised = true)
      (rest : Calls occasion .escalation_priority state.ticket passes result) :
      Calls occasion event ticket (passes + 1) result

def Activity.alert : Activity → Option SlaAlert
  | .sla_at_risk _ _ => some .AT_RISK
  | .sla_breached _ _ => some .BREACHED
  | .priority_updated _ _ => none
  | .assigned _ => none

def told (ticket : Ticket) : List SlaAlert := (ticket.slaTargets.map SlaTerms.notified).getD []

/-- The later row has these announcements more than the earlier one. -/
def Announced (before after : Ticket) (alerts : List SlaAlert) : Prop :=
  ∃ written, after.activities = before.activities ++ written ∧
    written.filterMap Activity.alert = alerts

theorem Announced.trans {a b c : Ticket} {first second : List SlaAlert}
    (earlier : Announced a b first) (later : Announced b c second) : Announced a c (first ++ second) := by
  obtain ⟨written, wrote, rfl⟩ := earlier
  obtain ⟨more, added, rfl⟩ := later
  exact ⟨written ++ more, by rw [added, wrote, List.append_assoc], List.filterMap_append⟩

variable (occasion : Occasion) (assignees : List String)

theorem act_announced (state : Escalation) (action : EscalationAction) :
    Announced state.ticket (act occasion assignees state action).ticket [] := by
  cases action with
  | raise_priority =>
    simp only [act]
    split
    · exact ⟨[], (List.append_nil _).symm, rfl⟩
    · exact ⟨_, rfl, rfl⟩
  | reassign userId =>
    simp only [act]
    split
    · exact ⟨_, rfl, rfl⟩
    · exact ⟨[], (List.append_nil _).symm, rfl⟩
  | notify userIds => exact ⟨[], (List.append_nil _).symm, rfl⟩

theorem actions_announced (actions : List EscalationAction) (state : Escalation) :
    Announced state.ticket (actions.foldl (act occasion assignees) state).ticket [] := by
  induction actions generalizing state with
  | nil => exact ⟨[], (List.append_nil _).symm, rfl⟩
  | cons action rest ih => exact (act_announced occasion assignees state action).trans (ih _)

theorem actions_floor (actions : List EscalationAction) (state : Escalation) :
    height state.ticket.priority ≤
      height (actions.foldl (act occasion assignees) state).ticket.priority := by
  induction actions generalizing state with
  | nil => exact le_rfl
  | cons action rest ih =>
    have step : height state.ticket.priority ≤
        height (act occasion assignees state action).ticket.priority := by
      cases action with
      | raise_priority =>
        simp only [act]
        split
        · exact le_rfl
        · next raises => exact (height_raised _ raises).le
      | reassign userId =>
        simp only [act]
        split <;> exact le_rfl
      | notify userIds => exact le_rfl
    exact step.trans (ih _)

theorem escalated_terms (ticket : Ticket) (policy : Option PolicyRow) (stored : Option SlaTerms)
    (terms : SlaTerms) (storedOk : storedTerms intl ticket = .ok stored)
    (termsOk : termsFor intl .escalation_priority ticket.priority policy stored = .ok (some terms)) :
    terms.notified = told ticket := by
  have kept : told ticket = (stored.map SlaTerms.notified).getD [] := by
    unfold storedTerms at storedOk
    cases frozen : ticket.slaTargets with
    | none =>
      simp only [frozen, Except.ok.injEq] at storedOk
      rw [told, frozen, ← storedOk]
    | some old =>
      simp only [frozen] at storedOk
      obtain ⟨parsed, parsedOk, rest⟩ := bind_ok_iff.mp storedOk
      obtain ⟨_, _, calendar, _, rfl⟩ := (parseSlaTerms_ok_iff intl old parsed).mp parsedOk
      rw [pure_ok_iff] at rest
      rw [told, frozen, ← rest]
      rfl
  rcases termsFor_cases intl _ _ _ _ _ termsOk with same | fresh
  · rw [kept, same]
    rfl
  · obtain ⟨row, target, calendar, _, _, _, rfl⟩ := fresh
    rw [kept]
    cases stored with
    | none | some => rfl

/-- A pass with a new alert: it is announced and kept, and an escalation forgets none. -/
structure Alerted (event : SlaEvent) (before after : Ticket) (alert : SlaAlert) : Prop where
  announced : Announced before after [alert]
  kept : alert ∈ told after
  fresh : event = .escalation_priority → alert ∉ told before
  carried : event = .escalation_priority → told before ⊆ told after

/-- The alerts still kept when the status is looked at. -/
abbrev remaining (event : SlaEvent) (terms : SlaTerms) (result : SlaClockResult) : List SlaAlert :=
  afterReply event result.slaStatus terms.notified

variable (event : SlaEvent)

theorem settle_announced (policy : Option PolicyRow) (ticket : Ticket)
    (terms : SlaTerms) (result : SlaClockResult) :
    ((settle occasion event policy ticket terms result).raised = false ∧
      Announced ticket (settle occasion event policy ticket terms result).ticket []) ∨
    ∃ alert ∉ remaining event terms result,
      Announced ticket (settle occasion event policy ticket terms result).ticket [alert] ∧
      told (settle occasion event policy ticket terms result).ticket =
        remaining event terms result ++ [alert] := by
  have targets := (settle_frame occasion event policy ticket terms result).slaTargets
  rw [noticesAfter] at targets
  cases transition : transitionOf result.slaStatus (remaining event terms result) with
  | none =>
    left
    simp only [settle, transition]
    exact ⟨trivial, [], (List.append_nil _).symm, rfl⟩
  | some alert =>
    right
    refine ⟨alert, ?_, ?_, ?_⟩
    · unfold transitionOf at transition
      split at transition
      · split at transition
        · cases transition
        · next fresh => exact Option.some.inj transition ▸ fresh
      · cases transition
    · simp only [settle, transition]
      have announced : Announced ticket
          { withResult ticket { terms with notified := remaining event terms result ++ [alert] } result with
            activities := ticket.activities ++ [announcement alert result.metric ticket.slaStatus] }
          [alert] := ⟨_, rfl, by cases alert <;> rfl⟩
      exact announced.trans (actions_announced occasion ticket.assignees
        (actionsFor policy alert result.metric) ⟨_, false⟩)
    · rw [told, targets, transition]
      rfl

theorem syncPass_announced (ticket : Ticket) (state : Escalation)
    (returns : syncPass intl occasion event ticket = .ok state) :
    (state.raised = false ∧ Announced ticket state.ticket []) ∨
      ∃ alert, Alerted event ticket state.ticket alert := by
  rw [syncPass_ok_iff] at returns
  cases returns with
  | absent | lapsed => exact .inl ⟨rfl, [], (List.append_nil _).symm, rfl⟩
  | @evaluated policy stored terms asked before result live policyOk storedOk termsOk beforeOk heardOk =>
    have notified := (heard_frame intl event ticket occasion.now terms asked heardOk).2
    rcases settle_announced occasion event policy ticket asked (withBefore before result) with
      calm | alerted
    · exact .inl calm
    · obtain ⟨alert, new, announced, kept⟩ := alerted
      have carries : event = .escalation_priority →
          remaining event asked (withBefore before result) = told ticket := by
        intro escalated
        subst escalated
        rw [remaining, notified, escalated_terms intl ticket policy stored terms storedOk termsOk]
        exact if_neg (by simp)
      refine .inr ⟨alert, announced, ?_, ?_, ?_⟩
      · rw [kept]
        exact List.mem_append_right _ (List.mem_singleton_self alert)
      · intro escalated
        exact carries escalated ▸ new
      · intro escalated
        rw [kept, carries escalated]
        exact List.subset_append_left _ _

theorem syncPass_floor (ticket : Ticket) (state : Escalation)
    (returns : syncPass intl occasion event ticket = .ok state) :
    height ticket.priority ≤ height state.ticket.priority := by
  rw [syncPass_ok_iff] at returns
  cases returns with
  | absent | lapsed => exact le_rfl
  | evaluated =>
    simp only [settle]
    split
    · exact le_rfl
    · apply le_trans _ (actions_floor occasion ticket.assignees _ _)
      exact le_rfl

def untold (ticket : Ticket) : List SlaAlert :=
  [SlaAlert.AT_RISK, .BREACHED].filter (fun alert => decide (alert ∉ told ticket))

theorem untold_alerted {before after : Ticket} {alert : SlaAlert}
    (alerted : Alerted .escalation_priority before after alert) :
    (untold after).length < (untold before).length := by
  have fresh := alerted.fresh rfl
  have fewer : ∀ other, other ∉ told after → other ∉ told before :=
    fun _ absent inside => absent (alerted.carried rfl inside)
  have kept := alerted.kept
  cases alert with
  | AT_RISK =>
    have other := fewer .BREACHED
    by_cases later : SlaAlert.BREACHED ∈ told after <;>
      by_cases earlier : SlaAlert.BREACHED ∈ told before <;> simp_all [untold]
  | BREACHED =>
    have other := fewer .AT_RISK
    by_cases later : SlaAlert.AT_RISK ∈ told after <;>
      by_cases earlier : SlaAlert.AT_RISK ∈ told before <;> simp_all [untold]

theorem untold_kept {ticket : Ticket} {alert : SlaAlert} (kept : alert ∈ told ticket) :
    (untold ticket).length ≤ 1 := by
  cases alert with
  | AT_RISK => by_cases other : SlaAlert.BREACHED ∈ told ticket <;> simp [untold, kept, other]
  | BREACHED => by_cases other : SlaAlert.AT_RISK ∈ told ticket <;> simp [untold, kept, other]

theorem escalation_calls (left : ℕ) (ticket : Ticket) (few : (untold ticket).length ≤ left) :
    ∃ passes ≤ left + 1, Calls intl occasion .escalation_priority ticket passes
      (syncTicketSla intl occasion .escalation_priority ticket) := by
  induction left generalizing ticket with
  | zero =>
    rw [syncTicketSla_eq]
    cases pass : syncPass intl occasion .escalation_priority ticket with
    | error failure => exact ⟨1, le_rfl, .thrown pass⟩
    | ok state =>
      rcases syncPass_announced intl occasion _ ticket state pass with calm | alerted
      · rw [ok_bind, calm.1]
        exact ⟨1, le_rfl, .ended pass calm.1⟩
      · obtain ⟨alert, alerted⟩ := alerted
        have fewer := untold_alerted alerted
        omega
  | succ left ih =>
    rw [syncTicketSla_eq]
    cases pass : syncPass intl occasion .escalation_priority ticket with
    | error failure => exact ⟨1, by omega, .thrown pass⟩
    | ok state =>
      rw [ok_bind]
      cases raised : state.raised with
      | false => exact ⟨1, by omega, .ended pass raised⟩
      | true =>
        rcases syncPass_announced intl occasion _ ticket state pass with calm | alerted
        · simp [calm.1] at raised
        · obtain ⟨alert, alerted⟩ := alerted
          have fewer := untold_alerted alerted
          obtain ⟨passes, bounded, calls⟩ := ih state.ticket (by omega)
          exact ⟨passes + 1, by omega, .again pass raised calls⟩

theorem call_passes (ticket : Ticket) :
    ∃ passes ≤ 3, Calls intl occasion event ticket passes
      (syncTicketSla intl occasion event ticket) := by
  rw [syncTicketSla_eq]
  cases pass : syncPass intl occasion event ticket with
  | error failure => exact ⟨1, by omega, .thrown pass⟩
  | ok state =>
    rw [ok_bind]
    cases raised : state.raised with
    | false => exact ⟨1, by omega, .ended pass raised⟩
    | true =>
      rcases syncPass_announced intl occasion event ticket state pass with calm | alerted
      · simp [calm.1] at raised
      · obtain ⟨alert, alerted⟩ := alerted
        obtain ⟨passes, bounded, calls⟩ := escalation_calls intl occasion 1 state.ticket
          (untold_kept alerted.kept)
        exact ⟨passes + 1, by omega, .again pass raised calls⟩

theorem escalation_announced {occasion : Occasion} {ticket next : Ticket} {passes : ℕ}
    (calls : Calls intl occasion .escalation_priority ticket passes (.ok next)) :
    ∃ alerts, Announced ticket next alerts ∧ alerts.Nodup ∧ ∀ alert ∈ alerts, alert ∉ told ticket := by
  generalize same : SlaEvent.escalation_priority = event at calls
  generalize reached : (Except.ok next : Result Ticket) = result at calls
  induction calls with
  | thrown => cases reached
  | @ended event ticket state pass =>
    cases reached
    subst same
    rcases syncPass_announced intl occasion _ ticket state pass with calm | alerted
    · exact ⟨[], calm.2, List.nodup_nil, by simp⟩
    · obtain ⟨alert, alerted⟩ := alerted
      refine ⟨[alert], alerted.announced, List.nodup_singleton _, ?_⟩
      intro other inside
      rw [List.mem_singleton.mp inside]
      exact alerted.fresh rfl
  | @again event ticket state passes result pass raised rest ih =>
    subst same
    obtain ⟨alerts, announced, once, fresh⟩ := ih rfl reached
    rcases syncPass_announced intl occasion _ ticket state pass with calm | alerted
    · simp [calm.1] at raised
    · obtain ⟨alert, alerted⟩ := alerted
      refine ⟨alert :: alerts, alerted.announced.trans announced,
        List.nodup_cons.mpr ⟨fun inside => fresh alert inside alerted.kept, once⟩, ?_⟩
      intro other inside
      rcases List.mem_cons.mp inside with first | later
      · rw [first]
        exact alerted.fresh rfl
      · exact fun before => fresh other later (alerted.carried rfl before)

theorem call_announced {occasion : Occasion} {event : SlaEvent} {ticket next : Ticket} {passes : ℕ}
    (calls : Calls intl occasion event ticket passes (.ok next)) :
    ∃ alerts, Announced ticket next alerts ∧ alerts.Nodup := by
  cases calls with
  | ended pass =>
    rcases syncPass_announced intl occasion event ticket _ pass with calm | alerted
    · exact ⟨[], calm.2, List.nodup_nil⟩
    · obtain ⟨alert, alerted⟩ := alerted
      exact ⟨[alert], alerted.announced, List.nodup_singleton _⟩
  | again pass raised rest =>
    obtain ⟨alerts, announced, once, fresh⟩ := escalation_announced intl rest
    rcases syncPass_announced intl occasion event ticket _ pass with calm | alerted
    · simp [calm.1] at raised
    · obtain ⟨alert, alerted⟩ := alerted
      exact ⟨alert :: alerts, alerted.announced.trans announced,
        List.nodup_cons.mpr ⟨fun inside => fresh alert inside alerted.kept, once⟩⟩

/-- A call ends, whatever the policy is: it returns or throws after at most three passes; the row it
leaves has at most one announcement of each alert more, and no lower priority. -/
theorem escalation_ends (occasion : Occasion) (event : SlaEvent) (ticket : Ticket) :
    (∃ passes ≤ 3, Calls intl occasion event ticket passes
      (syncTicketSla intl occasion event ticket)) ∧
    ∀ next, syncTicketSla intl occasion event ticket = .ok next →
      height ticket.priority ≤ height next.priority ∧
      ∃ written, next.activities = ticket.activities ++ written ∧
        ∀ alert, (written.filterMap Activity.alert).count alert ≤ 1 := by
  obtain ⟨passes, bounded, calls⟩ := call_passes intl occasion event ticket
  refine ⟨⟨passes, bounded, calls⟩, ?_⟩
  intro next returns
  constructor
  · apply syncWithin_keeps intl occasion
      (fun reached => height ticket.priority ≤ height reached.priority) _ 5 event ticket next le_rfl
      returns
    intro event ticket state low pass
    exact low.trans (syncPass_floor intl occasion event ticket state pass)
  · rw [returns] at calls
    obtain ⟨alerts, announced, once⟩ := call_announced intl calls
    obtain ⟨written, wrote, rfl⟩ := announced
    exact ⟨written, wrote, List.nodup_iff_count_le_one.mp once⟩

end Droplet.Sla
