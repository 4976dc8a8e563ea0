import Droplet.Lib.Stepping
import Droplet.Support.Tickets

/-! Who gets a new ticket (`services/support/assignment.service.ts`), and the cursor that is kept for it. -/

namespace Droplet.Support

open Stepping

inductive PmAssignmentMode where
  | MANUAL
  | ROUND_ROBIN
  | LEAST_OPEN
  deriving DecidableEq

/-- As `assignmentSchema` passes it when it is saved, and again here. -/
structure PmAssignmentRule where
  mode : PmAssignmentMode
  departmentId : Option DepartmentId
  memberIds : List UserId
  lastAssignedUserId : Option UserId
  distinct : memberIds.Nodup
  someone : mode = .MANUAL ∨ memberIds ≠ []

/-- A creation that gives no assignees, as its transaction finds the desk. -/
structure NewTicket where
  departmentId : Option DepartmentId
  /-- Those `listAgents` returns. -/
  agents : UserId → Bool
  openTickets : UserId → ℕ

/-- Who is not among the members has the index -1. -/
def rotation (members : List UserId) (lastAssigned : Option UserId) : List UserId :=
  let next := match lastAssigned with
    | some last => if last ∈ members then members.idxOf last + 1 else 0
    | none => 0
  members.drop next ++ members.take next

namespace PmAssignmentRule

variable (rule : PmAssignmentRule) (ticket : NewTicket)

def assigns : Bool :=
  rule.mode != .MANUAL && (rule.departmentId.isNone || rule.departmentId == ticket.departmentId)

/-- `reduce` takes the first of those with the least open tickets. -/
def assignNewTicket : Option UserId :=
  if rule.assigns ticket then
    let rotated := rotation (rule.memberIds.filter ticket.agents) rule.lastAssignedUserId
    if rule.mode = .LEAST_OPEN then rotated.argmin ticket.openTickets else rotated.head?
  else none

def next : PmAssignmentRule :=
  match rule.assignNewTicket ticket with
  | some selected => { rule with lastAssignedUserId := some selected }
  | none => rule

def assignees (rule : PmAssignmentRule) : List NewTicket → List UserId
  | [] => []
  | ticket :: later => (rule.assignNewTicket ticket).toList ++ (rule.next ticket).assignees later

/-- The configured order, from the member after the last assignee. -/
def order : List UserId := rotation rule.memberIds rule.lastAssignedUserId

/-- `argmin` takes the first of several. -/
def PicksLeast : Prop :=
  rule.mode = .LEAST_OPEN → rule.assigns ticket →
    rule.assignNewTicket ticket = (rule.order.filter ticket.agents).argmin ticket.openTickets

/-- The last assignee is an agent still, or all the agents of the rule stand on one side of it. -/
def OneSide : Prop :=
  ∀ last ∈ rule.lastAssignedUserId, ticket.agents last ∨
    (∀ member ∈ rule.memberIds.takeWhile (· != last), ticket.agents member = false) ∨
    ∀ member ∈ rule.memberIds.dropWhile (· != last), ticket.agents member = false

end PmAssignmentRule

section

variable {members before after : List UserId} {last : UserId}

theorem rotation_perm (members : List UserId) (lastAssigned : Option UserId) :
    (rotation members lastAssigned).Perm members := by
  refine List.perm_append_comm.trans ?_
  rw [List.take_append_drop]

theorem rotation_absent (absent : last ∉ members) : rotation members (some last) = members := by
  simp [rotation, absent]

theorem rotation_at (first : last ∉ before) :
    rotation (before ++ last :: after) (some last) = after ++ before ++ [last] := by
  simp [rotation, List.idxOf_append_of_notMem first, List.drop_append, List.take_append,
    List.drop_eq_nil_of_le, List.take_of_length_le]

/-- Where a rotation goes on does not depend on where it began. -/
theorem rotation_again {lastAssigned : Option UserId} (distinct : members.Nodup)
    (split : rotation members lastAssigned = before ++ last :: after) :
    rotation members (some last) = after ++ before ++ [last] := by
  have unique := (rotation_perm members lastAssigned).nodup_iff.mpr distinct
  rw [split, List.nodup_middle, List.nodup_cons, List.mem_append, not_or] at unique
  obtain ⟨n, parts⟩ : ∃ n, rotation members lastAssigned = members.drop n ++ members.take n := ⟨_, rfl⟩
  rw [parts] at split
  rw [← List.take_append_drop n members]
  generalize members.drop n = front at split ⊢
  generalize members.take n = back at split ⊢
  rcases List.append_eq_append_iff.mp split with ⟨ahead, rfl, rfl⟩ | ⟨ahead, rfl, behind⟩
  · rw [List.append_assoc, List.cons_append, rotation_at fun there => unique.1.1 (by simp [there])]
    simp
  · cases ahead with
    | nil =>
      obtain rfl := behind
      rw [List.cons_append, ← List.nil_append (last :: _), rotation_at (by simp)]
      simp
    | cons first ahead =>
      obtain ⟨rfl, rfl⟩ := List.cons.inj behind
      rw [← List.append_assoc, rotation_at (by simp_all)]
      simp

variable {rule : PmAssignmentRule} {ticket : NewTicket}

namespace PmAssignmentRule

theorem rotation_agents (oneSide : rule.OneSide ticket) :
    rotation (rule.memberIds.filter ticket.agents) rule.lastAssignedUserId =
      rule.order.filter ticket.agents := by
  unfold order
  unfold OneSide at oneSide
  generalize rule.memberIds = members, rule.lastAssignedUserId = lastly at oneSide ⊢
  cases lastly with
  | none => simp [rotation]
  | some last =>
    by_cases there : last ∈ members
    · obtain ⟨before, after, rfl, first⟩ := List.eq_append_cons_of_mem there
      rw [rotation_at first, List.filter_append]
      cases agent : ticket.agents last with
      | true => rw [List.filter_cons_of_pos agent, rotation_at (by simp [first])]; simp [agent]
      | false =>
        rw [List.filter_cons_of_neg (by simp [agent]), rotation_absent (by simp [agent])]
        have ahead : ∀ id ∈ before, (id != last) = true := by
          intro id member
          exact bne_iff_ne.mpr fun same => first (same ▸ member)
        have empty (part : List UserId) (none_ : ∀ id ∈ part, ticket.agents id = false) :
            part.filter ticket.agents = [] := by
          simpa [List.filter_eq_nil_iff] using none_
        have sides := oneSide last rfl
        simp [List.takeWhile_append_of_pos ahead, List.dropWhile_append_of_pos ahead, agent] at sides
        rcases sides with none_ | none_
        · simp [empty before none_, agent]
        · simp [empty after none_, agent]
    · rw [rotation_absent there, rotation_absent (by simp [there])]

theorem picksLeast (oneSide : rule.OneSide ticket) : rule.PicksLeast ticket := by
  intro mode assigns
  simp [assignNewTicket, assigns, mode, rotation_agents oneSide]

/-- Each assignment to another brings the member nearer. -/
theorem member_served {member : UserId} (mode : rule.mode = .ROUND_ROBIN)
    (there : member ∈ rule.memberIds) {tickets : List NewTicket} (oneSide : Along next OneSide rule tickets)
    (agent : Along next
      (fun rule ticket => (rule.assignNewTicket ticket).isSome → ticket.agents member) rule tickets)
    (near : rule.order.idxOf member < (rule.assignees tickets).length) :
    member ∈ rule.assignees tickets := by
  induction tickets generalizing rule with
  | nil => simp [assignees] at near
  | cons ticket later ih =>
    obtain ⟨oneSide, others⟩ := oneSide
    obtain ⟨agent, agents⟩ := agent
    unfold assignees at near ⊢
    cases assigned : rule.assignNewTicket ticket with
    | none =>
      have same : rule.next ticket = rule := by simp [next, assigned]
      rw [same] at others agents near ⊢
      simp only [assigned, Option.toList_none, List.nil_append] at near ⊢
      exact ih mode there others agents near
    | some selected =>
      rw [assigned] at agent near
      by_cases same : member = selected
      · simp [same]
      · have head := assigned
        simp only [assignNewTicket, mode, reduceCtorEq, if_false, rotation_agents oneSide, List.head?_filter,
          Option.ite_none_right_eq_some, List.find?_eq_some_iff_append] at head
        obtain ⟨-, -, before, after, split, none_⟩ := head
        have turned : rule.next ticket = { rule with lastAssignedUserId := some selected } := by
          simp [next, assigned]
        rw [turned] at others agents near ⊢
        have inOrder : member ∈ rule.order := (rotation_perm _ _).mem_iff.mpr there
        have passed : member ∉ before := fun ahead => by simpa [agent rfl] using none_ member ahead
        have behind : member ∈ after := by
          simpa [split, passed, same] using inOrder
        rw [split, List.idxOf_append_of_notMem passed, List.idxOf_cons_ne _ (Ne.symm same)] at near
        simp only [Option.toList_some, List.length_append, List.length_singleton] at near
        refine List.mem_append_right _ (ih mode there others agents ?_)
        have moved : order { rule with lastAssignedUserId := some selected } = after ++ before ++ [selected] :=
          rotation_again rule.distinct split
        rw [moved, List.append_assoc, List.idxOf_append_of_mem behind]
        omega

/-- A run that is as configured, whatever its agents do in between. -/
structure Fair (tickets : List NewTicket) : Prop where
  starves_nobody : rule.mode = .ROUND_ROBIN → ∀ member ∈ rule.memberIds,
    Along next (fun rule ticket => (rule.assignNewTicket ticket).isSome → ticket.agents member) rule tickets →
    rule.memberIds.length ≤ (rule.assignees tickets).length → member ∈ rule.assignees tickets
  picks_least : Along next PicksLeast rule tickets

theorem assignment_is_fair (tickets : List NewTicket) (oneSide : Along next OneSide rule tickets) :
    rule.Fair tickets where
  starves_nobody mode member there agent enough := by
    refine member_served mode there oneSide agent (lt_of_lt_of_le ?_ enough)
    rw [← (rotation_perm rule.memberIds rule.lastAssignedUserId).length_eq]
    exact List.idxOf_lt_length_iff.mpr ((rotation_perm _ _).mem_iff.mpr there)
  picks_least := oneSide.imp fun _ _ => picksLeast

def threeInTurn : PmAssignmentRule := ⟨.ROUND_ROBIN, none, [1, 2, 3], none, by decide, .inr (by decide)⟩

theorem third_is_served : 3 ∈ threeInTurn.assignees (List.replicate 3 ⟨none, fun _ => true, fun _ => 0⟩) :=
  (@assignment_is_fair threeInTurn _ (by simp [List.replicate, Along, OneSide])).1 rfl 3
    (by decide) (by simp [List.replicate, Along]) (by decide)

theorem next_members (rule : PmAssignmentRule) (ticket : NewTicket) :
    (rule.next ticket).mode = rule.mode ∧ (rule.next ticket).memberIds = rule.memberIds := by
  unfold next
  cases rule.assignNewTicket ticket <;> exact ⟨rfl, rfl⟩

theorem run_members (rule : PmAssignmentRule) (tickets : List NewTicket) :
    (run next rule tickets).mode = rule.mode ∧ (run next rule tickets).memberIds = rule.memberIds := by
  induction tickets generalizing rule with
  | nil => exact ⟨rfl, rfl⟩
  | cons ticket later ih =>
    obtain ⟨mode, members⟩ := next_members rule ticket
    exact ⟨(ih _).1.trans mode, (ih _).2.trans members⟩

theorem waits_for_agents (rule : PmAssignmentRule) (ticket : NewTicket)
    (none_ : ∀ member ∈ rule.memberIds, ticket.agents member = false) :
    rule.assignNewTicket ticket = none ∧ rule.next ticket = rule := by
  have empty : rule.memberIds.filter ticket.agents = [] := by
    simpa [List.filter_eq_nil_iff] using none_
  have unassigned : rule.assignNewTicket ticket = none := by
    simp [assignNewTicket, empty, rotation]
  exact ⟨unassigned, by simp [next, unassigned]⟩

/-- A member who is an agent at as many assignments in a row as there are members gets one of them. -/
def ServesAll (rule : PmAssignmentRule) (tickets : List NewTicket) : Prop :=
  rule.mode = .ROUND_ROBIN → ∀ before during later, tickets = before ++ (during ++ later) →
    ∀ member ∈ rule.memberIds,
      Along next (fun rule ticket => (rule.assignNewTicket ticket).isSome → ticket.agents member)
        (run next rule before) during →
      rule.memberIds.length ≤ ((run next rule before).assignees during).length →
        member ∈ (run next rule before).assignees during

/-- Creations one after the other, whoever becomes or ceases to be an agent in between: while no last assignee
who is no agent stands between two that are, each part of the run serves everyone, a tie goes to the next in
the configured order, and nothing changes where nobody is an agent. -/
theorem rotation_serves_all (rule : PmAssignmentRule) (tickets : List NewTicket)
    (oneSide : Along next OneSide rule tickets) :
    rule.ServesAll tickets ∧ Along next PicksLeast rule tickets ∧
      Along next (fun rule ticket => (∀ member ∈ rule.memberIds, ticket.agents member = false) →
        rule.assignNewTicket ticket = none ∧ rule.next ticket = rule) rule tickets := by
  refine ⟨?_, oneSide.imp fun _ _ => picksLeast, oneSide.imp fun rule ticket _ => waits_for_agents rule ticket⟩
  intro mode before during later parts member there agent enough
  rw [parts, Along.append, Along.append] at oneSide
  obtain ⟨sameMode, sameMembers⟩ := run_members rule before
  refine member_served (sameMode.trans mode) (sameMembers ▸ there) oneSide.2.1 agent (lt_of_lt_of_le ?_ enough)
  rw [← sameMembers, ← (rotation_perm _ _).length_eq]
  exact List.idxOf_lt_length_iff.mpr ((rotation_perm _ _).mem_iff.mpr (sameMembers ▸ there))

/-- All three are agents, except that the first is away for the second ticket. -/
def firstAway : List NewTicket :=
  [⟨none, fun _ => true, fun _ => 0⟩, ⟨none, fun id => id != 1, fun _ => 0⟩, ⟨none, fun _ => true, fun _ => 0⟩]

theorem third_is_served_with_one_away : 3 ∈ threeInTurn.assignees firstAway :=
  (rotation_serves_all threeInTurn firstAway (by
    simp [firstAway, Along, OneSide, next, assignNewTicket, assigns, rotation, threeInTurn])).1 rfl [] firstAway []
    rfl 3 (by decide) (by decide) (by decide)

/-- The second member, who was served last, is away at every other ticket. -/
def secondAway : List NewTicket :=
  [⟨none, fun id => id != 2, fun _ => 0⟩, ⟨none, fun _ => true, fun _ => 0⟩, ⟨none, fun id => id != 2, fun _ => 0⟩]

/-- The search for who was served last fails, the rotation begins at the front again, and the third member, always
an agent, gets none of three tickets. -/
theorem front_is_served_again :
    ¬ ServesAll ⟨.ROUND_ROBIN, none, [1, 2, 3], some 2, by decide, .inr (by decide)⟩ secondAway := by
  intro serves
  exact absurd (serves rfl [] secondAway [] rfl 3 (by decide) (by decide) (by decide)) (by decide)

end PmAssignmentRule

end

end Droplet.Support
