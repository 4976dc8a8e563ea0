import Droplet.Support.Assignment
import Droplet.Support.Calls

/-! Two ways a ticket is born: `createTicket`, and an e-mail that answers no ticket
(`services/support/email-intake.service.ts`). -/

namespace Droplet.Support

/-- A desk as either transaction finds it. One without a rule is as one with `MANUAL`. -/
structure DeskRow where
  id : DeskId
  departmentId : Option DepartmentId
  /-- As the database lists them. -/
  states : List PmState
  distinct : (states.map PmState.id).Nodup
  rule : PmAssignmentRule
  agents : UserId → Bool
  openTickets : UserId → ℕ
  seqCounter : ℕ

structure Birth where
  assignees : Finset UserId
  stateId : Option StateId
  isCompleted : Bool
  completedAt : Option ℤ
  /-- Less their actor. -/
  activities : Multiset PmActivity
  lastAssignedUserId : Option UserId
  seqCounter : ℕ

/-- `sortOrder`, then `id`. -/
def PmState.sorts (first second : PmState) : Bool :=
  decide (first.sortOrder < second.sortOrder) || first.sortOrder == second.sortOrder && Nat.ble first.id second.id

namespace DeskRow

variable (group : StateId → PmStateGroup) (desk : DeskRow)

def creation (departmentId : Option DepartmentId) : NewTicket := ⟨departmentId, desk.agents, desk.openTickets⟩

def birth (row : TicketRow) (activities : List PmActivity) (ticket : NewTicket) : Birth where
  assignees := row.assignees
  stateId := row.stateId
  isCompleted := row.isCompleted
  completedAt := row.completedAt
  activities := activities
  lastAssignedUserId := (desk.rule.next ticket).lastAssignedUserId
  seqCounter := desk.seqCounter + 1

/-- `none` where it throws. -/
def createTicket (input : TicketCreateInput) (now : ℤ) : Option Birth :=
  let ticket := desk.creation (input.departmentId.or desk.departmentId)
  let auto := desk.rule.assignNewTicket ticket
  (input.state desk.states).map fun state =>
    desk.birth (input.row group state.id auto now) (input.activities auto) ticket

/-- The message comes with what it finds in the desk. -/
def takeIn (message : Inbound) : Option Birth :=
  let ticket := desk.creation none
  let found := { message with
    desk := desk.id
    states := desk.states.mergeSort PmState.sorts
    auto := desk.rule.assignNewTicket ticket }
  found.landing.map fun state => desk.birth (found.row state.id) [.created] ticket

/-- Nobody is assigned in the desk's department. -/
def Unassigned : Prop :=
  desk.rule.mode = .MANUAL ∨ (∃ own ∈ desk.rule.departmentId, desk.departmentId ≠ some own) ∨
    ∀ member ∈ desk.rule.memberIds, desk.agents member = false

/-- Where an e-mail lands: the first default state, or the first where there is none. -/
def Lands (state : PmState) : Prop :=
  state ∈ desk.states ∧ (state.isDefault = false → ∀ other ∈ desk.states, other.isDefault = false) ∧
    ∀ other ∈ desk.states, other.isDefault = state.isDefault → state.sorts other = true

/-- The database lists no other default state before it; or, where there is none, no other state with its
`sortOrder`. -/
def ListedFirst (state : PmState) : Prop :=
  ∃ before after, desk.states = before ++ state :: after ∧ ∀ other ∈ before,
    if state.isDefault then other.isDefault = false else other.sortOrder ≠ state.sortOrder

variable {desk} (first second : PmState)

theorem sorts_iff : first.sorts second = true ↔
    first.sortOrder < second.sortOrder ∨ first.sortOrder = second.sortOrder ∧ Nat.le first.id second.id := by
  simp [PmState.sorts]

theorem sorts_trans (first second third : PmState) (one : first.sorts second = true)
    (two : second.sorts third = true) : first.sorts third = true := by
  rw [sorts_iff] at one two ⊢
  rcases one with one | ⟨same, one⟩
  · rcases two with two | ⟨same, -⟩ <;> exact .inl (by omega)
  · rcases two with two | ⟨same', two⟩
    · exact .inl (by omega)
    · exact .inr ⟨same.trans same', Nat.le_trans one two⟩

theorem sorts_total : (first.sorts second || second.sorts first) = true := by
  rw [Bool.or_eq_true, sorts_iff, sorts_iff]
  rcases lt_trichotomy first.sortOrder second.sortOrder with less | same | more
  · exact .inl (.inl less)
  · rcases Nat.le_total first.id second.id with low | high
    · exact .inl (.inr ⟨same, low⟩)
    · exact .inr (.inr ⟨same.symm, high⟩)
  · exact .inr (.inl more)

theorem sorts_antisymm {first second : PmState} (one : first ∈ desk.states) (two : second ∈ desk.states)
    (before : first.sorts second = true) (after : second.sorts first = true) : first = second := by
  refine List.inj_on_of_nodup_map desk.distinct one two ?_
  rw [sorts_iff] at before after
  rcases before with less | ⟨same, low⟩
  · rcases after with more | ⟨same, -⟩ <;> omega
  · rcases after with more | ⟨-, high⟩
    · omega
    · exact Nat.le_antisymm low high

variable {state : PmState}

/-- The first state of a kind, once they are sorted. -/
theorem find_sorted {kind : PmState → Bool} :
    (desk.states.mergeSort PmState.sorts).find? kind = some state ↔
      state ∈ desk.states ∧ kind state = true ∧ ∀ other ∈ desk.states, kind other = true → state.sorts other = true := by
  have ordered := List.pairwise_mergeSort sorts_trans sorts_total desk.states
  have found {state : PmState} (first : (desk.states.mergeSort PmState.sorts).find? kind = some state) :
      state ∈ desk.states ∧ kind state = true ∧
        ∀ other ∈ desk.states, kind other = true → state.sorts other = true := by
    have member := List.mem_mergeSort.mp (List.mem_of_find?_eq_some first)
    obtain ⟨is, before, after, split, none_⟩ := List.find?_eq_some_iff_append.mp first
    refine ⟨member, is, ?_⟩
    intro other there kindly
    rw [← List.mem_mergeSort, split, List.mem_append, List.mem_cons] at there
    rw [split, List.pairwise_append, List.pairwise_cons] at ordered
    rcases there with ahead | rfl | behind
    · simpa [kindly] using none_ other ahead
    · simpa using sorts_total other other
    · exact ordered.2.1.1 other behind
  constructor
  · exact found
  · rintro ⟨there, is, least⟩
    cases first : (desk.states.mergeSort PmState.sorts).find? kind with
    | none =>
      exact absurd is (List.find?_eq_none.mp first state (List.mem_mergeSort.mpr there))
    | some other =>
      obtain ⟨member, kindly, before⟩ := found first
      rw [sorts_antisymm member there (before state there is) (least other member kindly)]

theorem head_eq_find (states : List PmState) : states.head? = states.find? fun _ => true := by
  cases states <;> rfl

theorem lands_iff {message : Inbound} (states : message.states = desk.states.mergeSort PmState.sorts) :
    message.landing = some state ↔ desk.Lands state := by
  unfold Inbound.landing Lands
  rw [states]
  cases first : (desk.states.mergeSort PmState.sorts).find? PmState.isDefault with
  | some default =>
    obtain ⟨there, is, least⟩ := find_sorted.mp first
    rw [Option.some_or, Option.some.injEq]
    constructor
    · rintro rfl
      refine ⟨there, fun plain => absurd is (by simp [plain]), ?_⟩
      intro other member same
      exact least other member (same.trans is)
    · rintro ⟨member, only, before⟩
      have defaults : state.isDefault = true := by
        by_contra plain
        simp [only (by simpa using plain) default there] at is
      exact sorts_antisymm there member (least state member defaults) (before default there (is.trans defaults.symm))
  | none =>
    have plain : ∀ other ∈ desk.states, other.isDefault = false := by
      simpa using first
    rw [Option.none_or, head_eq_find, find_sorted]
    constructor
    · rintro ⟨there, _, least⟩
      exact ⟨there, fun _ => plain, fun other member _ => least other member rfl⟩
    · rintro ⟨there, _, least⟩
      refine ⟨there, rfl, ?_⟩
      intro other member _
      exact least other member ((plain other member).trans (plain state there).symm)

variable {states : List PmState}

theorem not_behind {first other : PmState} (distinct : (first :: states).Nodup) :
    ¬ [other, first].Sublist (first :: states) := by
  intro part
  obtain ⟨fresh, -⟩ := List.nodup_cons.mp distinct
  cases part with
  | cons _ part => exact fresh (part.subset (by simp))
  | cons_cons _ part => exact fresh (List.singleton_sublist.mp part)

/-- A stable sort puts first the first of those with the least `sortOrder`. -/
theorem head_stable (distinct : (states.map PmState.id).Nodup)
    (there : state ∈ states) (least : ∀ other ∈ states, state.sortOrder ≤ other.sortOrder) :
    (states.mergeSort fun first second => decide (first.sortOrder ≤ second.sortOrder)).head? = some state ↔
      ∃ before after, states = before ++ state :: after ∧ ∀ other ∈ before, other.sortOrder ≠ state.sortOrder := by
  generalize is : (fun first second : PmState => decide (first.sortOrder ≤ second.sortOrder)) = le
  have le_iff (a b : PmState) : le a b = true ↔ a.sortOrder ≤ b.sortOrder := by simp [← is]
  have trans (a b c : PmState) (one : le a b = true) (two : le b c = true) : le a c = true :=
    (le_iff _ _).mpr (((le_iff _ _).mp one).trans ((le_iff _ _).mp two))
  have total (a b : PmState) : (le a b || le b a) = true := by
    simpa [le_iff] using le_total a.sortOrder b.sortOrder
  have ordered := List.pairwise_mergeSort trans total states
  have once := (List.mergeSort_perm states le).nodup_iff.mpr (List.Nodup.of_map _ distinct)
  have pairs {a b : PmState} (below : a.sortOrder ≤ b.sortOrder) (part : [a, b].Sublist states) :=
    List.pair_sublist_mergeSort trans total ((le_iff a b).mpr below) part
  have members : ∀ other, other ∈ states.mergeSort le ↔ other ∈ states := fun other => List.mem_mergeSort
  generalize states.mergeSort le = sorted at ordered once pairs members ⊢
  cases sorted with
  | nil => simpa using (members state).mpr there
  | cons first rest =>
    have inside := (members first).mp (.head _)
    have same : first.sortOrder = state.sortOrder := by
      refine le_antisymm ?_ (least first inside)
      rcases List.mem_cons.mp ((members state).mpr there) with rfl | later
      · exact le_rfl
      · exact (le_iff _ _).mp ((List.pairwise_cons.mp ordered).1 state later)
    rw [List.head?_cons, Option.some.injEq]
    constructor
    · rintro rfl
      obtain ⟨before, after, split⟩ := List.append_of_mem there
      refine ⟨before, after, split, ?_⟩
      intro other ahead tie
      refine not_behind once (pairs tie.le ?_)
      rw [split]
      exact (List.singleton_sublist.mpr ahead).append (List.singleton_sublist.mpr (.head _))
    · rintro ⟨before, after, split, apart⟩
      rw [split, List.mem_append, List.mem_cons] at inside
      rcases inside with ahead | is | behind
      · exact absurd same (apart first ahead)
      · exact is
      · refine absurd (pairs same.ge ?_) (not_behind once)
        rw [split]
        exact ((List.singleton_sublist.mpr behind).cons_cons state).trans (List.sublist_append_right _ _)

theorem defaultState_iff (lands : desk.Lands state) :
    defaultState desk.states = some state ↔ desk.ListedFirst state := by
  obtain ⟨there, only, least⟩ := lands
  unfold defaultState ListedFirst
  cases kind : state.isDefault with
  | true =>
    obtain ⟨default, found⟩ : ∃ default, desk.states.find? PmState.isDefault = some default :=
      Option.isSome_iff_exists.mp (List.find?_isSome.mpr ⟨state, there, kind⟩)
    rw [found, Option.some_or, ← found, List.find?_eq_some_iff_append]
    simp [kind]
  | false =>
    have none_ : desk.states.find? PmState.isDefault = none := by
      simpa using only kind
    rw [none_, Option.none_or, head_stable desk.distinct there]
    · simp
    · intro other member
      rcases (sorts_iff _ _).mp (least other member ((only kind other member).trans kind.symm)) with less | ⟨same, -⟩
      · exact less.le
      · exact same.le

theorem defaultState_mem (picked : defaultState states = some state) : state ∈ states := by
  rcases Option.or_eq_some_iff.mp picked with found | ⟨-, head⟩
  · exact List.mem_of_find?_eq_some found
  · exact List.mem_mergeSort.mp (List.mem_of_head? head)

theorem assign_none (rule : PmAssignmentRule) (ticket : NewTicket) : rule.assignNewTicket ticket = none ↔
    rule.assigns ticket = false ∨ ∀ member ∈ rule.memberIds, ticket.agents member = false := by
  have empty : rotation (rule.memberIds.filter ticket.agents) rule.lastAssignedUserId = [] ↔
      ∀ member ∈ rule.memberIds, ticket.agents member = false := by
    rw [← List.length_eq_zero_iff, (rotation_perm _ _).length_eq, List.length_eq_zero_iff, List.filter_eq_nil_iff]
    simp
  unfold PmAssignmentRule.assignNewTicket
  cases rule.assigns ticket with
  | false => simp
  | true =>
    simp only [if_true, Bool.true_eq_false, false_or, ← empty]
    split
    · exact List.argmin_eq_none
    · exact List.head?_eq_none_iff

theorem unassigned_iff : desk.rule.assignNewTicket (desk.creation desk.departmentId) = none ↔ desk.Unassigned := by
  rw [assign_none, Unassigned, ← or_assoc]
  refine or_congr ?_ Iff.rfl
  rw [PmAssignmentRule.assigns, Bool.and_eq_false_iff]
  refine or_congr bne_eq_false_iff_eq ?_
  cases desk.rule.departmentId with
  | none => simp
  | some own => simp [creation, ne_comm]

/-- Where nobody is assigned in the desk's department, nobody is without one. -/
theorem Unassigned.nowhere (unassigned : desk.Unassigned) : desk.rule.assignNewTicket (desk.creation none) = none := by
  refine (assign_none _ _).mpr ?_
  rcases unassigned with manual | ⟨own, its, -⟩ | away
  · exact .inl (by simp [PmAssignmentRule.assigns, manual])
  · exact .inl (by simp [PmAssignmentRule.assigns, creation, Option.mem_def.mp its])
  · exact .inr away

theorem landing_none {message : Inbound} (states : message.states = desk.states.mergeSort PmState.sorts) :
    message.landing = none ↔ desk.states = [] := by
  rw [Inbound.landing, states, Option.or_eq_none_iff, List.head?_eq_none_iff, ← List.length_eq_zero_iff,
    List.length_mergeSort, List.length_eq_zero_iff]
  refine ⟨And.right, fun empty => ⟨?_, empty⟩⟩
  simp [empty]

/-- A rule for members of another department than the desk's. -/
def elsewhere : DeskRow where
  id := 0
  departmentId := some 7
  states := [⟨1, 5, false, .NONE⟩, ⟨0, 3, true, .NONE⟩]
  distinct := by decide
  rule := ⟨.ROUND_ROBIN, some 8, [1], none, by decide, .inr (by decide)⟩
  agents := fun _ => true
  openTickets := fun _ => 0
  seqCounter := 4

def printerInput : TicketCreateInput := ⟨0, "Printer", none, none, none, none, [], none, none⟩

def printerMail : Inbound := ⟨100, "Printer", none, none, 0, [], 14, none⟩

/-- One state and one member, who is assigned both times. -/
def oneMember : DeskRow :=
  { elsewhere with
    states := [⟨0, 3, true, .NONE⟩]
    distinct := by decide
    rule := ⟨.ROUND_ROBIN, none, [1], none, by decide, .inr (by decide)⟩ }

end DeskRow

end Droplet.Support
