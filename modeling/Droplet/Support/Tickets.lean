import Droplet.Sla.Clock

/-! Tickets of a service desk (`services/support/ticket.service.ts`): what the transaction of a create or
an update writes to one ticket and to its history, once it holds the ticket's lock. -/

namespace Droplet.Support

open Sla (Priority raisedPriority)

abbrev DeskId := ℕ

abbrev TicketId := ℕ

abbrev StateId := ℕ

abbrev UserId := ℕ

abbrev LabelId := ℕ

abbrev DepartmentId := ℕ

abbrev CompanyId := ℕ

inductive PmStateGroup where
  | backlog
  | unstarted
  | started
  | completed
  | cancelled
  deriving DecidableEq

def isTerminalGroup : Option PmStateGroup → Bool
  | some .completed => true
  | some .cancelled => true
  | _ => false

inductive PmCustomerReplyEffect where
  | NONE
  | REOPEN
  | FOLLOW_UP
  deriving DecidableEq

/-- A state of a desk; its group is fixed and given apart. -/
structure PmState where
  id : StateId
  sortOrder : ℤ
  isDefault : Bool
  onCustomerReply : PmCustomerReplyEffect

/-- A work item with its ticket. Assignees and labels are tables of pairs, hence sets. -/
structure TicketRow where
  projectId : DeskId
  name : String
  descriptionHtml : Option String
  stateId : Option StateId
  priority : Priority
  departmentId : Option DepartmentId
  isCompleted : Bool
  completedAt : Option ℤ
  assignees : Finset UserId
  labels : Finset LabelId
  companyId : Option CompanyId
  solvedAt : Option ℤ
  reopenCount : ℕ
  deriving DecidableEq

/-- A row of a ticket's history: its verb and field, with the old and the new value. -/
inductive PmActivity where
  | created
  | state_changed (oldValue newValue : Option StateId)
  | title_changed (oldValue newValue : String)
  | description_changed
  | priority_updated (oldValue newValue : Priority)
  | department_updated (oldValue newValue : Option DepartmentId)
  | company_updated (oldValue newValue : Option CompanyId)
  | assigned (newValue : UserId)
  | unassigned (oldValue : UserId)
  | label_added (newValue : LabelId)
  | label_removed (oldValue : LabelId)
  | commented
  | sla_at_risk
  | sla_breached
  | relation_added (other : TicketId)
  deriving DecidableEq

/-- What a transaction has made of its ticket, and what it has written to the history. -/
structure Tx where
  row : TicketRow
  activities : List PmActivity

def Tx.write (tx : Tx) (activities : List PmActivity) : Tx :=
  { tx with activities := tx.activities ++ activities }

/-- `reassign` is for a person who passes `assertAgents`; the others are skipped. -/
inductive SlaAction where
  | raise_priority
  | reassign (userId : UserId)

/-- A change of the SLA status that is announced, with the actions the policy has for it. When the
status changes and what the policy says is `Sla.syncTicketSla`. -/
structure SlaTransition where
  breached : Bool
  actions : List SlaAction

/-- `assignees` are those of the row as the call read it. -/
def act (assignees : Finset UserId) (tx : Tx) : SlaAction → Tx
  | .raise_priority =>
    if raisedPriority tx.row.priority = tx.row.priority then tx
    else
      ⟨{ tx.row with priority := raisedPriority tx.row.priority },
        tx.activities ++ [.priority_updated tx.row.priority (raisedPriority tx.row.priority)]⟩
  | .reassign userId =>
    if userId ∈ assignees then tx
    else ⟨{ tx.row with assignees := {userId} }, tx.activities ++ [.assigned userId]⟩

def SlaTransition.announcement (transition : SlaTransition) : PmActivity :=
  if transition.breached then .sla_breached else .sla_at_risk

def SlaTransition.carryOut (transition : SlaTransition) (tx : Tx) : Tx :=
  transition.actions.foldl (act tx.row.assignees) (tx.write [transition.announcement])

/-- The transitions of the call and of the calls it makes to itself, one after each that raised the
priority. -/
def syncTicketSla : List SlaTransition → Tx → Tx
  | [], tx => tx
  | transition :: later, tx =>
    if (transition.carryOut tx).row.priority = tx.row.priority then transition.carryOut tx
    else syncTicketSla later (transition.carryOut tx)

theorem syncTicketSla_kept {Kept : Tx → Tx → Prop} (refl : ∀ tx, Kept tx tx)
    (trans : ∀ {tx next last}, Kept tx next → Kept next last → Kept tx last)
    (announces : ∀ tx (transition : SlaTransition), Kept tx (tx.write [transition.announcement]))
    (raises : ∀ tx, Kept tx ⟨{ tx.row with priority := raisedPriority tx.row.priority },
      tx.activities ++ [.priority_updated tx.row.priority (raisedPriority tx.row.priority)]⟩)
    (assigns : ∀ tx userId,
      Kept tx ⟨{ tx.row with assignees := {userId} }, tx.activities ++ [.assigned userId]⟩)
    (sla : List SlaTransition) (tx : Tx) : Kept tx (syncTicketSla sla tx) := by
  have acts (read : Finset UserId) (actions : List SlaAction) (tx : Tx) :
      Kept tx (actions.foldl (act read) tx) := by
    induction actions generalizing tx with
    | nil => exact refl tx
    | cons action rest ih =>
      refine trans ?_ (ih _)
      cases action with
      | raise_priority =>
        simp only [act]
        split
        · exact refl tx
        · exact raises tx
      | reassign userId =>
        simp only [act]
        split
        · exact refl tx
        · exact assigns tx userId
  have carried (transition : SlaTransition) (tx : Tx) : Kept tx (transition.carryOut tx) :=
    trans (announces tx transition) (acts tx.row.assignees transition.actions _)
  induction sla generalizing tx with
  | nil => exact refl tx
  | cons transition later ih =>
    unfold syncTicketSla
    split
    · exact carried transition tx
    · exact trans (carried transition tx) (ih _)

variable (group : StateId → PmStateGroup)

def terminal (stateId : Option StateId) : Bool := isTerminalGroup (stateId.map group)

/-- The ticket in `target`, with the columns that follow the group. -/
def TicketRow.moved (row existing : TicketRow) (target : StateId) (now : ℤ) : TicketRow :=
  { row with
    stateId := some target
    isCompleted := terminal group (some target)
    completedAt := if terminal group (some target) then some now else none
    solvedAt :=
      if !terminal group existing.stateId && terminal group (some target) then some now
      else if terminal group existing.stateId && !terminal group (some target) then none
      else row.solvedAt
    reopenCount :=
      if terminal group existing.stateId && !terminal group (some target) then row.reopenCount + 1
      else row.reopenCount }

/-- `none` is `CONCURRENT_MUTATION`: the ticket is no longer in the state it was read in. -/
def applyStateChange (existing : TicketRow) (target : StateId) (now : ℤ) (sla : List SlaTransition)
    (tx : Tx) : Option Tx :=
  if tx.row.stateId = existing.stateId then
    some (syncTicketSla sla
      ⟨tx.row.moved group existing target now,
        tx.activities ++ [.state_changed existing.stateId (some target)]⟩)
  else none

structure TicketUpdateInput where
  subject : Option String
  /-- Cleaned; `some none` when nothing survives. -/
  descriptionHtml : Option (Option String)
  stateId : Option StateId
  priority : Option Priority
  assigneeIds : Option (List UserId)
  departmentId : Option (Option DepartmentId)
  labelIds : Option (List LabelId)
  companyId : Option (Option CompanyId)

/-- One column: written and logged when the input gives another value than was read. -/
def Tx.change {α : Type} [DecidableEq α] (asked : Option α) (read : α)
    (put : α → TicketRow → TicketRow) (logged : α → PmActivity) (tx : Tx) : Tx :=
  match asked with
  | some next => if next = read then tx else ⟨put next tx.row, tx.activities ++ [logged next]⟩
  | none => tx

def Tx.setSubject (input : TicketUpdateInput) (existing : TicketRow) (tx : Tx) : Tx :=
  tx.change input.subject existing.name (fun next row => { row with name := next })
    (.title_changed existing.name)

def Tx.setDescription (input : TicketUpdateInput) (existing : TicketRow) (tx : Tx) : Tx :=
  tx.change input.descriptionHtml existing.descriptionHtml
    (fun next row => { row with descriptionHtml := next }) fun _ => .description_changed

def Tx.setPriority (input : TicketUpdateInput) (existing : TicketRow) (tx : Tx) : Tx :=
  tx.change input.priority existing.priority (fun next row => { row with priority := next })
    (.priority_updated existing.priority)

def Tx.setDepartment (input : TicketUpdateInput) (existing : TicketRow) (tx : Tx) : Tx :=
  tx.change input.departmentId existing.departmentId
    (fun next row => { row with departmentId := next }) (.department_updated existing.departmentId)

def Tx.setCompany (input : TicketUpdateInput) (existing : TicketRow) (tx : Tx) : Tx :=
  tx.change input.companyId existing.companyId (fun next row => { row with companyId := next })
    (.company_updated existing.companyId)

/-- One set: what is asked for and was not read is added, what was read and is not asked for is
removed. -/
def Tx.changeSet (asked : Option (List ℕ)) (read : Finset ℕ)
    (put : (Finset ℕ → Finset ℕ) → TicketRow → TicketRow) (added removed : ℕ → PmActivity)
    (tx : Tx) : Tx :=
  match asked with
  | some ids =>
    ⟨put (fun members => (members \ (read \ ids.toFinset)) ∪ (ids.toFinset \ read)) tx.row,
      tx.activities ++ (ids.eraseDups.filter fun id => id ∉ read).map added ++
        ((read \ ids.toFinset).sort (· ≤ ·)).map removed⟩
  | none => tx

def Tx.setAssignees (input : TicketUpdateInput) (existing : TicketRow) (tx : Tx) : Tx :=
  tx.changeSet input.assigneeIds existing.assignees
    (fun next row => { row with assignees := next row.assignees }) .assigned .unassigned

def Tx.setLabels (input : TicketUpdateInput) (existing : TicketRow) (tx : Tx) : Tx :=
  tx.changeSet input.labelIds existing.labels
    (fun next row => { row with labels := next row.labels }) .label_added .label_removed

def Tx.setState (asked : Option StateId) (existing : TicketRow) (now : ℤ) (sla : List SlaTransition)
    (tx : Tx) : Option Tx :=
  match asked with
  | some target =>
    if some target = existing.stateId then some tx
    else applyStateChange group existing target now sla tx
  | none => some tx

def Tx.syncPriority (input : TicketUpdateInput) (existing : TicketRow) (sla : List SlaTransition)
    (tx : Tx) : Tx :=
  match input.priority with
  | some next => if next = existing.priority then tx else syncTicketSla sla tx
  | none => tx

/-- What comes after the move, which goes first. -/
def Tx.setRest (input : TicketUpdateInput) (existing : TicketRow) (sla : List SlaTransition)
    (tx : Tx) : Tx :=
  (((((((tx.setSubject input existing).setDescription input existing).setPriority input
    existing).setDepartment input existing).syncPriority input existing sla).setAssignees input
      existing).setLabels input existing).setCompany input existing

/-- What the clock finds to announce after the move, and after the change of priority. -/
structure UpdateSla where
  state : List SlaTransition
  priority : List SlaTransition

/-- `write` of `updateTicket`. -/
def updateTicket (input : TicketUpdateInput) (existing : TicketRow) (now : ℤ) (sla : UpdateSla)
    (tx : Tx) : Option Tx :=
  (tx.setState group input.stateId existing now sla.state).map fun moved =>
    moved.setRest input existing sla.priority

structure TicketCreateInput where
  deskId : DeskId
  subject : String
  descriptionHtml : Option String
  stateId : Option StateId
  priority : Option Priority
  assigneeIds : Option (List UserId)
  labelIds : List LabelId
  departmentId : Option DepartmentId
  /-- The company asked for, or else the only one of the contact. -/
  companyId : Option CompanyId

/-- The state a ticket of the desk is created in when none is asked for. -/
def defaultState (states : List PmState) : Option PmState :=
  (states.find? PmState.isDefault).or
    (states.mergeSort fun first second => decide (first.sortOrder ≤ second.sortOrder)).head?

def pickState (states : List PmState) (stateId : StateId) : Option PmState :=
  states.find? fun state => state.id = stateId

def TicketCreateInput.state (input : TicketCreateInput) (states : List PmState) : Option PmState :=
  match input.stateId with
  | some stateId => pickState states stateId
  | none => defaultState states

/-- Who is assigned: `auto` is what `assignNewTicket` returns. -/
def TicketCreateInput.assignees (input : TicketCreateInput) (auto : Option UserId) : List UserId :=
  match input.assigneeIds with
  | some ids => ids.eraseDups
  | none => auto.toList

def TicketCreateInput.row (input : TicketCreateInput) (state : StateId) (auto : Option UserId)
    (now : ℤ) : TicketRow where
  projectId := input.deskId
  name := input.subject
  descriptionHtml := input.descriptionHtml
  stateId := some state
  priority := input.priority.getD .none
  departmentId := input.departmentId
  isCompleted := terminal group (some state)
  completedAt := if terminal group (some state) then some now else none
  assignees := (input.assignees auto).toFinset
  labels := input.labelIds.toFinset
  companyId := input.companyId
  solvedAt := if terminal group (some state) then some now else none
  reopenCount := 0

/-- The history of a create. Its clock has just started and announces nothing. -/
def TicketCreateInput.activities (input : TicketCreateInput) (auto : Option UserId) :
    List PmActivity :=
  .created :: (input.assignees auto).map .assigned

end Droplet.Support
