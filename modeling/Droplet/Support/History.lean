import Droplet.BusinessTime.Saved
import Droplet.Lib.Histories
import Droplet.Support.Calls

/-! A ticket's history replays to the ticket: each row of the history says what the replay of the rows
before it holds, over any interleaving of calls. -/

namespace Droplet.Support

open Sla (Priority raisedPriority)

/-- What the history tells of a ticket. -/
structure Replayed where
  stateId : Option StateId
  name : String
  priority : Priority
  departmentId : Option DepartmentId
  companyId : Option CompanyId
  assignees : Finset UserId
  labels : Finset LabelId

def TicketRow.shown (row : TicketRow) : Replayed :=
  ⟨row.stateId, row.name, row.priority, row.departmentId, row.companyId, row.assignees, row.labels⟩

def Replayed.apply (replayed : Replayed) : PmActivity → Replayed
  | .state_changed _ newValue => { replayed with stateId := newValue }
  | .title_changed _ newValue => { replayed with name := newValue }
  | .priority_updated _ newValue => { replayed with priority := newValue }
  | .department_updated _ newValue => { replayed with departmentId := newValue }
  | .company_updated _ newValue => { replayed with companyId := newValue }
  | .assigned newValue => { replayed with assignees := insert newValue replayed.assignees }
  | .unassigned oldValue => { replayed with assignees := replayed.assignees.erase oldValue }
  | .label_added newValue => { replayed with labels := insert newValue replayed.labels }
  | .label_removed oldValue => { replayed with labels := replayed.labels.erase oldValue }
  | _ => replayed

/-- The old value is the one replayed; who is added is absent, and who is removed is present. -/
def Replayed.Fits (replayed : Replayed) : PmActivity → Prop
  | .state_changed oldValue _ => oldValue = replayed.stateId
  | .title_changed oldValue _ => oldValue = replayed.name
  | .priority_updated oldValue _ => oldValue = replayed.priority
  | .department_updated oldValue _ => oldValue = replayed.departmentId
  | .company_updated oldValue _ => oldValue = replayed.companyId
  | .assigned newValue => newValue ∉ replayed.assignees
  | .unassigned oldValue => oldValue ∈ replayed.assignees
  | .label_added newValue => newValue ∉ replayed.labels
  | .label_removed oldValue => oldValue ∈ replayed.labels
  | _ => True

/-- A create logs each assignee but not the other columns: the replay begins without the assignees it will
log. -/
def Entry.replay (ticket : TicketId) (replayed : Option Replayed) : Entry → Option Replayed
  | .created id _ row logged =>
    if id = ticket then some { row.shown with assignees := row.assignees \ logged } else replayed
  | .wrote id _ _ activity =>
    if id = ticket then replayed.map fun before => before.apply activity else replayed
  | _ => replayed

def replayed (ticket : TicketId) (log : List Entry) : Option Replayed :=
  log.foldl (Entry.replay ticket) none

def FitsBefore (earlier : List Entry) : Entry → Prop
  | .wrote ticket _ _ activity => ∃ before, replayed ticket earlier = some before ∧
      before.Fits activity
  | _ => True

def SlaAction.user : SlaAction → Option UserId
  | .reassign userId => some userId
  | .raise_priority => none

def SlaTransition.reassigned (transition : SlaTransition) : List UserId :=
  transition.actions.filterMap SlaAction.user

def reassigned (sla : List SlaTransition) : List UserId := sla.flatMap SlaTransition.reassigned

/-- The clock hands the ticket over to nobody new, or hands it once, and from nobody. -/
def Lone (assignees : Finset UserId) (users : List UserId) : Prop :=
  (∀ user ∈ users, user ∈ assignees) ∨ assignees = ∅ ∧ users.length ≤ 1

structure Agreed (input : TicketUpdateInput) (existing row : TicketRow) : Prop where
  subject : input.subject.isSome → existing.name = row.name
  description : input.descriptionHtml.isSome → existing.descriptionHtml = row.descriptionHtml
  state : input.stateId.isSome → existing.stateId = row.stateId
  priority : input.priority.isSome → existing.priority = row.priority
  department : input.departmentId.isSome → existing.departmentId = row.departmentId
  assignees : input.assigneeIds.isSome → existing.assignees = row.assignees
  labels : input.labelIds.isSome → existing.labels = row.labels
  company : input.companyId.isSome → existing.companyId = row.companyId

structure Undisturbed (input : TicketUpdateInput) (sla : UpdateSla) (row : TicketRow) : Prop where
  lone : Lone row.assignees (reassigned sla.state ++ reassigned sla.priority)
  priority : input.priority.isSome → row.priority ≠ .urgent →
    ∀ transition ∈ sla.state, .raise_priority ∉ transition.actions
  assignees : input.assigneeIds.isSome →
    ∀ user ∈ reassigned sla.state ++ reassigned sla.priority, user ∈ row.assignees

def Call.Current (call : Call) (sla : UpdateSla) (row : TicketRow) : Prop :=
  match call.work with
  | .update input => Agreed input call.existing row ∧ Undisturbed input sla row
  | .comment _ _ => Lone row.assignees (reassigned sla.state ++ reassigned sla.priority)

def Current (world : World) : Action → Prop
  | .commit place sla => ∀ call row, world.calls[place]? = some call → call.stage = .reading →
      world.tickets call.ticket = some row →
        (call.moves = true → row.stateId = call.existing.stateId) → call.Current sla row
  | .intake message sla => ∀ ticket row, message.ticket = some ticket →
      world.tickets ticket = some row →
        Lone row.assignees (reassigned sla.state ++ reassigned sla.priority)
  | .tick ticket _ sla => ∀ row, world.tickets ticket = some row →
      Lone row.assignees (reassigned sla)
  | _ => True

/-- The new rows of the history lead from one row of the ticket to the other. -/
def Tx.Follows (tx next : Tx) : Prop :=
  ∃ more, next.activities = tx.activities ++ more ∧
    Stepping.Along Replayed.apply Replayed.Fits tx.row.shown more ∧
      Stepping.run Replayed.apply tx.row.shown more = next.row.shown

variable {tx next last : Tx}

theorem Tx.Follows.refl (tx : Tx) : tx.Follows tx :=
  ⟨[], by simp, trivial, rfl⟩

theorem Tx.Follows.trans (first : tx.Follows next) (second : next.Follows last) : tx.Follows last := by
  obtain ⟨more, same, fits, ends⟩ := first
  obtain ⟨yet, then_, fits_too, ends_too⟩ := second
  refine ⟨more ++ yet, by rw [then_, same, List.append_assoc], ?_, ?_⟩
  · rw [Stepping.Along.append, ends]
    exact ⟨fits, fits_too⟩
  · rw [Stepping.run_append, ends]
    exact ends_too

theorem follows_one {row : TicketRow} {activity : PmActivity} (fits : tx.row.shown.Fits activity)
    (ends : tx.row.shown.apply activity = row.shown) : tx.Follows ⟨row, tx.activities ++ [activity]⟩ :=
  ⟨[activity], rfl, ⟨fits, trivial⟩, ends⟩

theorem follows_change {α : Type} [DecidableEq α] {asked : Option α} {read : α}
    {put : α → TicketRow → TicketRow} {logged : α → PmActivity}
    (fits : ∀ next, asked = some next → tx.row.shown.Fits (logged next))
    (ends : ∀ next, tx.row.shown.apply (logged next) = (put next tx.row).shown) :
    tx.Follows (tx.change asked read put logged) := by
  unfold Tx.change
  split
  · rename_i value
    split
    · exact .refl tx
    · exact follows_one (fits value rfl) (ends value)
  · exact .refl tx

/-- A set that is replayed, with the rows of what is added to it and removed from it. -/
structure SetColumn (added removed : ℕ → PmActivity) (members : Replayed → Finset ℕ)
    (restore : Finset ℕ → Replayed → Replayed) : Prop where
  adds : ∀ replayed id, replayed.apply (added id) = restore (insert id (members replayed)) replayed
  removes : ∀ replayed id, replayed.apply (removed id) = restore ((members replayed).erase id) replayed
  absent : ∀ replayed id, replayed.Fits (added id) ↔ id ∉ members replayed
  present : ∀ replayed id, replayed.Fits (removed id) ↔ id ∈ members replayed
  members_restore : ∀ ids replayed, members (restore ids replayed) = ids
  restore_restore : ∀ ids ids' replayed, restore ids (restore ids' replayed) = restore ids replayed
  restore_members : ∀ replayed, restore (members replayed) replayed = replayed

theorem assigneesColumn : SetColumn .assigned .unassigned Replayed.assignees
    fun ids replayed => { replayed with assignees := ids } := by
  constructor <;> intros <;> rfl

theorem labelsColumn : SetColumn .label_added .label_removed Replayed.labels
    fun ids replayed => { replayed with labels := ids } := by
  constructor <;> intros <;> rfl

variable {added removed : ℕ → PmActivity} {members : Replayed → Finset ℕ}
  {restore : Finset ℕ → Replayed → Replayed}

theorem SetColumn.add (column : SetColumn added removed members restore) {ids : List ℕ}
    (nodup : ids.Nodup) {replayed : Replayed} (absent : ∀ id ∈ ids, id ∉ members replayed) :
    Stepping.Along Replayed.apply Replayed.Fits replayed (ids.map added) ∧
      Stepping.run Replayed.apply replayed (ids.map added) =
        restore (members replayed ∪ ids.toFinset) replayed := by
  induction ids generalizing replayed with
  | nil => exact ⟨trivial, by simp [column.restore_members]⟩
  | cons id rest ih =>
    obtain ⟨new, nodup⟩ := List.nodup_cons.mp nodup
    have later := @ih nodup (replayed.apply (added id)) ?_
    · refine ⟨⟨(column.absent _ _).mpr (absent id (by simp)), later.1⟩, ?_⟩
      rw [List.map_cons, Stepping.run_cons, later.2, column.adds, column.members_restore,
        column.restore_restore]
      congr 1
      ext other
      simp only [Finset.mem_union, Finset.mem_insert, List.toFinset_cons]
      tauto
    · intro other member
      rw [column.adds, column.members_restore, Finset.mem_insert]
      rintro (same | before)
      · exact new (same ▸ member)
      · exact absent other (by simp [member]) before

theorem SetColumn.remove (column : SetColumn added removed members restore) {ids : List ℕ}
    (nodup : ids.Nodup) {replayed : Replayed} (present : ∀ id ∈ ids, id ∈ members replayed) :
    Stepping.Along Replayed.apply Replayed.Fits replayed (ids.map removed) ∧
      Stepping.run Replayed.apply replayed (ids.map removed) =
        restore (members replayed \ ids.toFinset) replayed := by
  induction ids generalizing replayed with
  | nil => exact ⟨trivial, by simp [column.restore_members]⟩
  | cons id rest ih =>
    obtain ⟨new, nodup⟩ := List.nodup_cons.mp nodup
    have later := @ih nodup (replayed.apply (removed id)) ?_
    · refine ⟨⟨(column.present _ _).mpr (present id (by simp)), later.1⟩, ?_⟩
      rw [List.map_cons, Stepping.run_cons, later.2, column.removes, column.members_restore,
        column.restore_restore]
      congr 1
      ext other
      simp only [Finset.mem_sdiff, Finset.mem_erase, List.toFinset_cons, Finset.mem_insert]
      tauto
    · intro other member
      rw [column.removes, column.members_restore, Finset.mem_erase]
      refine ⟨?_, present other (by simp [member])⟩
      intro same
      exact new (same ▸ member)

variable {set : (Finset ℕ → Finset ℕ) → TicketRow → TicketRow}

theorem SetColumn.follows (column : SetColumn added removed members restore) {asked : Option (List ℕ)}
    {read : Finset ℕ} (shown : ∀ change, (set change tx.row).shown =
      restore (change (members tx.row.shown)) tx.row.shown)
    (agrees : asked.isSome → read = members tx.row.shown) :
    tx.Follows (tx.changeSet asked read set added removed) := by
  unfold Tx.changeSet
  split
  swap
  · exact .refl tx
  rename_i ids
  have same := agrees rfl
  subst same
  have absent (id : ℕ) (member : id ∈ ids.eraseDups.filter fun id => id ∉ members tx.row.shown) :
      id ∉ members tx.row.shown := of_decide_eq_true (List.mem_filter.mp member).2
  have adds := column.add ((BusinessTime.eraseDups_nodup ids).filter _) absent
  have after (id : ℕ) (member : id ∈ (members tx.row.shown \ ids.toFinset).sort (· ≤ ·)) :
      id ∈ members (Stepping.run Replayed.apply tx.row.shown
        ((ids.eraseDups.filter fun id => id ∉ members tx.row.shown).map added)) := by
    rw [Finset.mem_sort, Finset.mem_sdiff] at member
    rw [adds.2, column.members_restore, Finset.mem_union]
    exact .inl member.1
  have removes := column.remove (Finset.sort_nodup _ _) after
  refine ⟨_, List.append_assoc _ _ _, Stepping.Along.append.mpr ⟨adds.1, removes.1⟩, ?_⟩
  rw [Stepping.run_append, removes.2, adds.2, column.members_restore, column.restore_restore, shown]
  congr 1
  ext id
  simp only [Finset.mem_sdiff, Finset.mem_union, List.mem_toFinset, List.mem_filter,
    List.mem_eraseDups, Finset.mem_sort, decide_eq_true_eq]
  tauto

/-- The users the clock still has to hand the ticket to, in a call that read `read`. -/
def Ready (read current : Finset UserId) (users : List UserId) : Prop :=
  users = [] ∨ read = current ∧ Lone current users

theorem Lone.later {assignees : Finset UserId} {users later : List UserId}
    (lone : Lone assignees (users ++ later)) : Lone assignees later := by
  rcases lone with all | ⟨none_yet, one⟩
  · exact .inl fun user member => all user (List.mem_append_right _ member)
  · rw [List.length_append] at one
    exact .inr ⟨none_yet, by omega⟩

theorem Ready.lone {read current : Finset UserId} {users : List UserId}
    (ready : Ready read current users) : Lone current users := by
  rcases ready with none_left | ⟨_, lone⟩
  · exact .inl fun user member => by simp [none_left] at member
  · exact lone

theorem act_follows {read : Finset UserId} {action : SlaAction} {later : List UserId}
    (ready : Ready read tx.row.assignees (action.user.toList ++ later)) :
    tx.Follows (act read tx action) ∧ Ready read (act read tx action).row.assignees later := by
  cases action with
  | raise_priority =>
    simp only [act]
    split
    · exact ⟨.refl tx, ready⟩
    · exact ⟨follows_one rfl rfl, ready⟩
  | reassign userId =>
    simp only [SlaAction.user, Option.toList_some, List.singleton_append] at ready
    rcases ready with none_left | ⟨same, lone⟩
    · cases none_left
    simp only [act]
    split
    · exact ⟨.refl tx, .inr ⟨same, @Lone.later _ [userId] _ lone⟩⟩
    · rename_i new
      rcases lone with all | ⟨none_yet, one⟩
      · exact absurd (same ▸ all userId (by simp)) new
      · refine ⟨follows_one ?_ ?_, .inl ?_⟩
        · rw [same] at new
          exact new
        · simp [TicketRow.shown, Replayed.apply, none_yet]
        · rw [List.length_cons] at one
          exact List.eq_nil_of_length_eq_zero (by omega)

theorem acts_follow {read : Finset UserId} (actions : List SlaAction) {later : List UserId}
    (ready : Ready read tx.row.assignees (actions.filterMap SlaAction.user ++ later)) :
    tx.Follows (actions.foldl (act read) tx) ∧
      Ready read (actions.foldl (act read) tx).row.assignees later := by
  induction actions generalizing tx with
  | nil => exact ⟨.refl tx, ready⟩
  | cons action rest ih =>
    have first : Ready read tx.row.assignees
        (action.user.toList ++ (rest.filterMap SlaAction.user ++ later)) := by
      cases action <;> exact ready
    obtain ⟨one, next⟩ := act_follows first
    obtain ⟨more, last⟩ := ih next
    exact ⟨one.trans more, last⟩

theorem announcement_neutral (transition : SlaTransition) (replayed : Replayed) :
    replayed.Fits transition.announcement ∧ replayed.apply transition.announcement = replayed := by
  unfold SlaTransition.announcement
  split <;> exact ⟨trivial, rfl⟩

theorem carryOut_follows {transition : SlaTransition} {later : List UserId}
    (lone : Lone tx.row.assignees (transition.reassigned ++ later)) :
    tx.Follows (transition.carryOut tx) ∧ Lone (transition.carryOut tx).row.assignees later := by
  obtain ⟨fits, ends⟩ := announcement_neutral transition tx.row.shown
  have announced : tx.Follows (tx.write [transition.announcement]) := follows_one fits ends
  have ready : Ready tx.row.assignees (tx.write [transition.announcement]).row.assignees
      (transition.actions.filterMap SlaAction.user ++ later) := .inr ⟨rfl, lone⟩
  obtain ⟨acted, left⟩ := acts_follow transition.actions ready
  exact ⟨announced.trans acted, left.lone⟩

theorem sync_follows {sla : List SlaTransition} {later : List UserId}
    (lone : Lone tx.row.assignees (reassigned sla ++ later)) :
    tx.Follows (syncTicketSla sla tx) ∧ Lone (syncTicketSla sla tx).row.assignees later := by
  induction sla generalizing tx with
  | nil => exact ⟨.refl tx, lone⟩
  | cons transition rest ih =>
    have first : Lone tx.row.assignees (transition.reassigned ++ (reassigned rest ++ later)) := by
      rw [← List.append_assoc]
      exact lone
    obtain ⟨one, left⟩ := carryOut_follows first
    unfold syncTicketSla
    split
    · exact ⟨one, left.later⟩
    · obtain ⟨more, last⟩ := ih left
      exact ⟨one.trans more, last⟩

/-- What a step of the clock never touches. -/
structure Aside (tx next : Tx) : Prop where
  name : next.row.name = tx.row.name
  departmentId : next.row.departmentId = tx.row.departmentId
  companyId : next.row.companyId = tx.row.companyId
  labels : next.row.labels = tx.row.labels

theorem Aside.refl (tx : Tx) : Aside tx tx := ⟨rfl, rfl, rfl, rfl⟩

theorem Aside.trans (first : Aside tx next) (second : Aside next last) : Aside tx last :=
  ⟨second.name.trans first.name, second.departmentId.trans first.departmentId,
    second.companyId.trans first.companyId, second.labels.trans first.labels⟩

theorem sync_aside (sla : List SlaTransition) (tx : Tx) : Aside tx (syncTicketSla sla tx) := by
  apply syncTicketSla_kept Aside.refl Aside.trans
  · exact fun _ _ => ⟨rfl, rfl, rfl, rfl⟩
  · exact fun _ => ⟨rfl, rfl, rfl, rfl⟩
  · exact fun _ _ => ⟨rfl, rfl, rfl, rfl⟩

theorem sync_assignees {sla : List SlaTransition} (known : ∀ user ∈ reassigned sla, user ∈ tx.row.assignees) :
    (syncTicketSla sla tx).row.assignees = tx.row.assignees := by
  have acts (read : Finset UserId) (actions : List SlaAction) (tx : Tx)
      (known : ∀ user ∈ actions.filterMap SlaAction.user, user ∈ read) :
      (actions.foldl (act read) tx).row.assignees = tx.row.assignees := by
    induction actions generalizing tx with
    | nil => rfl
    | cons action rest ih =>
      have one : (act read tx action).row.assignees = tx.row.assignees := by
        cases action with
        | raise_priority =>
          simp only [act]
          split <;> rfl
        | reassign userId =>
          simp only [act]
          rw [if_pos (known userId (by simp [SlaAction.user]))]
      rw [List.foldl_cons, ih, one]
      intro user member
      apply known
      cases action with
      | raise_priority => exact member
      | reassign userId => exact List.mem_cons_of_mem _ member
  have carried (transition : SlaTransition) (tx : Tx)
      (known : ∀ user ∈ transition.reassigned, user ∈ tx.row.assignees) :
      (transition.carryOut tx).row.assignees = tx.row.assignees :=
    acts tx.row.assignees transition.actions _ known
  induction sla generalizing tx with
  | nil => rfl
  | cons transition later ih =>
    have first := carried transition tx fun user member =>
      known user (List.mem_append_left _ member)
    unfold syncTicketSla
    split
    · exact first
    · rw [ih, first]
      intro user member
      rw [first]
      exact known user (List.mem_append_right _ member)

theorem sync_priority {sla : List SlaTransition} (calm : tx.row.priority ≠ .urgent →
    ∀ transition ∈ sla, .raise_priority ∉ transition.actions) :
    (syncTicketSla sla tx).row.priority = tx.row.priority := by
  have acts (read : Finset UserId) (actions : List SlaAction) (tx : Tx)
      (calm : tx.row.priority ≠ .urgent → .raise_priority ∉ actions) :
      (actions.foldl (act read) tx).row.priority = tx.row.priority := by
    induction actions generalizing tx with
    | nil => rfl
    | cons action rest ih =>
      have one : (act read tx action).row.priority = tx.row.priority := by
        cases action with
        | raise_priority =>
          have urgent : tx.row.priority = .urgent := by
            by_contra other
            exact calm other (by simp)
          simp [act, urgent, raisedPriority]
        | reassign userId =>
          simp only [act]
          split <;> rfl
      rw [List.foldl_cons, ih, one]
      intro other member
      rw [one] at other
      exact calm other (List.mem_cons_of_mem _ member)
  cases sla with
  | nil => rfl
  | cons transition later =>
    have carried : (transition.carryOut tx).row.priority = tx.row.priority :=
      acts tx.row.assignees transition.actions _ fun other => calm other transition (by simp)
    unfold syncTicketSla
    rw [if_pos carried]
    exact carried

variable {group : StateId → PmStateGroup} {existing row : TicketRow} {now : ℤ}

variable {asked : Option StateId} {sla : List SlaTransition}

theorem setState_cases (done : Tx.setState group asked existing now sla tx = some next) :
    next = tx ∨ ∃ target, tx.row.stateId = existing.stateId ∧
      next = syncTicketSla sla ⟨tx.row.moved group existing target now,
        tx.activities ++ [.state_changed existing.stateId (some target)]⟩ := by
  unfold Tx.setState at done
  split at done
  · rename_i target
    split at done
    · exact .inl (Option.some_inj.mp done).symm
    · unfold applyStateChange at done
      split at done
      · rename_i read
        exact .inr ⟨target, read, (Option.some_inj.mp done).symm⟩
      · cases done
  · exact .inl (Option.some_inj.mp done).symm

/-- What a move leaves of the columns that come after it. -/
structure Moved (sla later : List SlaTransition) (tx next : Tx) : Prop where
  follows : tx.Follows next
  lone : Lone next.row.assignees (reassigned later)
  aside : Aside tx next
  assignees : (∀ user ∈ reassigned sla, user ∈ tx.row.assignees) →
    next.row.assignees = tx.row.assignees
  priority : (tx.row.priority ≠ .urgent → ∀ transition ∈ sla, .raise_priority ∉ transition.actions) →
    next.row.priority = tx.row.priority

theorem setState_moved {sla later : List SlaTransition}
    (lone : Lone tx.row.assignees (reassigned sla ++ reassigned later))
    (done : Tx.setState group asked existing now sla tx = some next) : Moved sla later tx next := by
  rcases setState_cases done with same | ⟨target, read, same⟩
  · rw [same]
    exact ⟨.refl tx, lone.later, .refl tx, fun _ => rfl, fun _ => rfl⟩
  rw [same]
  let moved : Tx := ⟨tx.row.moved group existing target now,
    tx.activities ++ [.state_changed existing.stateId (some target)]⟩
  have first : tx.Follows moved := follows_one read.symm rfl
  have synced := @sync_follows moved sla _ lone
  have aside : Aside tx moved := ⟨rfl, rfl, rfl, rfl⟩
  exact ⟨first.trans synced.1, synced.2, aside.trans (sync_aside sla moved),
    fun known => @sync_assignees moved sla known, fun calm => @sync_priority moved sla calm⟩

variable {input : TicketUpdateInput}

theorem change_column {α β : Type} [DecidableEq α] {asked : Option α} {read : α}
    {set : α → TicketRow → TicketRow} {logged : α → PmActivity} (column : TicketRow → β)
    (apart : ∀ next row, column (set next row) = column row) :
    column (tx.change asked read set logged).row = column tx.row := by
  unfold Tx.change
  split
  · split
    · rfl
    · exact apart _ _
  · rfl

theorem changeSet_column {β : Type} {asked : Option (List ℕ)} {read : Finset ℕ}
    (column : TicketRow → β) (apart : ∀ next row, column (set next row) = column row) :
    column (tx.changeSet asked read set added removed).row = column tx.row := by
  unfold Tx.changeSet
  split
  · exact apart _ _
  · rfl

@[simp] theorem setSubject_columns (tx : Tx) :
    (tx.setSubject input existing).row.priority = tx.row.priority ∧
      (tx.setSubject input existing).row.departmentId = tx.row.departmentId ∧
      (tx.setSubject input existing).row.assignees = tx.row.assignees ∧
      (tx.setSubject input existing).row.labels = tx.row.labels ∧
      (tx.setSubject input existing).row.companyId = tx.row.companyId := by
  refine ⟨?_, ?_, ?_, ?_, ?_⟩
  · exact change_column TicketRow.priority fun _ _ => rfl
  · exact change_column TicketRow.departmentId fun _ _ => rfl
  · exact change_column TicketRow.assignees fun _ _ => rfl
  · exact change_column TicketRow.labels fun _ _ => rfl
  · exact change_column TicketRow.companyId fun _ _ => rfl

@[simp] theorem setDescription_columns (tx : Tx) :
    (tx.setDescription input existing).row.priority = tx.row.priority ∧
      (tx.setDescription input existing).row.departmentId = tx.row.departmentId ∧
      (tx.setDescription input existing).row.assignees = tx.row.assignees ∧
      (tx.setDescription input existing).row.labels = tx.row.labels ∧
      (tx.setDescription input existing).row.companyId = tx.row.companyId := by
  refine ⟨?_, ?_, ?_, ?_, ?_⟩
  · exact change_column TicketRow.priority fun _ _ => rfl
  · exact change_column TicketRow.departmentId fun _ _ => rfl
  · exact change_column TicketRow.assignees fun _ _ => rfl
  · exact change_column TicketRow.labels fun _ _ => rfl
  · exact change_column TicketRow.companyId fun _ _ => rfl

@[simp] theorem setPriority_columns (tx : Tx) :
    (tx.setPriority input existing).row.departmentId = tx.row.departmentId ∧
      (tx.setPriority input existing).row.assignees = tx.row.assignees ∧
      (tx.setPriority input existing).row.labels = tx.row.labels ∧
      (tx.setPriority input existing).row.companyId = tx.row.companyId := by
  refine ⟨?_, ?_, ?_, ?_⟩
  · exact change_column TicketRow.departmentId fun _ _ => rfl
  · exact change_column TicketRow.assignees fun _ _ => rfl
  · exact change_column TicketRow.labels fun _ _ => rfl
  · exact change_column TicketRow.companyId fun _ _ => rfl

@[simp] theorem setDepartment_columns (tx : Tx) :
    (tx.setDepartment input existing).row.assignees = tx.row.assignees ∧
      (tx.setDepartment input existing).row.labels = tx.row.labels ∧
      (tx.setDepartment input existing).row.companyId = tx.row.companyId := by
  refine ⟨?_, ?_, ?_⟩
  · exact change_column TicketRow.assignees fun _ _ => rfl
  · exact change_column TicketRow.labels fun _ _ => rfl
  · exact change_column TicketRow.companyId fun _ _ => rfl

@[simp] theorem setAssignees_columns (tx : Tx) :
    (tx.setAssignees input existing).row.labels = tx.row.labels ∧
      (tx.setAssignees input existing).row.companyId = tx.row.companyId :=
  ⟨changeSet_column TicketRow.labels fun _ _ => rfl,
    changeSet_column TicketRow.companyId fun _ _ => rfl⟩

@[simp] theorem setLabels_columns (tx : Tx) : (tx.setLabels input existing).row.companyId = tx.row.companyId :=
  changeSet_column TicketRow.companyId fun _ _ => rfl

/-- The change of priority tells the clock, which may hand the ticket over. -/
structure Synced (sla : List SlaTransition) (tx next : Tx) : Prop where
  follows : tx.Follows next
  labels : next.row.labels = tx.row.labels
  companyId : next.row.companyId = tx.row.companyId
  assignees : (∀ user ∈ reassigned sla, user ∈ tx.row.assignees) →
    next.row.assignees = tx.row.assignees

theorem syncPriority_synced {sla : List SlaTransition} (lone : Lone tx.row.assignees (reassigned sla)) :
    Synced sla tx (tx.syncPriority input existing sla) := by
  unfold Tx.syncPriority
  split
  · split
    · exact ⟨.refl tx, rfl, rfl, fun _ => rfl⟩
    · have all : Lone tx.row.assignees (reassigned sla ++ []) := by rwa [List.append_nil]
      have aside := sync_aside sla tx
      exact ⟨(sync_follows all).1, aside.labels, aside.companyId, sync_assignees⟩
  · exact ⟨.refl tx, rfl, rfl, fun _ => rfl⟩

theorem setRest_follows (agreed : Agreed input existing row)
    (aside : Aside ⟨row, []⟩ tx) (priority : input.priority.isSome → tx.row.priority = row.priority)
    (lone : Lone tx.row.assignees (reassigned sla))
    (assignees : input.assigneeIds.isSome → tx.row.assignees = row.assignees ∧
      ∀ user ∈ reassigned sla, user ∈ row.assignees) : tx.Follows (tx.setRest input existing sla) := by
  have isSome {α : Type} {asked : Option α} {next : α} (asks : asked = some next) :
      asked.isSome = true := Option.isSome_iff_exists.mpr ⟨next, asks⟩
  have subject : tx.Follows (tx.setSubject input existing) := by
    apply follows_change
    · intro next asks
      exact (agreed.subject (isSome asks)).trans aside.name.symm
    · exact fun _ => rfl
  have description (tx : Tx) : tx.Follows (tx.setDescription input existing) := by
    apply follows_change
    · exact fun _ _ => trivial
    · exact fun _ => rfl
  have priorities (before : Tx) (same : before.row.priority = tx.row.priority) :
      before.Follows (before.setPriority input existing) := by
    apply follows_change
    · intro next asks
      exact (agreed.priority (isSome asks)).trans ((priority (isSome asks)).symm.trans same.symm)
    · exact fun _ => rfl
  have department (before : Tx) (same : before.row.departmentId = tx.row.departmentId) :
      before.Follows (before.setDepartment input existing) := by
    apply follows_change
    · intro next asks
      exact (agreed.department (isSome asks)).trans (aside.departmentId.symm.trans same.symm)
    · exact fun _ => rfl
  have company (before : Tx) (same : before.row.companyId = tx.row.companyId) :
      before.Follows (before.setCompany input existing) := by
    apply follows_change
    · intro next asks
      exact (agreed.company (isSome asks)).trans (aside.companyId.symm.trans same.symm)
    · exact fun _ => rfl
  have labels (before : Tx) (same : before.row.labels = tx.row.labels) :
      before.Follows (before.setLabels input existing) := by
    apply labelsColumn.follows
    · exact fun _ => rfl
    · intro asks
      exact (agreed.labels asks).trans (aside.labels.symm.trans same.symm)
  have assigned (before : Tx) (same : input.assigneeIds.isSome → before.row.assignees = tx.row.assignees) :
      before.Follows (before.setAssignees input existing) := by
    apply assigneesColumn.follows
    · exact fun _ => rfl
    · intro asks
      exact (agreed.assignees asks).trans ((assignees asks).1.symm.trans (same asks).symm)
  have synced := @syncPriority_synced ((((tx.setSubject input existing).setDescription input
    existing).setPriority input existing).setDepartment input existing) existing input sla
    (by simpa using lone)
  refine subject.trans ((description _).trans ((priorities _ (by simp)).trans
    ((department _ (by simp)).trans (synced.follows.trans ((assigned _ ?_).trans
      ((labels _ ?_).trans (company _ ?_)))))))
  · intro asks
    rw [synced.assignees]
    · simp
    · intro user member
      obtain ⟨same, known⟩ := assignees asks
      simpa [same] using known user member
  · simp [synced.labels]
  · simp [synced.companyId]

theorem updateTicket_follows {sla : UpdateSla} (agreed : Agreed input existing row)
    (undisturbed : Undisturbed input sla row)
    (done : updateTicket group input existing now sla ⟨row, []⟩ = some tx) : Tx.Follows ⟨row, []⟩ tx := by
  obtain ⟨moved, first, rest⟩ := Option.map_eq_some_iff.mp done
  have was : Moved sla.state sla.priority ⟨row, []⟩ moved := setState_moved undisturbed.lone first
  rw [← rest]
  apply was.follows.trans
  apply setRest_follows agreed was.aside
  · intro asks
    exact was.priority (undisturbed.priority asks)
  · exact was.lone
  · intro asks
    have known := undisturbed.assignees asks
    refine ⟨was.assignees fun user member => known user (List.mem_append_left _ member), ?_⟩
    intro user member
    exact known user (List.mem_append_right _ member)

theorem comment_follows {stateId : Option StateId} {reply : Bool} {sla : UpdateSla}
    (lone : Lone row.assignees (reassigned sla.state ++ reassigned sla.priority))
    (done : comment group stateId reply existing now sla ⟨row, []⟩ = some tx) : Tx.Follows ⟨row, []⟩ tx := by
  obtain ⟨moved, first, rest⟩ := Option.map_eq_some_iff.mp done
  have was : Moved sla.state sla.priority ⟨row, []⟩ moved := setState_moved lone first
  have all : Lone moved.row.assignees (reassigned sla.priority ++ []) := by
    rw [List.append_nil]
    exact was.lone
  rw [← rest]
  apply was.follows.trans
  split
  · exact (sync_follows all).1.trans (follows_one trivial rfl)
  · exact follows_one trivial rfl

theorem change_at_once {α : Type} [DecidableEq α] {asked : Option α} {read read' : α}
    (set : α → TicketRow → TicketRow) (logged : α → α → PmActivity)
    (same : asked.isSome → read = read') (tx : Tx) :
    tx.change asked read set (logged read) = tx.change asked read' set (logged read') := by
  cases asked with
  | none => rfl
  | some next => rw [same rfl]

theorem changeSet_at_once {asked : Option (List ℕ)} {read read' : Finset ℕ}
    (set : (Finset ℕ → Finset ℕ) → TicketRow → TicketRow) (same : asked.isSome → read = read') (tx : Tx) :
    tx.changeSet asked read set added removed = tx.changeSet asked read' set added removed := by
  cases asked with
  | none => rfl
  | some ids => rw [same rfl]

theorem setState_at_once (same : asked.isSome → existing.stateId = row.stateId) (tx : Tx) :
    Tx.setState group asked existing now sla tx = Tx.setState group asked row now sla tx := by
  cases asked with
  | none => rfl
  | some target =>
    simp only [Tx.setState, applyStateChange, TicketRow.moved]
    rw [same rfl]

theorem syncPriority_at_once (same : input.priority.isSome → existing.priority = row.priority) (tx : Tx) :
    tx.syncPriority input existing sla = tx.syncPriority input row sla := by
  unfold Tx.syncPriority
  cases asks : input.priority with
  | none => rfl
  | some next => rw [same (by simp [asks])]

theorem updateTicket_at_once {sla : UpdateSla} (agreed : Agreed input existing row) (tx : Tx) :
    updateTicket group input existing now sla tx = updateTicket group input row now sla tx := by
  have subject (tx : Tx) : tx.setSubject input existing = tx.setSubject input row :=
    change_at_once _ PmActivity.title_changed agreed.subject tx
  have description (tx : Tx) : tx.setDescription input existing = tx.setDescription input row :=
    change_at_once _ (fun _ _ => PmActivity.description_changed) agreed.description tx
  have priority (tx : Tx) : tx.setPriority input existing = tx.setPriority input row :=
    change_at_once _ PmActivity.priority_updated agreed.priority tx
  have department (tx : Tx) : tx.setDepartment input existing = tx.setDepartment input row :=
    change_at_once _ PmActivity.department_updated agreed.department tx
  have company (tx : Tx) : tx.setCompany input existing = tx.setCompany input row :=
    change_at_once _ PmActivity.company_updated agreed.company tx
  have assignees (tx : Tx) : tx.setAssignees input existing = tx.setAssignees input row :=
    changeSet_at_once _ agreed.assignees tx
  have labels (tx : Tx) : tx.setLabels input existing = tx.setLabels input row :=
    changeSet_at_once _ agreed.labels tx
  have rest (tx : Tx) : tx.setRest input existing sla.priority = tx.setRest input row sla.priority := by
    simp only [Tx.setRest, subject, description, priority, department, company, assignees, labels,
      syncPriority_at_once agreed.priority]
  rw [updateTicket, updateTicket, setState_at_once agreed.state]
  simp only [rest]

theorem setState_read
    (done : Tx.setState group asked existing now sla tx = some next)
    (moves : asked.any (fun target => some target ≠ existing.stateId) = true) :
    tx.row.stateId = existing.stateId := by
  unfold Tx.setState at done
  split at done
  · split at done
    · rename_i target same
      have stays : decide (some target ≠ existing.stateId) = true := moves
      exact absurd same (of_decide_eq_true stays)
    · unfold applyStateChange at done
      split at done
      · assumption
      · cases done
  · cases moves

theorem Call.run_read {call : Call} {sla : UpdateSla}
    (done : call.run group sla ⟨row, []⟩ = some tx) (moves : call.moves = true) :
    row.stateId = call.existing.stateId := by
  obtain ⟨ticket, existing, work, now, stage⟩ := call
  cases work with
  | update | comment =>
    obtain ⟨moved, first, _⟩ := Option.map_eq_some_iff.mp done
    exact setState_read first moves

theorem Call.run_follows {call : Call} {sla : UpdateSla} (current : call.Current sla row)
    (done : call.run group sla ⟨row, []⟩ = some tx) : Tx.Follows ⟨row, []⟩ tx := by
  obtain ⟨ticket, existing, work, now, stage⟩ := call
  cases work with
  | update input => exact updateTicket_follows current.1 current.2 done
  | comment stateId reply => exact comment_follows current done

structure Told (world : World) : Prop where
  drawn : ∀ ticket row, world.tickets ticket = some row → ticket < world.drawn
  ends : ∀ ticket row, world.tickets ticket = some row → replayed ticket world.log = some row.shown
  fits : Histories.Each FitsBefore world.log

variable {world : World} {log more : List Entry} {ticket : TicketId}

theorem replayed_append (ticket : TicketId) (log : List Entry) (entry : Entry) :
    replayed ticket (log ++ [entry]) = entry.replay ticket (replayed ticket log) := by
  rw [replayed, List.foldl_append]
  rfl

theorem replayed_others (others : ∀ entry ∈ more, ∀ before, entry.replay ticket before = before) :
    replayed ticket (log ++ more) = replayed ticket log := by
  induction more using List.reverseRecOn with
  | nil => rw [List.append_nil]
  | append_singleton front entry ih =>
    rw [← List.append_assoc, replayed_append, others entry (by simp)]
    exact ih fun earlier member => others earlier (List.mem_append_left _ member)

theorem replayed_wrote {before : Replayed} {call : Option ℕ} {activities : List PmActivity}
    (told : replayed ticket log = some before) (each : Histories.Each FitsBefore log)
    (fits : Stepping.Along Replayed.apply Replayed.Fits before activities) :
    replayed ticket (log ++ activities.map (.wrote ticket now call)) =
        some (Stepping.run Replayed.apply before activities) ∧
      Histories.Each FitsBefore (log ++ activities.map (.wrote ticket now call)) := by
  induction activities generalizing log before with
  | nil =>
    rw [List.map_nil, List.append_nil]
    exact ⟨told, each⟩
  | cons activity rest ih =>
    rw [List.map_cons, List.append_cons]
    apply ih
    · rw [replayed_append, told, Entry.replay, if_pos rfl]
      rfl
    · exact each.append ⟨before, told, fits.1⟩
    · exact fits.2

theorem Told.calls (told : Told world) (calls : List Call) : Told { world with calls := calls } :=
  ⟨told.drawn, told.ends, told.fits⟩

theorem Told.note (told : Told world) {entry : Entry}
    (other : ∀ ticket before, entry.replay ticket before = before) (fits : FitsBefore world.log entry) :
    Told (world.note [entry]) where
  drawn := told.drawn
  ends := by
    intro ticket row found
    rw [World.note, replayed_append, other]
    exact told.ends ticket row found
  fits := told.fits.append fits

theorem Told.put (told : Told world) {call : Option ℕ} (found : world.tickets ticket = some row)
    (follows : Tx.Follows ⟨row, []⟩ tx) : Told (world.put ticket now call tx) := by
  obtain ⟨more, same, fits, ends⟩ := follows
  rw [List.nil_append] at same
  have wrote := @replayed_wrote now _ _ _ call more (told.ends ticket row found) told.fits fits
  refine ⟨?_, ?_, ?_⟩
  · intro id other there
    by_cases here : id = ticket
    · exact here ▸ told.drawn ticket row found
    · simp only [World.put, Function.update_of_ne here] at there
      exact told.drawn id other there
  · intro id other there
    rw [World.put, same]
    by_cases here : id = ticket
    · subst here
      simp only [World.put, Function.update_self] at there
      cases there
      rw [wrote.1, ends]
    · simp only [World.put, Function.update_of_ne here] at there
      rw [replayed_others, told.ends id other there]
      intro entry member before
      obtain ⟨activity, _, rfl⟩ := List.mem_map.mp member
      exact if_neg (Ne.symm here)
  · rw [World.put, same]
    exact wrote.2

theorem Told.insert (told : Told world) {logged : Finset UserId} {activities : List PmActivity}
    (fits : Stepping.Along Replayed.apply Replayed.Fits
      { row.shown with assignees := row.assignees \ logged } activities)
    (ends : Stepping.run Replayed.apply
      { row.shown with assignees := row.assignees \ logged } activities = row.shown) :
    Told (world.insert now row logged activities) := by
  have begun : replayed world.drawn (world.log ++ [.created world.drawn now row logged]) =
      some { row.shown with assignees := row.assignees \ logged } := by
    rw [replayed_append, Entry.replay, if_pos rfl]
  have wrote := @replayed_wrote now _ _ _ none activities begun (told.fits.append trivial) fits
  rw [← List.append_cons] at wrote
  refine ⟨?_, ?_, wrote.2⟩
  · intro id other there
    by_cases here : id = world.drawn
    · exact here ▸ Nat.lt_succ_self _
    · simp only [World.insert, Function.update_of_ne here] at there
      exact (told.drawn id other there).trans (Nat.lt_succ_self _)
  · intro id other there
    by_cases here : id = world.drawn
    · subst here
      simp only [World.insert, Function.update_self] at there
      cases there
      rw [World.insert, wrote.1, ends]
    · simp only [World.insert, Function.update_of_ne here] at there
      rw [World.insert, replayed_others, told.ends id other there]
      intro entry member before
      rcases List.mem_cons.mp member with rfl | wrote
      · exact if_neg (Ne.symm here)
      · obtain ⟨activity, _, rfl⟩ := List.mem_map.mp wrote
        exact if_neg (Ne.symm here)

theorem assignees_nodup (create : TicketCreateInput) (auto : Option UserId) : (create.assignees auto).Nodup := by
  unfold TicketCreateInput.assignees
  split
  · exact BusinessTime.eraseDups_nodup _
  · cases auto <;> simp

theorem Told.createTicket (told : Told world) (states : List PmState) (create : TicketCreateInput)
    (auto : Option UserId) (now : ℤ) : Told (world.createTicket group states create auto now) := by
  unfold World.createTicket
  split
  swap
  · exact told
  rename_i state _
  let base : Replayed := { (create.row group state.id auto now).shown with assignees := ∅ }
  have added := @SetColumn.add _ _ _ _ assigneesColumn _ (assignees_nodup create auto) base
    fun _ _ => Finset.notMem_empty _
  have none_yet : (create.row group state.id auto now).assignees \ (create.assignees auto).toFinset =
      ∅ := Finset.sdiff_self _
  apply told.insert
  · rw [none_yet]
    exact ⟨trivial, added.1⟩
  · rw [none_yet]
    refine added.2.trans ?_
    simp only [Finset.empty_union, base]
    rfl

theorem Told.open_ (told : Told world) {message : Inbound}
    (known : ∀ ticket, message.ticket = some ticket → ∃ row, world.tickets ticket = some row) :
    Told (world.open_ message) := by
  unfold World.open_
  split
  swap
  · exact told
  rename_i state _
  have made : Told (world.insert message.receivedAt (message.row state.id) ∅
      (.created :: message.ticket.toList.map .relation_added)) := by
    apply told.insert
    · rw [Finset.sdiff_empty]
      cases message.ticket <;> exact ⟨trivial, by simp [Stepping.Along, Replayed.Fits]⟩
    · rw [Finset.sdiff_empty]
      cases message.ticket <;> rfl
  dsimp only
  cases answers : message.ticket with
  | none =>
    rw [answers] at made
    simp only [World.note, Option.toList_none, List.map_nil, List.append_nil] at made ⊢
    exact made
  | some ticket =>
    rw [answers] at made
    obtain ⟨row, found⟩ := known ticket answers
    have older : ticket ≠ world.drawn := (told.drawn ticket row found).ne
    apply made.note
    · intro id before
      simp only [Entry.replay, Replayed.apply, Option.map_id']
      split <;> rfl
    · refine ⟨row.shown, made.ends ticket row ?_, trivial⟩
      simp only [World.insert, Function.update_of_ne older]
      exact found

theorem Inbound.reply_follows {message : Inbound} {sla : UpdateSla}
    (lone : Lone row.assignees (reassigned sla.state ++ reassigned sla.priority))
    (done : message.reply group row sla = some tx) : Tx.Follows ⟨row, []⟩ tx := by
  obtain ⟨moved, first, rest⟩ := Option.map_eq_some_iff.mp done
  have was : Tx.Follows ⟨row, []⟩ moved ∧ Lone moved.row.assignees (reassigned sla.priority) := by
    split at first
    · rename_i target _
      unfold applyStateChange at first
      rw [if_pos rfl] at first
      rw [← Option.some_inj.mp first]
      have step : Tx.Follows ⟨row, []⟩ ⟨row.moved group row target message.receivedAt,
          [.state_changed row.stateId (some target)]⟩ :=
        ⟨_, rfl, ⟨rfl, trivial⟩, rfl⟩
      have synced := @sync_follows ⟨row.moved group row target message.receivedAt,
        [.state_changed row.stateId (some target)]⟩ sla.state _ lone
      exact ⟨step.trans synced.1, synced.2⟩
    · cases first
      exact ⟨.refl _, lone.later⟩
  rw [← rest]
  split
  · have all : Lone moved.row.assignees (reassigned sla.priority ++ []) := by
      rw [List.append_nil]
      exact was.2
    exact (was.1.trans (sync_follows all).1).trans (follows_one trivial rfl)
  · exact was.1

theorem Told.step (told : Told world) {action : Action} (current : Current world action) :
    Told (world.step group action) := by
  have begun (ticket : TicketId) (states : List PmState) (work : Work) (now : ℤ) :
      Told (world.begin_ ticket states work now) := by
    unfold World.begin_
    split
    swap
    · exact told
    dsimp only
    split
    · have noted := @Told.note _ told (.began world.calls.length ticket) (fun _ _ => rfl) trivial
      exact noted.calls _
    · exact told
  cases action with
  | createTicket states input auto now => exact told.createTicket states input auto now
  | updateTicket ticket states _ now | addComment ticket states _ _ now =>
    exact begun ticket states _ now
  | read place part =>
    rw [World.step, World.readAt]
    split
    · split
      · exact told.calls _
      · exact told
    · exact told
  | commit place sla =>
    rw [World.step, World.commitAt]
    split
    swap
    · exact told
    rename_i call found
    split
    swap
    · exact told
    rename_i reading
    unfold World.commit
    split
    swap
    · exact told.calls _
    rename_i row there
    split
    · rename_i tx done
      have follows : Tx.Follows ⟨row, []⟩ tx := by
        exact Call.run_follows (current call row found reading there (Call.run_read done)) done
      have put : Told (world.put call.ticket call.now (some place) tx) := told.put there follows
      have noted := @Told.note _ put (.committed place call.ticket) (fun _ _ => rfl) trivial
      exact noted.calls _
    · have noted := @Told.note _ told (.refused place call.ticket) (fun _ _ => rfl) trivial
      exact noted.calls _
  | lose place => exact told.calls _
  | intake message sla =>
    rw [World.step, World.intake]
    split
    · rename_i answers
      exact told.open_ (by simp [answers])
    rename_i ticket answers
    split
    swap
    · exact told
    rename_i row found
    split
    · apply told.open_
      intro other same
      rw [answers] at same
      cases same
      exact ⟨row, found⟩
    · split
      · rename_i tx done
        exact told.put found (Inbound.reply_follows (current ticket row answers found) done)
      · exact told
  | tick ticket now sla =>
    rw [World.step, World.tick]
    split
    · rename_i row found
      have all : Lone row.assignees (reassigned sla ++ []) := by
        rw [List.append_nil]
        exact current row found
      exact told.put found (@sync_follows ⟨row, []⟩ sla [] all).1
    · exact told

variable (group)

structure Replays (events : List Action) : Prop where
  fits : ∀ earlier ticket now call activity later, (World.after group events).log =
    earlier ++ .wrote ticket now call activity :: later →
      ∃ before, replayed ticket earlier = some before ∧ before.Fits activity
  ends : ∀ ticket row, (World.after group events).tickets ticket = some row →
    replayed ticket (World.after group events).log = some row.shown
  /-- An update that succeeds does what it does when it reads its ticket under the lock. -/
  serial : ∀ first place sla rest, events = first ++ .commit place sla :: rest →
    ∀ (call : Call) input row tx, (World.after group first).calls[place]? = some call →
      call.stage = .reading → call.work = .update input →
        (World.after group first).tickets call.ticket = some row →
          updateTicket group input call.existing call.now sla ⟨row, []⟩ = some tx →
            updateTicket group input row call.now sla ⟨row, []⟩ = some tx

variable {group} {events : List Action}

theorem emptyWorld_told : Told emptyWorld where
  drawn := by simp [emptyWorld]
  ends := by simp [emptyWorld]
  fits := Histories.each_nil

theorem after_told (current : Stepping.Along (World.step group) Current emptyWorld events) :
    Told (World.after group events) := by
  have keeps (world : World) (event : Action) (told : Told world) (granted : Current world event) :
      Told (world.step group event) := told.step granted
  exact current.keeps keeps emptyWorld_told

/-- A ticket's history replays to the ticket, as long as every column a call mentions is, under the lock,
as the call read it, the clock changes none of these, and hands over no ticket that has an assignee. -/
theorem history_replays (group : StateId → PmStateGroup) (events : List Action)
    (current : Stepping.Along (World.step group) Current emptyWorld events) :
    Replays group events := by
  have told := after_told current
  refine ⟨?_, told.ends, ?_⟩
  · intro earlier ticket now call activity later split
    exact told.fits earlier _ later split
  · intro first place sla rest split call input row tx found reading work there done
    rw [split, Stepping.Along.append] at current
    have ran : call.run group sla ⟨row, []⟩ = some tx := by
      rw [Call.run, work]
      exact done
    have agrees := current.2.1 call row found reading there (Call.run_read ran)
    rw [Call.Current, work] at agrees
    rw [← updateTicket_at_once agrees.1]
    exact done

def anyGroup : StateId → PmStateGroup := fun _ => .started

def newTicket : TicketCreateInput := ⟨7, "Printer", none, none, none, some [3], [], none, none⟩

def oneState : List PmState := [⟨0, 0, true, .NONE⟩]

def rename (subject : String) : TicketUpdateInput :=
  ⟨some subject, none, none, none, none, none, none, none⟩

def noTransitions : UpdateSla := ⟨[], []⟩

def renamedInTurn : List Action :=
  [.createTicket oneState newTicket none 10, .updateTicket 0 oneState (rename "Printer 2") 20,
    .commit 0 noTransitions, .updateTicket 0 oneState (rename "Printer 3") 30, .commit 1 noTransitions]

theorem agreed_rename {subject : String} {existing row : TicketRow} (same : existing.name = row.name) :
    Agreed (rename subject) existing row :=
  ⟨fun _ => same, nofun, nofun, nofun, nofun, nofun, nofun, nofun⟩

theorem renamed_in_turn :
    ((World.after anyGroup renamedInTurn).tickets 0).map TicketRow.name = some "Printer 3" ∧
      Replays anyGroup renamedInTurn := by
  have undisturbed (subject : String) (row : TicketRow) :
      Undisturbed (rename subject) noTransitions row := ⟨.inl nofun, nofun, nofun⟩
  refine ⟨by decide, history_replays anyGroup renamedInTurn ?_⟩
  refine ⟨trivial, trivial, ?_, trivial, ?_, trivial⟩
  · intro call row found _ there _
    cases found
    cases there
    exact ⟨agreed_rename rfl, undisturbed _ _⟩
  · intro call row found _ there _
    cases found
    cases there
    exact ⟨agreed_rename rfl, undisturbed _ _⟩

/-- Both read the ticket before either writes. -/
def renamedAtOnce : List Action :=
  [.createTicket oneState newTicket none 10, .updateTicket 0 oneState (rename "Printer 2") 20,
    .updateTicket 0 oneState (rename "Printer 3") 20, .commit 0 noTransitions, .commit 1 noTransitions]

/-- The second row of the history takes the place of a name the ticket no longer has. -/
theorem renamed_at_once :
    (World.after anyGroup renamedAtOnce).log.filterMap (fun
      | .wrote 0 _ _ (.title_changed old new) => some (old, new)
      | _ => none) = [("Printer", "Printer 2"), ("Printer", "Printer 3")] ∧
      ¬ Replays anyGroup renamedAtOnce := by
  refine ⟨by decide, ?_⟩
  intro replays
  obtain ⟨before, told, fits⟩ := replays.fits ((World.after anyGroup renamedAtOnce).log.take 7) 0 20
    (some 1) (.title_changed "Printer" "Printer 3") [.committed 1 0] (by decide)
  have name : (replayed 0 ((World.after anyGroup renamedAtOnce).log.take 7)).map Replayed.name =
      some "Printer 2" := by decide
  rw [told] at name
  have same : "Printer" = "Printer 2" := (fits : "Printer" = before.name).trans (Option.some_inj.mp name)
  revert same
  decide

end Droplet.Support
