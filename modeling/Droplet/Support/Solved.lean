import Droplet.Lib.Histories
import Droplet.Support.Calls

/-! Solved means solved: the columns that follow the group of a ticket's state, over any interleaving of
calls. -/

namespace Droplet.Support

variable (group : StateId → PmStateGroup)

def PmActivity.moves : PmActivity → Bool
  | .state_changed _ _ => true
  | _ => false

/-- The instant of an entry by which the ticket goes from an open to a terminal group, or begins in a
terminal one. -/
def Entry.entered (ticket : TicketId) : Entry → Option ℤ
  | .created id now row _ => if id = ticket ∧ terminal group row.stateId = true then some now else none
  | .wrote id now _ (.state_changed old new) =>
    if id = ticket ∧ terminal group old = false ∧ terminal group new = true then some now else none
  | _ => none

/-- The entry is a move of the ticket from a terminal to an open group. -/
def Entry.reopens (ticket : TicketId) : Entry → Bool
  | .wrote id _ _ (.state_changed old new) =>
    decide (id = ticket) && terminal group old && !terminal group new
  | _ => false

def Entry.movesTicket (ticket : TicketId) : Entry → Bool
  | .wrote id _ _ activity => decide (id = ticket) && activity.moves
  | _ => false

def Entry.movedSince (call : ℕ) (ticket : TicketId) (moved : Bool) : Entry → Bool
  | .began other _ => if other = call then false else moved
  | entry => moved || entry.movesTicket ticket

def movedSince (call : ℕ) (ticket : TicketId) (log : List Entry) : Bool :=
  log.foldl (Entry.movedSince call ticket) false

structure RowSolved (log : List Entry) (ticket : TicketId) (row : TicketRow) : Prop where
  isCompleted : row.isCompleted = terminal group row.stateId
  completedAt : row.completedAt.isSome = terminal group row.stateId
  solved : row.solvedAt.isSome = terminal group row.stateId
  instant : terminal group row.stateId = true →
    row.solvedAt = Histories.latest (Entry.entered group ticket) log
  reopens : row.reopenCount = log.countP (Entry.reopens group ticket)

/-- A call moves a ticket that nothing has moved since the call read it, and is refused for one that
something has. -/
def Exclusive (earlier : List Entry) : Entry → Prop
  | .wrote ticket _ (some call) (.state_changed _ _) => movedSince call ticket earlier = false
  | .refused call ticket => movedSince call ticket earlier = true
  | _ => True

def World.destination (world : World) : Action → Option (TicketId × StateId)
  | .commit place _ => do
      let call ← world.calls[place]?
      let row ← world.tickets call.ticket
      let target ← call.target
      guard (call.moves ∧ row.stateId = call.existing.stateId)
      return (call.ticket, target)
  | .intake message _ => do
      let ticket ← message.ticket
      let row ← world.tickets ticket
      let target ← message.target group row
      return (ticket, target)
  | _ => none

/-- No ticket is moved back to a state in which a call still under way, and bound to move it, read it. -/
def Unreturned (world : World) (action : Action) : Prop :=
  ∀ ticket target, world.destination group action = some (ticket, target) →
    ∀ (place : ℕ) (call : Call), world.calls[place]? = some call → call.stage = .reading →
      call.ticket = ticket → call.moves = true → call.existing.stateId ≠ some target

def World.opens (world : World) (message : Inbound) : Prop :=
  match message.ticket with
  | none => True
  | some ticket => ∃ row, world.tickets ticket = some row ∧ message.followUp row = true

def OpensOpen (world : World) : Action → Prop
  | .intake message _ => world.opens message → ∀ state, message.landing = some state →
      terminal group (some state.id) = false
  | _ => True

def Kept (world : World) (action : Action) : Prop :=
  Unreturned group world action ∧ OpensOpen group world action

def Entry.ticket : Entry → TicketId
  | .began _ ticket => ticket
  | .created ticket _ _ _ => ticket
  | .wrote ticket _ _ _ => ticket
  | .committed _ ticket => ticket
  | .refused _ ticket => ticket

structure Invariant (world : World) : Prop where
  drawn : ∀ ticket row, world.tickets ticket = some row → ticket < world.drawn
  written : ∀ entry ∈ world.log, entry.ticket < world.drawn
  rows : ∀ ticket row, world.tickets ticket = some row → RowSolved group world.log ticket row
  /-- A call that is to move its ticket finds it in the state it was read in, unless it was moved. -/
  calls : ∀ (place : ℕ) (call : Call), world.calls[place]? = some call → call.stage = .reading →
    call.moves = true → ∃ row, world.tickets call.ticket = some row ∧
      movedSince place call.ticket world.log = decide (row.stateId ≠ call.existing.stateId)
  exclusive : Histories.Each Exclusive world.log

variable {group}

structure Still (tx next : Tx) : Prop where
  stateId : next.row.stateId = tx.row.stateId
  isCompleted : next.row.isCompleted = tx.row.isCompleted
  completedAt : next.row.completedAt = tx.row.completedAt
  solvedAt : next.row.solvedAt = tx.row.solvedAt
  reopenCount : next.row.reopenCount = tx.row.reopenCount
  activities : ∃ more, next.activities = tx.activities ++ more ∧ ∀ activity ∈ more,
    activity.moves = false

variable {tx next last : Tx}

theorem Still.refl (tx : Tx) : Still tx tx :=
  ⟨rfl, rfl, rfl, rfl, rfl, [], by simp, by simp⟩

theorem Still.trans (first : Still tx next) (second : Still next last) : Still tx last where
  stateId := second.stateId.trans first.stateId
  isCompleted := second.isCompleted.trans first.isCompleted
  completedAt := second.completedAt.trans first.completedAt
  solvedAt := second.solvedAt.trans first.solvedAt
  reopenCount := second.reopenCount.trans first.reopenCount
  activities := by
    obtain ⟨more, same, quiet⟩ := first.activities
    obtain ⟨yet, then_, quiet_too⟩ := second.activities
    refine ⟨more ++ yet, by rw [then_, same, List.append_assoc], ?_⟩
    intro activity member
    rcases List.mem_append.mp member with here | there
    · exact quiet activity here
    · exact quiet_too activity there

theorem still_write {more : List PmActivity} (quiet : ∀ activity ∈ more, activity.moves = false) :
    Still tx (tx.write more) :=
  ⟨rfl, rfl, rfl, rfl, rfl, more, rfl, quiet⟩

theorem still_sync (sla : List SlaTransition) (tx : Tx) : Still tx (syncTicketSla sla tx) := by
  apply syncTicketSla_kept Still.refl Still.trans
  · intro tx transition
    apply still_write
    intro activity member
    rw [List.mem_singleton.mp member, SlaTransition.announcement]
    split <;> rfl
  · exact fun tx => ⟨rfl, rfl, rfl, rfl, rfl, _, rfl, by simp [PmActivity.moves]⟩
  · exact fun tx userId => ⟨rfl, rfl, rfl, rfl, rfl, _, rfl, by simp [PmActivity.moves]⟩

theorem still_change {α : Type} [DecidableEq α] {asked : Option α} {read : α}
    {put : α → TicketRow → TicketRow} {logged : α → PmActivity}
    (keeps : ∀ next, Still tx ⟨put next tx.row, tx.activities ++ [logged next]⟩) :
    Still tx (tx.change asked read put logged) := by
  unfold Tx.change
  split
  · split
    · exact .refl tx
    · exact keeps _
  · exact .refl tx

theorem still_changeSet {asked : Option (List ℕ)} {read : Finset ℕ}
    {put : (Finset ℕ → Finset ℕ) → TicketRow → TicketRow} {added removed : ℕ → PmActivity}
    (keeps : ∀ next, Still tx ⟨put next tx.row, tx.activities⟩)
    (adds : ∀ id, (added id).moves = false) (removes : ∀ id, (removed id).moves = false) :
    Still tx (tx.changeSet asked read put added removed) := by
  unfold Tx.changeSet
  split
  · rename_i ids
    refine (keeps _).trans ⟨rfl, rfl, rfl, rfl, rfl, _, List.append_assoc _ _ _, ?_⟩
    intro activity member
    rcases List.mem_append.mp member with here | there
    · obtain ⟨id, _, rfl⟩ := List.mem_map.mp here
      exact adds id
    · obtain ⟨id, _, rfl⟩ := List.mem_map.mp there
      exact removes id
  · exact .refl tx

theorem still_setRest (input : TicketUpdateInput) (existing : TicketRow) (sla : List SlaTransition)
    (tx : Tx) : Still tx (tx.setRest input existing sla) := by
  have column (tx : Tx) (row : TicketRow) (activity : PmActivity) (quiet : activity.moves = false)
      (stateId : row.stateId = tx.row.stateId) (isCompleted : row.isCompleted = tx.row.isCompleted)
      (completedAt : row.completedAt = tx.row.completedAt)
      (solvedAt : row.solvedAt = tx.row.solvedAt)
      (reopenCount : row.reopenCount = tx.row.reopenCount) :
      Still tx ⟨row, tx.activities ++ [activity]⟩ :=
    ⟨stateId, isCompleted, completedAt, solvedAt, reopenCount, [activity], rfl, by simpa using quiet⟩
  have subject (tx : Tx) : Still tx (tx.setSubject input existing) :=
    still_change fun next => column tx _ _ rfl rfl rfl rfl rfl rfl
  have description (tx : Tx) : Still tx (tx.setDescription input existing) :=
    still_change fun next => column tx _ _ rfl rfl rfl rfl rfl rfl
  have priority (tx : Tx) : Still tx (tx.setPriority input existing) :=
    still_change fun next => column tx _ _ rfl rfl rfl rfl rfl rfl
  have department (tx : Tx) : Still tx (tx.setDepartment input existing) :=
    still_change fun next => column tx _ _ rfl rfl rfl rfl rfl rfl
  have company (tx : Tx) : Still tx (tx.setCompany input existing) :=
    still_change fun next => column tx _ _ rfl rfl rfl rfl rfl rfl
  have clock (tx : Tx) : Still tx (tx.syncPriority input existing sla) := by
    unfold Tx.syncPriority
    split
    · split
      · exact .refl tx
      · exact still_sync sla tx
    · exact .refl tx
  have assignees (tx : Tx) : Still tx (tx.setAssignees input existing) :=
    still_changeSet (fun next => ⟨rfl, rfl, rfl, rfl, rfl, [], by simp, by simp⟩)
      (fun _ => rfl) fun _ => rfl
  have labels (tx : Tx) : Still tx (tx.setLabels input existing) :=
    still_changeSet (fun next => ⟨rfl, rfl, rfl, rfl, rfl, [], by simp, by simp⟩)
      (fun _ => rfl) fun _ => rfl
  exact (subject tx).trans ((description _).trans ((priority _).trans ((department _).trans
    ((clock _).trans ((assignees _).trans ((labels _).trans (company _)))))))

/-- The ticket as it is, or moved, and then columns of other kinds. -/
inductive Outcome (group : StateId → PmStateGroup) (existing : TicketRow) (asked : Option StateId)
    (now : ℤ) (row : TicketRow) (tx : Tx) : Prop
  | stayed (unasked : ∀ target, asked = some target → some target = existing.stateId)
      (still : Still ⟨row, []⟩ tx)
  | moved (target : StateId) (asks : asked = some target) (other : some target ≠ existing.stateId)
      (read : row.stateId = existing.stateId)
      (still : Still ⟨row.moved group existing target now,
        [.state_changed existing.stateId (some target)]⟩ tx)

variable {asked : Option StateId} {existing row : TicketRow} {now : ℤ}

theorem Outcome.still (outcome : Outcome group existing asked now row tx) (still : Still tx next) :
    Outcome group existing asked now row next := by
  cases outcome with
  | stayed unasked before => exact .stayed unasked (before.trans still)
  | moved target asks other read before => exact .moved target asks other read (before.trans still)

theorem setState_some {sla : List SlaTransition}
    (done : Tx.setState group asked existing now sla ⟨row, []⟩ = some tx) :
    Outcome group existing asked now row tx := by
  unfold Tx.setState at done
  split at done
  · rename_i target
    split at done
    · rename_i same
      cases done
      refine .stayed ?_ (.refl _)
      intro other asks
      cases asks
      exact same
    · rename_i other
      unfold applyStateChange at done
      split at done
      · rename_i read
        cases done
        exact .moved target rfl other read (still_sync sla _)
      · cases done
  · cases done
    exact .stayed (by simp) (.refl _)

theorem setState_none {sla : List SlaTransition}
    (done : Tx.setState group asked existing now sla ⟨row, []⟩ = none) :
    asked.any (fun target => some target ≠ existing.stateId) = true ∧
      row.stateId ≠ existing.stateId := by
  unfold Tx.setState at done
  split at done
  · rename_i target
    split at done
    · cases done
    · rename_i other
      unfold applyStateChange at done
      split at done
      · cases done
      · rename_i unread
        exact ⟨by simpa using other, unread⟩
  · cases done

variable {sla : UpdateSla}

theorem Call.run_some {call : Call} {row : TicketRow} (done : call.run group sla ⟨row, []⟩ = some tx) :
    Outcome group call.existing call.target call.now row tx := by
  obtain ⟨ticket, existing, work, now, stage⟩ := call
  cases work with
  | update input =>
    obtain ⟨moved, first, rest⟩ := Option.map_eq_some_iff.mp done
    rw [← rest]
    exact (setState_some first).still (still_setRest _ _ _ _)
  | comment stateId reply =>
    obtain ⟨moved, first, rest⟩ := Option.map_eq_some_iff.mp done
    rw [← rest]
    refine (setState_some first).still (Still.trans ?_ (still_write (by simp [PmActivity.moves])))
    split
    · exact still_sync _ _
    · exact .refl _

theorem Call.run_none {call : Call} {row : TicketRow} (done : call.run group sla ⟨row, []⟩ = none) :
    call.moves = true ∧ row.stateId ≠ call.existing.stateId := by
  obtain ⟨ticket, existing, work, now, stage⟩ := call
  cases work with
  | update | comment => exact setState_none (Option.map_eq_none_iff.mp done)

variable {message : Inbound}

theorem Inbound.reply_some {row : TicketRow} (done : message.reply group row sla = some tx) :
    Outcome group row (message.target group row) message.receivedAt row tx := by
  obtain ⟨moved, first, rest⟩ := Option.map_eq_some_iff.mp done
  have quiet : Still moved tx := by
    rw [← rest]
    split
    · exact (still_sync _ _).trans (still_write (by simp [PmActivity.moves]))
    · exact .refl _
  refine Outcome.still ?_ quiet
  split at first
  · rename_i target found
    rw [found]
    unfold applyStateChange at first
    rw [if_pos rfl] at first
    cases first
    refine .moved target rfl ?_ rfl (still_sync _ _)
    unfold Inbound.target at found
    split at found
    · simpa using (Option.filter_eq_some_iff.mp found).2
    · cases found
  · rename_i absent
    cases first
    rw [absent]
    exact .stayed (by simp) (.refl _)

variable {log more : List Entry} {ticket : TicketId} {row : TicketRow} {place : ℕ}

theorem movedSince_append (place : ℕ) (ticket : TicketId) (log : List Entry) (entry : Entry) :
    movedSince place ticket (log ++ [entry]) =
      entry.movedSince place ticket (movedSince place ticket log) := by
  rw [movedSince, List.foldl_append]
  rfl

theorem movedSince_quiet (others : ∀ entry ∈ more, ∀ id, entry ≠ .began place id)
    (quiet : ∀ entry ∈ more, entry.movesTicket ticket = false) :
    movedSince place ticket (log ++ more) = movedSince place ticket log := by
  induction more using List.reverseRecOn with
  | nil => rw [List.append_nil]
  | append_singleton front entry ih =>
    have before := ih (fun earlier member => others earlier (List.mem_append_left _ member))
      fun earlier member => quiet earlier (List.mem_append_left _ member)
    rw [← List.append_assoc, movedSince_append, before]
    have still := quiet entry (by simp)
    have other := others entry (by simp)
    cases entry with
    | began id of_ =>
      rw [Entry.movedSince, if_neg]
      intro same
      exact other of_ (same ▸ rfl)
    | _ => rw [Entry.movedSince, still, Bool.or_false]; exact nofun

theorem movedSince_move {call : Option ℕ} {old new : Option StateId} :
    movedSince place ticket (log ++ [.wrote ticket now call (.state_changed old new)]) = true := by
  rw [movedSince_append]
  simp [Entry.movedSince, Entry.movesTicket, PmActivity.moves]

theorem RowSolved.neutral (solved : RowSolved group log ticket row)
    (entered : ∀ entry ∈ more, entry.entered group ticket = none)
    (reopens : ∀ entry ∈ more, entry.reopens group ticket = false) : RowSolved group (log ++ more) ticket row where
  isCompleted := solved.isCompleted
  completedAt := solved.completedAt
  solved := solved.solved
  instant := by
    intro ends
    rw [Histories.latest_append_none entered]
    exact solved.instant ends
  reopens := by
    have none_more : more.countP (Entry.reopens group ticket) = 0 := by
      rw [List.countP_eq_zero]
      intro entry member
      rw [reopens entry member]
      exact Bool.false_ne_true
    rw [List.countP_append, none_more]
    exact solved.reopens

variable {entry : Entry}

theorem entered_other (other : entry.ticket ≠ ticket) : entry.entered group ticket = none := by
  unfold Entry.entered
  split
  · exact if_neg fun both => other both.1
  · exact if_neg fun both => other both.1
  · rfl

theorem reopens_other (other : entry.ticket ≠ ticket) : entry.reopens group ticket = false := by
  unfold Entry.reopens
  split
  · dsimp only [Entry.ticket] at other
    rw [decide_eq_false other]
    rfl
  · rfl

theorem movesTicket_other (other : entry.ticket ≠ ticket) : entry.movesTicket ticket = false := by
  unfold Entry.movesTicket
  split
  · dsimp only [Entry.ticket] at other
    rw [decide_eq_false other]
    rfl
  · rfl

variable {activity : PmActivity} {now : ℤ} {call : Option ℕ}

variable {id : TicketId}

section

variable (quiet : activity.moves = false)
include quiet

theorem entered_quiet : (Entry.wrote id now call activity).entered group ticket = none := by
  cases activity with
  | state_changed old new => cases quiet
  | _ => rfl

theorem reopens_quiet : (Entry.wrote id now call activity).reopens group ticket = false := by
  cases activity with
  | state_changed old new => cases quiet
  | _ => rfl

theorem movesTicket_quiet : (Entry.wrote id now call activity).movesTicket ticket = false := by
  rw [Entry.movesTicket, quiet, Bool.and_false]

theorem exclusive_quiet : Exclusive log (.wrote id now call activity) := by
  cases activity with
  | state_changed old new => cases quiet
  | _ => cases call <;> trivial

end

theorem RowSolved.still {next : TicketRow} {before after : List PmActivity}
    (solved : RowSolved group (log ++ before.map (.wrote ticket now call)) ticket row)
    (still : Still ⟨row, before⟩ ⟨next, after⟩) :
    RowSolved group (log ++ after.map (.wrote ticket now call)) ticket next := by
  obtain ⟨more, same, quiet⟩ := still.activities
  dsimp only at same
  have kept : RowSolved group (log ++ after.map (.wrote ticket now call)) ticket row := by
    rw [same, List.map_append, ← List.append_assoc]
    apply solved.neutral
    · intro entry member
      obtain ⟨activity, there, rfl⟩ := List.mem_map.mp member
      exact entered_quiet (quiet activity there)
    · intro entry member
      obtain ⟨activity, there, rfl⟩ := List.mem_map.mp member
      exact reopens_quiet (quiet activity there)
  obtain ⟨stateId, isCompleted, completedAt, solvedAt, reopenCount, _⟩ := still
  dsimp only at stateId isCompleted completedAt solvedAt reopenCount
  constructor
  · rw [isCompleted, stateId]
    exact kept.isCompleted
  · rw [completedAt, stateId]
    exact kept.completedAt
  · rw [solvedAt, stateId]
    exact kept.solved
  · rw [solvedAt, stateId]
    exact kept.instant
  · rw [reopenCount]
    exact kept.reopens

variable {existing : TicketRow}

theorem RowSolved.move {target : StateId} (solved : RowSolved group log ticket row)
    (read : row.stateId = existing.stateId) :
    RowSolved group
      (log ++ [.wrote ticket now call (.state_changed existing.stateId (some target))]) ticket
      (row.moved group existing target now) := by
  have count : (log ++ [Entry.wrote ticket now call
      (.state_changed existing.stateId (some target))]).countP (Entry.reopens group ticket) =
        row.reopenCount + if terminal group existing.stateId && !terminal group (some target)
          then 1 else 0 := by
    rw [List.countP_append, solved.reopens]
    simp [List.countP_cons, Entry.reopens]
  constructor
  · rfl
  · simp only [TicketRow.moved]
    split <;> simp_all
  · simp only [TicketRow.moved]
    have was := solved.solved
    rw [read] at was
    cases before : terminal group existing.stateId <;> cases after : terminal group (some target) <;>
      simp [before, was]
  · intro ends
    simp only [TicketRow.moved] at ends ⊢
    have was := solved.instant
    rw [read] at was
    rw [Histories.latest_append]
    cases before : terminal group existing.stateId
    · simp [Entry.entered, before, ends]
    · simp [Entry.entered, before, ends, was before]
  · rw [count]
    simp only [TicketRow.moved]
    split <;> rfl

theorem RowSolved.outcome (solved : RowSolved group log ticket row)
    (outcome : Outcome group existing asked now row tx) :
    RowSolved group (log ++ tx.activities.map (.wrote ticket now call)) ticket tx.row := by
  cases outcome with
  | stayed _ still =>
    apply RowSolved.still ?_ still
    rw [List.map_nil, List.append_nil]
    exact solved
  | moved target _ _ read still => exact (solved.move read).still still

variable {activities : List PmActivity}

theorem quiet_entries {ticket : TicketId} (quiet : ∀ activity ∈ activities, activity.moves = false)
    (place : ℕ) (log : List Entry) :
    movedSince place ticket (log ++ activities.map (.wrote ticket now call)) =
      movedSince place ticket log := by
  apply movedSince_quiet
  · intro entry member id same
    obtain ⟨activity, _, rfl⟩ := List.mem_map.mp member
    cases same
  · intro entry member
    obtain ⟨activity, there, rfl⟩ := List.mem_map.mp member
    exact movesTicket_quiet (quiet activity there)

theorem Outcome.since {asked was : Option StateId} (outcome : Outcome group existing asked now row tx)
    (since : movedSince place ticket log = decide (row.stateId ≠ was))
    (unreturned : ∀ target, asked = some target → some target ≠ existing.stateId →
      row.stateId = existing.stateId → was ≠ some target) :
    movedSince place ticket (log ++ tx.activities.map (.wrote ticket now call)) =
      decide (tx.row.stateId ≠ was) := by
  cases outcome with
  | stayed _ still =>
    obtain ⟨more, same, quiet⟩ := still.activities
    rw [same, List.nil_append, quiet_entries quiet, still.stateId]
    exact since
  | moved target asks other read still =>
    obtain ⟨more, same, quiet⟩ := still.activities
    rw [same, List.map_append, ← List.append_assoc, quiet_entries quiet, still.stateId]
    rw [List.map_singleton, movedSince_move]
    exact (decide_eq_true (unreturned target asks other read).symm).symm

theorem Outcome.exclusive (outcome : Outcome group existing asked now row tx)
    (unmoved : ∀ target, asked = some target → some target ≠ existing.stateId →
      row.stateId = existing.stateId → ∀ place, call = some place →
        movedSince place ticket log = false)
    (front : List Entry) (entry : Entry) (back : List Entry)
    (split : tx.activities.map (Entry.wrote ticket now call) = front ++ entry :: back) :
    Exclusive (log ++ front) entry := by
  have quietly {activities : List PmActivity} {front back : List Entry} {earlier : List Entry}
      (quiet : ∀ activity ∈ activities, activity.moves = false)
      (split : activities.map (Entry.wrote ticket now call) = front ++ entry :: back) :
      Exclusive earlier entry := by
    have member : entry ∈ activities.map (Entry.wrote ticket now call) := by simp [split]
    obtain ⟨activity, there, rfl⟩ := List.mem_map.mp member
    exact exclusive_quiet (quiet activity there)
  cases outcome with
  | stayed _ still =>
    obtain ⟨more, same, quiet⟩ := still.activities
    rw [same] at split
    exact quietly quiet split
  | moved target asks other read still =>
    obtain ⟨more, same, quiet⟩ := still.activities
    rw [same, List.map_append, List.map_singleton, List.singleton_append] at split
    rcases List.cons_eq_append_iff.mp split with ⟨none_before, rest⟩ | ⟨front', _, rest⟩
    · cases rest
      rw [none_before, List.append_nil]
      cases call with
      | none => trivial
      | some place => exact unmoved target asks other read place rfl
    · exact quietly quiet rest

variable {world : World}

section

variable (invariant : Invariant group world)
include invariant

theorem Invariant.quiet {calls : List Call}
    (fewer : ∀ (place : ℕ) (call : Call), calls[place]? = some call → call.stage = .reading →
      ∃ before, world.calls[place]? = some before ∧ before.stage = .reading ∧
        before.ticket = call.ticket ∧ before.work = call.work ∧
          before.existing.stateId = call.existing.stateId)
    (known : ∀ entry ∈ more, entry.ticket < world.drawn)
    (others : ∀ entry ∈ more, ∀ place id, entry ≠ .began place id)
    (entered : ∀ entry ∈ more, ∀ ticket, entry.entered group ticket = none)
    (reopens : ∀ entry ∈ more, ∀ ticket, entry.reopens group ticket = false)
    (moves : ∀ entry ∈ more, ∀ ticket, entry.movesTicket ticket = false)
    (exclusive : ∀ front entry back, more = front ++ entry :: back →
      Exclusive (world.log ++ front) entry) :
    Invariant group
      { world with
        calls := calls
        log := world.log ++ more } where
  drawn := invariant.drawn
  written := by
    intro entry member
    rcases List.mem_append.mp member with before | new
    · exact invariant.written entry before
    · exact known entry new
  rows := by
    intro ticket row found
    exact (invariant.rows ticket row found).neutral (fun entry member => entered entry member ticket)
      fun entry member => reopens entry member ticket
  calls := by
    intro place call found reading moving
    obtain ⟨before, was, reads, ticket, work, stateId⟩ := fewer place call found reading
    have same : before.moves = true := by
      rw [← moving, Call.moves, Call.moves, Call.target, Call.target, work, stateId]
    obtain ⟨row, there, since⟩ := invariant.calls place before was reads same
    rw [ticket, stateId] at since
    refine ⟨row, ticket ▸ there, ?_⟩
    rw [movedSince_quiet (fun entry member => others entry member place)
      fun entry member => moves entry member call.ticket]
    exact since
  exclusive := invariant.exclusive.append_list exclusive

theorem Invariant.setStage (place : ℕ) : Invariant group (world.setStage place .over) := by
  have kept := @Invariant.quiet _ [] _ invariant (world.setStage place .over).calls ?_ (by simp)
    (by simp) (by simp) (by simp) (by simp) (by simp)
  · rw [List.append_nil] at kept
    exact kept
  · intro other call found reading
    simp only [World.setStage] at found
    rw [List.getElem?_modify, Option.map_eq_map, Option.map_eq_some_iff] at found
    obtain ⟨before, was, same⟩ := found
    split at same
    · rw [← same] at reading
      cases reading
    · cases same
      exact ⟨call, was, reading, rfl, rfl, rfl⟩

theorem Invariant.readAt (place : ℕ) (part : Part) : Invariant group (world.readAt place part) := by
  unfold World.readAt
  split
  swap
  · exact invariant
  rename_i call found
  split
  swap
  · exact invariant
  rename_i row _
  have kept := @Invariant.quiet _ [] _ invariant (world.calls.set place (call.reread row part)) ?_
    (by simp) (by simp) (by simp) (by simp) (by simp) (by simp)
  · rw [List.append_nil] at kept
    exact kept
  · intro other after there reading
    rcases Places.set_cases there with ⟨here, same⟩ | ⟨_, was⟩
    · rw [same] at reading ⊢
      rw [here]
      cases part <;> exact ⟨call, found, reading, rfl, rfl, rfl⟩
    · exact ⟨after, was, reading, rfl, rfl, rfl⟩

theorem Invariant.begin_ (ticket : TicketId)
    (states : List PmState) (work : Work) (now : ℤ) : Invariant group (world.begin_ ticket states work now) := by
  unfold World.begin_
  split
  swap
  · exact invariant
  rename_i row found
  dsimp only
  split
  swap
  · exact invariant
  refine ⟨invariant.drawn, ?_, ?_, ?_, invariant.exclusive.append trivial⟩
  · intro entry member
    rcases List.mem_append.mp member with before | new
    · exact invariant.written entry before
    · rw [List.mem_singleton.mp new]
      exact invariant.drawn ticket row found
  · intro id other there
    exact (invariant.rows id other there).neutral (by simp [Entry.entered]) (by simp [Entry.reopens])
  · intro place call there reading moving
    rcases Places.append_cases there with ⟨here, same⟩ | before
    · cases same
      refine ⟨row, found, ?_⟩
      rw [movedSince_append, Entry.movedSince, if_pos here.symm]
      exact (decide_eq_false fun differ => differ rfl).symm
    · obtain ⟨of_, known, since⟩ := invariant.calls place call before reading moving
      refine ⟨of_, known, ?_⟩
      have earlier : place < world.calls.length := (List.getElem?_eq_some_iff.mp before).1
      rw [movedSince_append, Entry.movedSince, if_neg earlier.ne']
      exact since

theorem Invariant.put {moving : Option ℕ} (found : world.tickets ticket = some row)
    (outcome : Outcome group existing asked now row tx)
    (unreturned : ∀ target, asked = some target → some target ≠ existing.stateId →
      row.stateId = existing.stateId → ∀ (place : ℕ) (call : Call), world.calls[place]? = some call →
        call.stage = .reading → call.ticket = ticket → call.moves = true →
          call.existing.stateId ≠ some target)
    (unmoved : ∀ target, asked = some target → some target ≠ existing.stateId →
      row.stateId = existing.stateId → ∀ place, moving = some place →
        movedSince place ticket world.log = false) :
    Invariant group (world.put ticket now moving tx) := by
  have solved : RowSolved group (world.log ++ tx.activities.map (.wrote ticket now moving)) ticket
      tx.row := (invariant.rows ticket row found).outcome outcome
  have ours (entry : Entry) (member : entry ∈ tx.activities.map (.wrote ticket now moving)) :
      entry.ticket = ticket ∧ ∀ place id, entry ≠ .began place id := by
    obtain ⟨activity, _, rfl⟩ := List.mem_map.mp member
    exact ⟨rfl, nofun⟩
  refine ⟨?_, ?_, ?_, ?_, ?_⟩
  · intro id other there
    by_cases same : id = ticket
    · exact same ▸ invariant.drawn ticket row found
    · simp only [World.put, Function.update_of_ne same] at there
      exact invariant.drawn id other there
  · intro entry member
    rcases List.mem_append.mp member with before | new
    · exact invariant.written entry before
    · rw [(ours entry new).1]
      exact invariant.drawn ticket row found
  · intro id other there
    by_cases same : id = ticket
    · subst same
      simp only [World.put, Function.update_self] at there
      cases there
      exact solved
    · simp only [World.put, Function.update_of_ne same] at there
      have differ (entry : Entry) (member : entry ∈ tx.activities.map (.wrote ticket now moving)) :
          entry.ticket ≠ id := by
        rw [(ours entry member).1]
        exact Ne.symm same
      exact (invariant.rows id other there).neutral (fun entry member => entered_other (differ entry member))
        fun entry member => reopens_other (differ entry member)
  · intro place call there reading moves
    obtain ⟨other, known, since⟩ := invariant.calls place call there reading moves
    by_cases same : call.ticket = ticket
    · refine ⟨tx.row, ?_, ?_⟩
      · simp only [World.put, same, Function.update_self]
      rw [same] at known since ⊢
      cases Option.some_inj.mp (known.symm.trans found)
      exact outcome.since since fun target asks differ read =>
        unreturned target asks differ read place call there reading same moves
    · refine ⟨other, ?_, ?_⟩
      · simp only [World.put, Function.update_of_ne same]
        exact known
      rw [World.put, movedSince_quiet]
      · exact since
      · exact fun entry member id => (ours entry member).2 place id
      · intro entry member
        apply movesTicket_other
        rw [(ours entry member).1]
        exact Ne.symm same
  · apply invariant.exclusive.append_list
    exact outcome.exclusive unmoved

end

structure Fresh (group : StateId → PmStateGroup) (now : ℤ) (row : TicketRow) : Prop where
  isCompleted : row.isCompleted = terminal group row.stateId
  completedAt : row.completedAt.isSome = terminal group row.stateId
  solvedAt : row.solvedAt = if terminal group row.stateId = true then some now else none
  reopenCount : row.reopenCount = 0

theorem Fresh.solved (fresh : Fresh group now row) {logged : Finset UserId}
    (unwritten : ∀ entry ∈ log, entry.ticket ≠ ticket) :
    RowSolved group (log ++ [.created ticket now row logged]) ticket row where
  isCompleted := fresh.isCompleted
  completedAt := fresh.completedAt
  solved := by
    rw [fresh.solvedAt]
    cases terminal group row.stateId <;> rfl
  instant := by
    intro ends
    rw [Histories.latest_append, fresh.solvedAt]
    simp [Entry.entered, ends]
  reopens := by
    have none_before : log.countP (Entry.reopens group ticket) = 0 := by
      rw [List.countP_eq_zero]
      intro entry member
      rw [reopens_other (unwritten entry member)]
      exact Bool.false_ne_true
    rw [List.countP_append, none_before, fresh.reopenCount]
    rfl

section

variable (invariant : Invariant group world)
include invariant

theorem Invariant.insert {logged : Finset UserId}
    (fresh : Fresh group now row) (quiet : ∀ activity ∈ activities, activity.moves = false) :
    Invariant group (world.insert now row logged activities) := by
  have ours (entry : Entry) (member : entry ∈ Entry.created world.drawn now row logged ::
      activities.map (.wrote world.drawn now none)) :
      entry.ticket = world.drawn ∧ ∀ place id, entry ≠ .began place id := by
    rcases List.mem_cons.mp member with rfl | wrote
    · exact ⟨rfl, nofun⟩
    · obtain ⟨activity, _, rfl⟩ := List.mem_map.mp wrote
      exact ⟨rfl, nofun⟩
  have unwritten (entry : Entry) (member : entry ∈ world.log) : entry.ticket ≠ world.drawn :=
    (invariant.written entry member).ne
  have others {id : TicketId} (known : id < world.drawn) (entry : Entry)
      (member : entry ∈ Entry.created world.drawn now row logged ::
        activities.map (.wrote world.drawn now none)) : entry.ticket ≠ id := by
    rw [(ours entry member).1]
    exact known.ne'
  refine ⟨?_, ?_, ?_, ?_, ?_⟩
  · intro id other there
    by_cases same : id = world.drawn
    · exact same ▸ Nat.lt_succ_self _
    · simp only [World.insert, Function.update_of_ne same] at there
      exact (invariant.drawn id other there).trans (Nat.lt_succ_self _)
  · intro entry member
    rcases List.mem_append.mp member with before | new
    · exact (invariant.written entry before).trans (Nat.lt_succ_self _)
    · rw [(ours entry new).1]
      exact Nat.lt_succ_self _
  · intro id other there
    by_cases same : id = world.drawn
    · subst same
      simp only [World.insert, Function.update_self] at there
      cases there
      rw [World.insert, List.append_cons]
      apply (fresh.solved unwritten).neutral
      · intro entry member
        obtain ⟨activity, wrote, rfl⟩ := List.mem_map.mp member
        exact entered_quiet (quiet activity wrote)
      · intro entry member
        obtain ⟨activity, wrote, rfl⟩ := List.mem_map.mp member
        exact reopens_quiet (quiet activity wrote)
    · simp only [World.insert, Function.update_of_ne same] at there
      have known := invariant.drawn id other there
      exact (invariant.rows id other there).neutral
        (fun entry member => entered_other (others known entry member))
        fun entry member => reopens_other (others known entry member)
  · intro place call there reading moves
    obtain ⟨other, found, since⟩ := invariant.calls place call there reading moves
    have known := invariant.drawn _ other found
    refine ⟨other, ?_, ?_⟩
    · simp only [World.insert, Function.update_of_ne known.ne]
      exact found
    · rw [World.insert, movedSince_quiet (fun entry member id => (ours entry member).2 place id)
        fun entry member => movesTicket_other (others known entry member)]
      exact since
  · apply invariant.exclusive.append_list
    intro front entry back same
    have member : entry ∈ Entry.created world.drawn now row logged ::
        activities.map (.wrote world.drawn now none) := by simp [same]
    rcases List.mem_cons.mp member with rfl | wrote
    · trivial
    · obtain ⟨activity, there, rfl⟩ := List.mem_map.mp wrote
      exact exclusive_quiet (quiet activity there)

theorem Invariant.createTicket (states : List PmState)
    (input : TicketCreateInput) (auto : Option UserId) (now : ℤ) :
    Invariant group (world.createTicket group states input auto now) := by
  unfold World.createTicket
  split
  swap
  · exact invariant
  apply invariant.insert
  · refine ⟨rfl, ?_, rfl, rfl⟩
    simp only [TicketCreateInput.row]
    split <;> simp_all
  · intro activity member
    rcases List.mem_cons.mp member with rfl | assigned
    · rfl
    · obtain ⟨user, _, rfl⟩ := List.mem_map.mp assigned
      rfl

theorem Invariant.note (known : entry.ticket < world.drawn) (other : ∀ place id, entry ≠ .began place id)
    (entered : ∀ ticket, entry.entered group ticket = none)
    (reopens : ∀ ticket, entry.reopens group ticket = false)
    (moves : ∀ ticket, entry.movesTicket ticket = false) (exclusive : Exclusive world.log entry) :
    Invariant group (world.note [entry]) := by
  have only (found : Entry) (member : found ∈ [entry]) : found = entry := List.mem_singleton.mp member
  refine @Invariant.quiet _ [entry] _ invariant world.calls ?_ ?_ ?_ ?_ ?_ ?_ ?_
  · intro place call there reading
    exact ⟨call, there, reading, rfl, rfl, rfl⟩
  · intro found member
    exact only found member ▸ known
  · intro found member
    exact only found member ▸ other
  · intro found member
    exact only found member ▸ entered
  · intro found member
    exact only found member ▸ reopens
  · intro found member
    exact only found member ▸ moves
  · intro front found back same
    rcases List.cons_eq_append_iff.mp same with ⟨none_before, rest⟩ | ⟨_, _, rest⟩
    · cases rest
      rw [none_before, List.append_nil]
      exact exclusive
    · simp at rest

theorem Invariant.open_ (known : ∀ ticket, message.ticket = some ticket → ticket < world.drawn)
    (opensOpen : ∀ state, message.landing = some state → terminal group (some state.id) = false) :
    Invariant group (world.open_ message) := by
  unfold World.open_
  split
  swap
  · exact invariant
  rename_i state landing
  have open_ := opensOpen state landing
  have made : Invariant group (world.insert message.receivedAt (message.row state.id) ∅
      (.created :: message.ticket.toList.map .relation_added)) := by
    apply invariant.insert
    · refine ⟨open_.symm, open_.symm, ?_, rfl⟩
      rw [Inbound.row, open_]
      rfl
    · intro activity member
      rcases List.mem_cons.mp member with rfl | related
      · rfl
      · obtain ⟨other, _, rfl⟩ := List.mem_map.mp related
        rfl
  dsimp only
  cases answers : message.ticket with
  | none =>
    rw [answers] at made
    simp only [World.note, Option.toList_none, List.map_nil, List.append_nil] at made ⊢
    exact made
  | some ticket =>
    rw [answers] at made
    apply made.note
    · exact (known ticket answers).trans (Nat.lt_succ_self _)
    · exact nofun
    · exact fun _ => rfl
    · exact fun _ => rfl
    · exact fun _ => Bool.and_false _
    · trivial

theorem Invariant.intake (kept : Kept group world (.intake message sla)) :
    Invariant group (world.intake group message sla) := by
  obtain ⟨unreturned, opensOpen⟩ := kept
  unfold World.intake
  split
  · rename_i answers
    refine invariant.open_ (by simp [answers]) (opensOpen ?_)
    simp [World.opens, answers]
  rename_i ticket answers
  split
  swap
  · exact invariant
  rename_i row found
  split
  · rename_i follows
    apply invariant.open_
    · intro other same
      rw [answers] at same
      cases same
      exact invariant.drawn ticket row found
    · apply opensOpen
      simp only [World.opens, answers]
      exact ⟨row, found, follows⟩
  · split
    swap
    · exact invariant
    rename_i tx done
    apply invariant.put found (Inbound.reply_some done)
    · intro target asks _ _
      apply unreturned ticket target
      simp [World.destination, answers, found, asks]
    · exact nofun

theorem Invariant.tick (ticket : TicketId) (now : ℤ)
    (sla : List SlaTransition) : Invariant group (world.tick ticket now sla) := by
  unfold World.tick
  split
  swap
  · exact invariant
  rename_i row found
  have stays : Outcome group row none now row (syncTicketSla sla ⟨row, []⟩) :=
    .stayed nofun (still_sync sla _)
  exact invariant.put found stays nofun nofun

theorem Invariant.commit {call : Call} (found : world.calls[place]? = some call) (reading : call.stage = .reading)
    (unreturned : Unreturned group world (.commit place sla)) :
    Invariant group (world.commit group place call sla) := by
  unfold World.commit
  split
  swap
  · exact invariant.setStage place
  rename_i row there
  have known := invariant.drawn _ row there
  split
  · rename_i tx done
    have moving {target : StateId} (asks : call.target = some target)
        (other : some target ≠ call.existing.stateId) : call.moves = true := by
      rw [Call.moves, asks]
      simpa using other
    apply Invariant.setStage
    apply Invariant.note
    · apply invariant.put there (Call.run_some done)
      · intro target asks other read
        apply unreturned call.ticket target
        simp [World.destination, found, there, asks, moving asks other, read]
      · intro target asks other read earlier same
        cases same
        obtain ⟨of_, was, since⟩ := invariant.calls place call found reading (moving asks other)
        cases Option.some_inj.mp (was.symm.trans there)
        rw [since, read]
        exact decide_eq_false fun differ => differ rfl
    · exact known
    · exact nofun
    · exact fun _ => rfl
    · exact fun _ => rfl
    · exact fun _ => rfl
    · trivial
  · rename_i done
    obtain ⟨moves, unread⟩ := Call.run_none done
    apply Invariant.setStage
    apply invariant.note
    · exact known
    · exact nofun
    · exact fun _ => rfl
    · exact fun _ => rfl
    · exact fun _ => rfl
    · obtain ⟨of_, was, since⟩ := invariant.calls place call found reading moves
      cases Option.some_inj.mp (was.symm.trans there)
      exact since.trans (decide_eq_true unread)

end

variable {action : Action}

theorem Invariant.step (invariant : Invariant group world) (kept : Kept group world action) :
    Invariant group (world.step group action) := by
  cases action with
  | createTicket states input auto now => exact invariant.createTicket states input auto now
  | updateTicket ticket states _ now | addComment ticket states _ _ now =>
    exact invariant.begin_ ticket states _ now
  | read call part => exact invariant.readAt call part
  | commit place sla =>
    rw [World.step, World.commitAt]
    split
    · rename_i call found
      split
      · rename_i reading
        exact invariant.commit found reading kept.1
      · exact invariant
    · exact invariant
  | lose call => exact invariant.setStage call
  | intake message sla => exact invariant.intake kept
  | tick ticket now sla => exact invariant.tick ticket now sla

theorem refused_unchanged {refused : ℕ}
    (same : (world.step group action).log = world.log ++ [.refused refused ticket]) :
    (world.step group action).tickets = world.tickets := by
  have not_wrote {id : TicketId} {now : ℤ} {call : Option ℕ} {activities : List PmActivity}
      (same : world.log ++ activities.map (Entry.wrote id now call) =
        world.log ++ [.refused refused ticket]) : False := by
    have wrote : Entry.refused refused ticket ∈ activities.map (Entry.wrote id now call) := by
      rw [List.append_cancel_left same]
      exact List.mem_singleton_self _
    obtain ⟨_, _, differ⟩ := List.mem_map.mp wrote
    cases differ
  have not_opened {message : Inbound} (same : (world.open_ message).log =
      world.log ++ [.refused refused ticket]) : (world.open_ message).tickets = world.tickets := by
    unfold World.open_ at same ⊢
    split at same
    · simp only [World.note, World.insert, List.append_assoc] at same
      cases List.append_cancel_left same
    · rfl
  cases action with
  | createTicket states input auto now =>
    rw [World.step, World.createTicket] at same ⊢
    split at same
    · cases List.append_cancel_left same
    · rfl
  | updateTicket | addComment =>
    rw [World.step, World.begin_]
    split
    · dsimp only
      split <;> rfl
    · rfl
  | read place part =>
    rw [World.step, World.readAt]
    split
    · split <;> rfl
    · rfl
  | commit place sla =>
    rw [World.step, World.commitAt] at same ⊢
    split at same
    swap
    · rfl
    split at same
    swap
    · rw [if_neg (by assumption)]
    rw [if_pos (by assumption)]
    unfold World.commit at same ⊢
    split at same
    · split at same
      · simp only [World.setStage, World.note, World.put, List.append_assoc] at same
        have last := congrArg List.getLast? (List.append_cancel_left same)
        simp at last
      · rfl
    · rfl
  | lose place => rfl
  | intake message sla =>
    rw [World.step, World.intake] at same ⊢
    split at same
    · exact not_opened same
    · split at same
      · split at same
        · rw [if_pos (by assumption)]
          exact not_opened same
        · rw [if_neg (by assumption)]
          split at same
          · exact (not_wrote same).elim
          · rfl
      · rfl
  | tick id now sla =>
    rw [World.step, World.tick] at same ⊢
    split at same
    · exact (not_wrote same).elim
    · rfl

variable (group)

structure Solved (events : List Action) : Prop where
  rows : ∀ ticket row, (World.after group events).tickets ticket = some row →
    RowSolved group (World.after group events).log ticket row
  /-- Nothing moves a ticket between a call's read of it and the call's move. -/
  exclusive : ∀ earlier ticket now call old new later, (World.after group events).log =
    earlier ++ .wrote ticket now (some call) (.state_changed old new) :: later →
      movedSince call ticket earlier = false
  /-- Of two calls that move a ticket, the second read it after the first had moved it. -/
  apart : ∀ earlier ticket now now' first call old old' new new' between later,
    (World.after group events).log =
      earlier ++ .wrote ticket now first (.state_changed old new) ::
        (between ++ .wrote ticket now' (some call) (.state_changed old' new') :: later) →
      ∃ id, .began call id ∈ between
  /-- A call is refused only when a move came between. -/
  refused : ∀ earlier call ticket later, (World.after group events).log =
    earlier ++ .refused call ticket :: later → movedSince call ticket earlier = true
  unchanged : ∀ first event rest, events = first ++ event :: rest → ∀ call ticket,
    (World.after group (first ++ [event])).log =
        (World.after group first).log ++ [.refused call ticket] →
      (World.after group (first ++ [event])).tickets = (World.after group first).tickets

variable {group} {events : List Action}

theorem emptyWorld_invariant : Invariant group emptyWorld where
  drawn := by simp [emptyWorld]
  written := by simp [emptyWorld]
  rows := by simp [emptyWorld]
  calls := by simp [emptyWorld]
  exclusive := Histories.each_nil

theorem after_invariant (kept : Stepping.Along (World.step group) (Kept group) emptyWorld events) :
    Invariant group (World.after group events) := by
  have keeps (world : World) (event : Action) (invariant : Invariant group world)
      (granted : Kept group world event) : Invariant group (world.step group event) :=
    invariant.step granted
  exact kept.keeps keeps emptyWorld_invariant

theorem after_snoc (first : List Action) (event : Action) :
    World.after group (first ++ [event]) = (World.after group first).step group event :=
  Stepping.run_append (World.step group) emptyWorld first [event]

theorem movedSince_stays {between : List Entry} (moved : movedSince place ticket log = true)
    (unread : ∀ id, .began place id ∉ between) : movedSince place ticket (log ++ between) = true := by
  induction between using List.reverseRecOn with
  | nil =>
    rw [List.append_nil]
    exact moved
  | append_singleton front entry ih =>
    have before := ih fun id member => unread id (List.mem_append_left _ member)
    rw [← List.append_assoc, movedSince_append, before]
    cases entry with
    | began call id =>
      rw [Entry.movedSince, if_neg]
      intro same
      exact unread id (by simp [same])
    | _ => rfl

/-- Solved means solved, as long as intake opens tickets in open states only, and no ticket is moved back
to a state in which a call that is still to move it read it. -/
theorem solved_means_solved (group : StateId → PmStateGroup) (events : List Action)
    (kept : Stepping.Along (World.step group) (Kept group) emptyWorld events) :
    Solved group events := by
  have invariant := after_invariant kept
  have exclusive (earlier : List Entry) (ticket : TicketId) (now : ℤ) (call : ℕ)
      (old new : Option StateId) (later : List Entry) (split : (World.after group events).log =
        earlier ++ .wrote ticket now (some call) (.state_changed old new) :: later) :
      movedSince call ticket earlier = false :=
    invariant.exclusive earlier _ later split
  refine ⟨invariant.rows, exclusive, ?_, ?_, ?_⟩
  · intro earlier ticket now now' first call old old' new new' between later split
    by_contra unread
    have still : movedSince call ticket
        ((earlier ++ [.wrote ticket now first (.state_changed old new)]) ++ between) = true := by
      apply movedSince_stays movedSince_move
      intro id member
      exact unread ⟨id, member⟩
    rw [exclusive _ ticket now' call old' new' later (by simp [split])] at still
    cases still
  · intro earlier call ticket later split
    exact invariant.exclusive earlier _ later split
  · intro first event rest split call ticket same
    rw [after_snoc] at same ⊢
    exact refused_unchanged same

theorem unreturned_of_all
    (all : (world.destination group action).all (fun moved => world.calls.all fun call =>
      !(call.stage == .reading && decide (call.ticket = moved.1) && call.moves &&
        decide (call.existing.stateId = some moved.2))) = true) : Unreturned group world action := by
  intro ticket target goes place call found reading same moves back
  rw [goes] at all
  have free := List.all_eq_true.mp all call (List.mem_of_getElem? found)
  simp [reading, same, moves, back] at free

def twoGroups : StateId → PmStateGroup
  | 0 => .started
  | _ => .completed

def twoStates : List PmState := [⟨0, 0, true, .REOPEN⟩, ⟨1, 1, false, .REOPEN⟩]

def plainTicket : TicketCreateInput :=
  ⟨7, "Printer", none, none, none, none, [], none, none⟩

def moveTo (state : StateId) : TicketUpdateInput :=
  ⟨none, none, some state, none, none, none, none, none⟩

def quietClock : UpdateSla := ⟨[], []⟩

def solvedAndReopened : List Action :=
  [.createTicket twoStates plainTicket none 10, .updateTicket 0 twoStates (moveTo 1) 30,
    .commit 0 quietClock, .intake ⟨50, "Re: Printer", some "<p>No</p>", some 0, 7, twoStates, 7, none⟩
      quietClock]

theorem solved_and_reopened :
    ((World.after twoGroups solvedAndReopened).tickets 0).map
        (fun row => (row.stateId, row.solvedAt, row.reopenCount)) = some (some 0, none, 1) ∧
      Solved twoGroups solvedAndReopened := by
  refine ⟨by decide, solved_means_solved twoGroups solvedAndReopened ?_⟩
  refine ⟨⟨unreturned_of_all (by decide), trivial⟩,
    ⟨unreturned_of_all (by decide), trivial⟩,
    ⟨unreturned_of_all (by decide), trivial⟩,
    ⟨unreturned_of_all (by decide), ?_⟩, trivial⟩
  intro _ state landing
  cases landing
  rfl

/-- A message to a desk whose default state is a completed one. -/
def landsCompleted : List Action :=
  [.intake ⟨50, "Printer", none, none, 7, [⟨0, 0, false, .REOPEN⟩, ⟨1, 1, true, .REOPEN⟩], 7, none⟩
    quietClock]

/-- The ticket is in a completed state, and has neither been solved nor is it completed. -/
theorem intake_lands_unsolved :
    ((World.after twoGroups landsCompleted).tickets 0).map
        (fun row => (row.stateId, row.isCompleted, row.solvedAt)) = some (some 1, false, none) ∧
      ¬ Solved twoGroups landsCompleted := by
  refine ⟨by decide, ?_⟩
  intro solved
  have row := solved.rows 0 _ (rfl : (World.after twoGroups landsCompleted).tickets 0 = some _)
  have completed := row.isCompleted
  revert completed
  decide

end Droplet.Support
