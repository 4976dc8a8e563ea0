import Droplet.Departments.Changes

/-! Where members are while their rows change: as long as no push or sweep is overtaken by another change
of the same member, a row that says synced is true of the group. -/

namespace Droplet.Departments

variable {directory : Directory} {world after : World} {id : ℕ} {outcome : Outcome} {call next : Call}

/-- Nothing is left to add, and the row is still to be marked. -/
def Work.placed (work : Work) : Prop :=
  (∃ mask, .mark mask ∈ work.todo) ∧ ∀ group account, .add group account ∉ work.todo

/-- The member whose row a call is about to commit. -/
def Call.changes : Call → Option UserId
  | .add userId _ _ (.create _) | .update userId _ (.commit _ _) | .remove userId (.commit _ _) =>
    some userId
  | _ => none

/-- A change is committed when nothing about the member is in hand, but for a removal that is made again. A
right that needs no group changed is committed on a row that is synced and in that group. And the drift pass
takes no one out of the group of a row that is synced, or is about to be. -/
structure World.Orders (directory : Directory) (world : World) (call : Call) : Prop where
  alone : ∀ userId, call.changes = some userId → ∀ other held, world.calls other = some held →
    ∀ task ∈ held.tasks, task.userId = userId →
    task.intent.isSync = false ∧ ∃ stage, call = .remove userId stage
  even : ∀ userId newRight dept oldRight, call = .update userId newRight (.commit dept oldRight) →
    dept.active = true → oldRight.isReader = newRight.isReader → ∀ row, world.rows.get userId = some row →
    row.syncState = .synced ∧ row.right.group = newRight.group
  drift : ∀ group member drifted rest expected,
    call = .tick (.purge group member drifted rest expected) →
    ∀ userId, directory.nextcloudUsername userId = some member →
    (∀ row, world.rows.get userId = some row → row.syncState = .synced → row.right.group ≠ group) ∧
    ∀ other held work right, world.calls other = some held → held.live = some work →
      work.userId = userId → work.intent = .sync right → work.placed → right.group ≠ group

def World.Ordered (directory : Directory) (world : World) : Event → Prop
  | .step id _ => ∀ call, world.calls id = some call → world.Orders directory call
  | _ => True

/-- The row is as it was when the task was begun. -/
def Stands (world : World) (task : Task) : Prop :=
  match task.intent with
  | .sync right => ∃ row, world.rows.get task.userId = some row ∧ row.id = task.membershipId ∧
      row.right.group = right.group ∧ row.syncState.isRemoval = false
  | .removal _ => ∀ row, world.rows.get task.userId = some row →
      row.id = task.membershipId ∧ row.syncState.isRemoval = true

def AllStand (world : World) : Prop :=
  ∀ id call, world.calls id = some call → ∀ task ∈ call.tasks, Stands world task

variable {row : DepartmentMembership} {userId : UserId}

theorem Turn.forward (turn : Turn directory world outcome call next after)
    (found : world.rows.get userId = some row) :
    (∃ now, after.rows.get userId = some now) ∨ ∃ work rest, call.live = some work ∧
      work.todo = .delete :: rest ∧ row.id = work.membershipId := by
  have updated : ∀ where_ data, ∃ now, (world.rows.updateMany where_ data).get userId = some now := by
    intro where_ data
    rw [Table.get_updateMany, found]
    exact ⟨_, rfl⟩
  cases turn with
  | creates makes =>
    obtain ⟨rows, created, rfl⟩ := Option.map_eq_some_iff.mp makes
    obtain ⟨free, get⟩ := Table.create_some created
    refine .inl ⟨row, ?_⟩
    change rows.get userId = some row
    rw [get, if_neg, found]
    intro same
    rw [same, free] at found
    cases found
  | writes | removes => exact .inl (updated _ _)
  | @performs _ _ work live =>
    rcases perform_rows world work outcome with same | acted
    · exact .inl ⟨row, same ▸ found⟩
    · obtain ⟨act, rest, todo, rows⟩ := acted
      rw [rows]
      cases act with
      | add | remove => exact .inl ⟨row, found⟩
      | mark | note => exact .inl (updated _ _)
      | delete =>
        by_cases same : row.id = work.membershipId
        · exact .inr ⟨work, rest, live, todo, same⟩
        · refine .inl ⟨row, ?_⟩
          rw [World.carryOut, World.deleteRow, World.setRows, Table.get_deleteMany, found,
            Option.filter_some, if_pos]
          simpa using same
  | _ => exact .inl ⟨row, found⟩

theorem mem_removed {group whose : Group} {account removed : Account} :
    account ∈ (world.ncRemoveUserFromGroup removed whose).groups group ↔
      account ∈ world.groups group ∧ ¬(group = whose ∧ account = removed) := by
  simp only [World.ncRemoveUserFromGroup, World.setGroup]
  by_cases same : group = whose
  · subst same
    simp
  · simp [same]

theorem mem_added {group whose : Group} {account added : Account} :
    account ∈ (world.ncAddUserToGroup added whose).groups group ↔
      account ∈ world.groups group ∨ group = whose ∧ account = added := by
  simp only [World.ncAddUserToGroup, World.setGroup]
  by_cases same : group = whose
  · subst same
    rw [Function.update_self]
    split
    next there => exact ⟨.inl, fun either => either.elim (fun inside => inside) fun new => new.2 ▸ there⟩
    next => simp
  · simp [same]

variable {account : Account} {group : Group}

theorem mem_carryOut {work : Work} {act : Act} (there : account ∈ (world.carryOut work act).groups group) :
    account ∈ world.groups group ∨ act = .add group account := by
  cases act with
  | add whose added =>
    rcases mem_added.mp there with before | new
    · exact .inl before
    · rw [new.1, new.2]
      exact .inr rfl
  | remove whose removed => exact .inl (mem_removed.mp there).1
  | _ => exact .inl there

theorem perform_groups (world : World) (work : Work) (outcome : Outcome) :
    (perform world work outcome).1.groups = world.groups ∨ ∃ act rest, work.todo = act :: rest ∧
      (perform world work outcome).1.groups = (world.carryOut work act).groups := by
  cases todo : work.todo with
  | nil =>
    rw [perform_nil todo]
    exact .inl rfl
  | cons act rest =>
    rcases perform_world todo outcome with landed | lost
    · rw [landed, (carryOut_asks world work act).2.1]
      exact .inr ⟨act, rest, rfl, rfl⟩
    · rw [lost, asks_groups]
      exact .inl rfl

section

variable (turn : Turn directory world outcome call next after)
include turn

theorem Turn.groups :
    after.groups = world.groups ∨
      (∃ work act rest, call.live = some work ∧ work.todo = act :: rest ∧
        after.groups = (world.carryOut work act).groups) ∨
      ∃ group member drifted rest expected,
        call = .tick (.purge group member drifted rest expected) ∧
        after.groups = (world.ncRemoveUserFromGroup member group).groups := by
  cases turn with
  | creates makes =>
    obtain ⟨rows, _, rfl⟩ := Option.map_eq_some_iff.mp makes
    exact .inl rfl
  | @performs _ _ work live =>
    rcases perform_groups world work outcome with same | acted
    · exact .inl same
    · obtain ⟨act, rest, todo, groups⟩ := acted
      exact .inr (.inl ⟨work, act, rest, live, todo, groups⟩)
  | purges idle => exact .inr (.inr ⟨_, _, _, _, _, rfl, rfl⟩)
  | _ => exact .inl rfl

theorem Turn.joins (there : account ∈ after.groups group) :
    account ∈ world.groups group ∨ ∃ work rest, call.live = some work ∧
      work.todo = .add group account :: rest := by
  rcases turn.groups with same | acted | purged
  · rw [same] at there
    exact .inl there
  · obtain ⟨work, act, rest, live, todo, groups⟩ := acted
    rw [groups] at there
    rcases mem_carryOut there with before | adds
    · exact .inl before
    · exact .inr ⟨work, rest, live, adds ▸ todo⟩
  · obtain ⟨whose, member, _, _, _, _, groups⟩ := purged
    rw [groups] at there
    exact .inl (mem_removed.mp there).1

theorem Turn.leaves (there : account ∈ world.groups group) :
    account ∈ after.groups group ∨
      (∃ work rest, call.live = some work ∧ work.todo = .remove group account :: rest) ∨
      ∃ drifted rest expected, call = .tick (.purge group account drifted rest expected) := by
  rcases turn.groups with same | acted | purged
  · rw [same]
    exact .inl there
  · obtain ⟨work, act, rest, live, todo, groups⟩ := acted
    rw [groups]
    cases act with
    | add whose added => exact .inl (mem_added.mpr (.inl there))
    | remove whose removed =>
      by_cases hit : group = whose ∧ account = removed
      · obtain ⟨rfl, rfl⟩ := hit
        exact .inr (.inl ⟨work, rest, live, todo⟩)
      · exact .inl (mem_removed.mpr ⟨there, hit⟩)
    | _ => exact .inl there
  · obtain ⟨whose, member, drifted, rest, expected, is, groups⟩ := purged
    rw [groups]
    by_cases hit : group = whose ∧ account = member
    · obtain ⟨rfl, rfl⟩ := hit
      exact .inr (.inr ⟨drifted, rest, expected, is⟩)
    · exact .inl (mem_removed.mpr ⟨there, hit⟩)

end

variable {task : Task}

theorem stands_sync {right : DepartmentRight} (is : task.intent = .sync right) :
    Stands world task ↔ ∃ row, world.rows.get task.userId = some row ∧ row.id = task.membershipId ∧
      row.right.group = right.group ∧ row.syncState.isRemoval = false := by
  rw [Stands, is]

theorem stands_removal {swept : Bool} (is : task.intent = .removal swept) :
    Stands world task ↔ ∀ row, world.rows.get task.userId = some row →
      row.id = task.membershipId ∧ row.syncState.isRemoval = true := by
  rw [Stands, is]

theorem stands_same (same : after.rows = world.rows) (stands : Stands world task) : Stands after task := by
  unfold Stands at stands ⊢
  rw [same]
  exact stands

theorem Keyed.owner {held : ℕ} (keyed : Keyed world) (there : world.calls held = some call)
    {work : Work} (live : call.live = some work) (found : world.rows.get userId = some row)
    (hit : row.id = work.membershipId) : userId = work.userId :=
  (keyed.tasks held call there _ (mem_tasks_of_live live)).2 userId row found hit

theorem kept (stands : AllStand world) (keyed : Keyed world) (shaped : Shaped directory world)
    (found : world.calls id = some call) (turn : Turn directory world outcome call next after)
    (there : world.rows.get userId = some row) (stays : row.syncState.isRemoval = false) :
    ∃ now, after.rows.get userId = some now := by
  rcases turn.forward there with still | deleted
  · exact still
  obtain ⟨work, rest, live, todo, hit⟩ := deleted
  have removal : work.intent.isSync = false := shaped id call work found live .delete (todo ▸ .head _)
  have owner := keyed.owner found live there hit
  have stand := stands id call found _ (mem_tasks_of_live live)
  cases intent : work.intent with
  | sync right =>
    rw [intent] at removal
    cases removal
  | removal swept =>
    have out := ((stands_removal intent).mp stand row (show world.rows.get work.userId = _ from
      owner ▸ there)).2
    rw [stays] at out
    cases out

theorem stands_noted {task other : Task} {before row : DepartmentMembership} {act : Act}
    (also : Stands world other) (same : other.userId = task.userId)
    (found : world.rows.get task.userId = some before) (fits : Fits directory other.userId other.intent act)
    (state : (∃ mask, act = .mark mask) ∧ row.syncState = .synced ∨
      ∃ state message, act = .note state message ∧ row.syncState = state.getD before.syncState) :
    row.syncState.isRemoval = before.syncState.isRemoval := by
  cases intent : other.intent with
  | sync right =>
    obtain ⟨row', found', _, _, stays⟩ := (stands_sync intent).mp also
    rw [same, found] at found'
    cases found'
    rw [stays]
    rcases state with marked | noted
    · rw [marked.2]
      rfl
    · obtain ⟨state, message, rfl, is⟩ := noted
      rw [is, show state = other.intent.failure from fits, intent]
      rfl
  | removal swept =>
    have out := ((stands_removal intent).mp also before (same ▸ found)).2
    rcases state with marked | noted
    · obtain ⟨⟨mask, rfl⟩, _⟩ := marked
      have sync : other.intent.isSync = true := fits
      rw [intent] at sync
      cases sync
    · obtain ⟨state, message, rfl, is⟩ := noted
      rw [is, show state = other.intent.failure from fits, intent]
      cases swept
      · rfl
      · rw [out]
        rfl

theorem stands_turn (stands : AllStand world) (keyed : Keyed world)
    (shaped : Shaped directory world) (found : world.calls id = some call)
    (orders : world.Orders directory call) (turn : Turn directory world outcome call next after)
    {other : ℕ} {held : Call} (has : world.calls other = some held) (inside : task ∈ held.tasks) :
    Stands after task := by
  have stand := stands other held has task inside
  have alone : ∀ {userId}, call.changes = some userId → task.userId = userId →
      task.intent.isSync = false ∧ ∃ stage, call = .remove userId stage :=
    fun changes same => orders.alone _ changes other held has task inside same
  cases intent : task.intent with
  | sync right =>
    rw [stands_sync intent] at stand ⊢
    obtain ⟨row, there, is, group, stays⟩ := stand
    have never : ∀ {userId}, call.changes = some userId → task.userId = userId → False := by
      intro userId changes same
      have removal := (alone changes same).1
      rw [intent] at removal
      cases removal
    obtain ⟨now, still⟩ := kept stands keyed shaped found turn there stays
    refine ⟨now, still, ?_⟩
    cases turn.rows still with
    | same was =>
      cases Option.some_inj.mp (was.symm.trans there)
      exact ⟨is, group, stays⟩
    | created add free =>
      rw [there] at free
      cases free
    | written update => exact absurd rfl fun same => never (by rw [update]; rfl) same
    | removing remove => exact absurd rfl fun same => never (by rw [remove]; rfl) same
    | @noted work act rest before live todo was hit id right state =>
      cases Option.some_inj.mp (was.symm.trans there)
      have owner := keyed.owner found live was hit
      have removal := stands_noted (stands _ call found _ (mem_tasks_of_live live)) owner.symm was
        (shaped.head found live todo) state
      exact ⟨id.trans is, by rw [right]; exact group, removal.trans stays⟩
  | removal swept =>
    rw [stands_removal intent] at stand ⊢
    intro row there
    cases turn.rows there with
    | same was => exact stand row was
    | created add =>
      obtain ⟨_, stage, remove⟩ := alone (by rw [add]; rfl) rfl
      cases add.symm.trans remove
    | written update =>
      obtain ⟨_, stage, remove⟩ := alone (by rw [update]; rfl) rfl
      cases update.symm.trans remove
    | removing remove was new =>
      rw [new]
      exact ⟨(stand _ was).1, rfl⟩
    | @noted work act rest before live todo was hit id right state =>
      have owner := keyed.owner found live was hit
      have removal := stands_noted (stands _ call found _ (mem_tasks_of_live live)) owner.symm was
        (shaped.head found live todo) state
      exact ⟨id.trans (stand before was).1, removal.trans (stand before was).2⟩

theorem get_updated {data : DepartmentMembership → DepartmentMembership}
    (found : world.rows.get userId = some row) :
    (world.rows.updateMany (fun key _ => key = userId) data).get userId = some (data row) := by
  rw [Table.get_updateMany, found]
  simp

theorem stands_begun (stands : AllStand world) (keyed : Keyed world)
    (shaped : Shaped directory world) (found : world.calls id = some call)
    (orders : world.Orders directory call) (turn : Turn directory world outcome call next after)
    (inside : task ∈ next.tasks) : Stands after task := by
  have had : ∀ {task}, task ∈ call.tasks → Stands after task :=
    fun there => stands_turn stands keyed shaped found orders turn found there
  cases turn.tasks inside with
  | had there => exact had there
  | @creates userId grantedBy right dept is =>
    refine (stands_sync rfl).mpr ?_
    cases turn with
    | creates makes =>
      cases is
      obtain ⟨rows, created, rfl⟩ := Option.map_eq_some_iff.mp makes
      obtain ⟨free, get⟩ := Table.create_some created
      refine ⟨⟨world.nextId, right, .pending, none, none, grantedBy⟩, ?_, rfl, rfl, rfl⟩
      change rows.get userId = some _
      rw [get, if_pos rfl]
    | counts counting =>
      rw [is] at counting
      cases counting
    | performs live =>
      rw [is] at live
      cases live
    | _ => cases is
  | @writes userId oldRight newRight dept row is there =>
    refine (stands_sync rfl).mpr ?_
    cases turn with
    | writes =>
      cases is
      exact ⟨_, get_updated there, rfl, rfl, rfl⟩
    | counts counting many live queued =>
      rw [Call.tasks, live, queued] at inside
      cases inside
    | performs live =>
      rw [is] at live
      cases live
    | _ => cases is
  | @removes userId right dept row is there =>
    refine (stands_removal rfl).mpr ?_
    cases turn with
    | removes =>
      cases is
      intro now still
      cases Option.some_inj.mp (still.symm.trans (get_updated there))
      exact ⟨rfl, rfl⟩
    | counts counting many live queued =>
      rw [Call.tasks, live, queued] at inside
      cases inside
    | performs live =>
      rw [is] at live
      cases live
    | _ => cases is
  | @reads userId row is there swept =>
    have same : after.rows = world.rows := by
      cases turn with
      | reads | counts => rfl
      | performs live =>
        rw [is] at live
        cases live
      | _ => cases is
    by_cases removal : row.syncState.isRemoval = true
    · refine (stands_removal (if_pos removal)).mpr ?_
      intro now still
      rw [same] at still
      cases Option.some_inj.mp (still.symm.trans there)
      exact ⟨rfl, removal⟩
    · refine (stands_sync (if_neg removal)).mpr ⟨row, ?_, rfl, rfl, ?_⟩
      · rw [same]
        exact there
      · exact Bool.eq_false_iff.mpr removal

end Droplet.Departments
