import Droplet.Departments.Steps

/-! What a step does to a row, to the log and to the tasks in hand, and that a row's id is one member's. -/

namespace Droplet.Departments

variable {directory : Directory} {world after : World} {id : ℕ} {outcome : Outcome} {call next : Call}

/-- Whom a push or a sweep is about, by which row, and to what end. -/
structure Task where
  userId : UserId
  membershipId : ℕ
  intent : Intent

def Work.task (work : Work) : Task := ⟨work.userId, work.membershipId, work.intent⟩

def MembershipSweepRow.task (row : MembershipSweepRow) : Task := ⟨row.userId, row.id, row.intent⟩

/-- What a call is in, and what it has read and not taken up yet. -/
def Call.tasks (call : Call) : List Task :=
  call.live.toList.map Work.task ++ call.queued.map MembershipSweepRow.task

theorem Call.Idle.tasks (idle : call.Idle) : call.tasks = [] := by
  rw [Call.tasks, idle.live, idle.queued]
  rfl

variable {work : Work}

theorem mem_tasks_of_live (live : call.live = some work) : work.task ∈ call.tasks := by
  rw [Call.tasks, live]
  exact List.mem_append_left _ (.head _)

theorem Follows.tasks {task : Task} (follows : Follows work next) (there : task ∈ next.tasks) :
    task = work.task ∨ task ∈ next.queued.map MembershipSweepRow.task := by
  rcases List.mem_append.mp there with live | queued
  · rcases follows.1 with some | none
    · rw [some] at live
      exact .inl (List.mem_singleton.mp live)
    · rw [none] at live
      cases live
  · exact .inr queued

theorem fails_task (work : Work) (act : Act) (message : String) : (work.fails act message).task = work.task := by
  cases act <;> rfl

theorem perform_task (world : World) (work : Work) (outcome : Outcome) :
    (perform world work outcome).2.task = work.task := by
  cases todo : work.todo with
  | nil => rw [perform_nil todo]
  | cons act rest =>
    rcases perform_work world todo outcome with failed | did
    · obtain ⟨message, failed⟩ := failed
      rw [failed, fails_task]
    · rw [did.2.2]
      rfl

inductive Begun (world : World) (call : Call) : Task → Prop where
  | had {task : Task} (there : task ∈ call.tasks) : Begun world call task
  | creates {userId grantedBy : UserId} {right : DepartmentRight} {dept : Department}
      (is : call = .add userId right grantedBy (.create dept)) :
      Begun world call ⟨userId, world.nextId, .sync right⟩
  | writes {userId : UserId} {oldRight newRight : DepartmentRight} {dept : Department}
      {row : DepartmentMembership} (is : call = .update userId newRight (.commit dept oldRight))
      (found : world.rows.get userId = some row) : Begun world call ⟨userId, row.id, .sync newRight⟩
  | removes {userId : UserId} {right : DepartmentRight} {dept : Department}
      {row : DepartmentMembership} (is : call = .remove userId (.commit dept right))
      (found : world.rows.get userId = some row) : Begun world call ⟨userId, row.id, .removal false⟩
  | reads {userId : UserId} {row : DepartmentMembership} (is : call = .tick .rows)
      (found : world.rows.get userId = some row) (swept : row.syncState.isSwept = true) :
      Begun world call (MembershipSweepRow.task ⟨row.id, userId, row.right, row.syncState⟩)

theorem mem_sweptRows {row : MembershipSweepRow} (there : row ∈ world.sweptRows) :
    ∃ held, world.rows.get row.userId = some held ∧ held.syncState.isSwept = true ∧
      row = ⟨held.id, row.userId, held.right, held.syncState⟩ := by
  obtain ⟨entry, inside, rfl⟩ := List.mem_map.mp there
  obtain ⟨found, swept⟩ := Table.mem_findMany.mp inside
  exact ⟨entry.2, found, swept, rfl⟩

theorem Turn.tasks (turn : Turn directory world outcome call next after) {task : Task}
    (there : task ∈ next.tasks) : Begun world call task := by
  cases turn with
  | counts counting many live queued =>
    rw [Call.tasks, live, queued] at there
    cases there
  | creates makes follows queued =>
    rcases follows.tasks there with rfl | inside
    · exact .creates rfl
    · rw [queued] at inside
      cases inside
  | writes found follows queued =>
    rcases follows.tasks there with rfl | inside
    · exact .writes rfl found
    · rw [queued] at inside
      cases inside
  | removes found follows queued =>
    rcases follows.tasks there with rfl | inside
    · exact .removes rfl found
    · rw [queued] at inside
      cases inside
  | performs live follows queued =>
    rcases follows.tasks there with rfl | inside
    · rw [perform_task]
      exact .had (mem_tasks_of_live live)
    · rw [queued] at inside
      exact .had (List.mem_append_right _ inside)
  | purges idle =>
    rw [idle.tasks] at there
    cases there
  | reads live queued =>
    rw [Call.tasks, live, queued] at there
    obtain ⟨row, inside, rfl⟩ := List.mem_map.mp there
    obtain ⟨held, found, swept, is⟩ := mem_sweptRows inside
    rw [is]
    exact .reads rfl found swept
  | takes is follows queued =>
    rcases follows.tasks there with rfl | inside
    · refine .had (List.mem_append_right _ (List.mem_map.mpr ⟨_, .head _, ?_⟩))
      rcases is with rfl | failed
      · rfl
      · obtain ⟨message, rfl⟩ := failed
        rfl
    · rw [queued] at inside
      exact .had (List.mem_append_right _ (List.mem_cons_of_mem _ inside))

def Intent.isSync : Intent → Bool
  | .sync _ => true
  | .removal _ => false

/-- What a push that gives a right its group does, and what one that takes both away does. -/
def Fits (directory : Directory) (userId : UserId) (intent : Intent) : Act → Prop
  | .add group account => directory.nextcloudUsername userId = some account ∧
      ∃ right, intent = .sync right ∧ group = right.group
  | .remove group account => directory.nextcloudUsername userId = some account ∧
      ∀ right, intent = .sync right → group = right.group.other
  | .mark _ => intent.isSync = true
  | .note state _ => state = intent.failure
  | .delete => intent.isSync = false

def Work.Shaped (directory : Directory) (work : Work) : Prop :=
  ∀ act ∈ work.todo, Fits directory work.userId work.intent act

variable (dept : Department)

theorem removalActs_fit (userId : UserId) (intent : Intent) (removal : intent.isSync = false) :
    ∀ act ∈ removalActs directory dept userId, Fits directory userId intent act := by
  intro act there
  unfold removalActs at there
  split at there
  · cases List.mem_singleton.mp there
    exact removal
  next account known =>
    rcases List.mem_append.mp there with out | last
    · obtain ⟨group, _, rfl⟩ := List.mem_map.mp out
      refine ⟨known, ?_⟩
      intro right is
      rw [is] at removal
      cases removal
    · cases List.mem_singleton.mp last
      exact removal

theorem pushAdd_shaped (membershipId : ℕ) (userId : UserId) (right : DepartmentRight) :
    (pushAdd directory dept membershipId userId right).Shaped directory := by
  intro act there
  simp only [pushAdd] at there ⊢
  split at there
  · split at there
    · cases List.mem_singleton.mp there
      rfl
    next account known =>
      rcases List.mem_cons.mp there with rfl | there
      · exact ⟨known, right, rfl, rfl⟩
      · cases List.mem_singleton.mp there
        rfl
  · cases there

theorem pushRightTransition_shaped (membershipId : ℕ) (userId : UserId) (oldRight newRight : DepartmentRight) :
    (pushRightTransition directory dept membershipId userId oldRight newRight).Shaped directory := by
  have group : ∀ right : DepartmentRight, right.group = if right.isReader then .ro else .rw :=
    fun _ => rfl
  intro act there
  simp only [pushRightTransition] at there ⊢
  split at there
  · split at there
    · cases List.mem_singleton.mp there
      rfl
    next differ =>
      split at there
      · cases List.mem_singleton.mp there
        rfl
      next account known =>
        split at there
        next reader =>
          have writer : newRight.isReader = false := by
            rw [reader] at differ
            exact Bool.eq_false_iff.mpr fun same => differ same.symm
          simp only [List.mem_cons, List.not_mem_nil, or_false] at there
          rcases there with rfl | rfl | rfl
          · exact ⟨known, newRight, rfl, by rw [group, writer]; rfl⟩
          · refine ⟨known, ?_⟩
            intro right is
            cases is
            rw [group, writer]
            rfl
          · rfl
        next writer =>
          have reader : newRight.isReader = true := by
            rw [Bool.eq_false_iff.mpr writer] at differ
            exact Bool.not_eq_false _ ▸ fun same => differ same.symm
          simp only [List.mem_cons, List.not_mem_nil, or_false] at there
          rcases there with rfl | rfl | rfl
          · refine ⟨known, ?_⟩
            intro right is
            cases is
            rw [group, reader]
            rfl
          · exact ⟨known, newRight, rfl, by rw [group, reader]; rfl⟩
          · rfl
  · cases there

theorem sweepRow_shaped (row : MembershipSweepRow) : (sweepRow directory dept row).Shaped directory := by
  intro act there
  simp only [sweepRow, MembershipSweepRow.intent] at there ⊢
  split at there
  · cases there
  · split at there
    next removal =>
      rw [if_pos removal]
      exact removalActs_fit dept row.userId _ rfl act there
    next sync =>
      rw [if_neg sync]
      split at there
      · split at there
        · cases List.mem_singleton.mp there
          rfl
        next account known =>
          simp only [List.mem_cons, List.not_mem_nil, or_false] at there
          rcases there with rfl | rfl | rfl
          · exact ⟨known, row.right, rfl, rfl⟩
          · refine ⟨known, ?_⟩
            intro right is
            cases is
            rfl
          · rfl
      · cases List.mem_singleton.mp there
        rfl

theorem perform_shaped (shaped : work.Shaped directory) (world : World) (outcome : Outcome) :
    (perform world work outcome).2.Shaped directory := by
  cases todo : work.todo with
  | nil =>
    rw [perform_nil todo]
    exact shaped
  | cons act rest =>
    rcases perform_work world todo outcome with failed | did
    · obtain ⟨message, failed⟩ := failed
      rw [failed]
      intro other there
      cases act with
      | note state text => cases there
      | _ =>
        cases List.mem_singleton.mp there
        rfl
    · rw [did.2.2]
      intro other there
      exact shaped other (todo ▸ .tail _ there)

/-- Every push in hand has the shape of its intent. -/
def Shaped (directory : Directory) (world : World) : Prop :=
  ∀ id call work, world.calls id = some call → call.live = some work → work.Shaped directory

variable {rest : List Act}

theorem Shaped.head {held : ℕ} (shaped : Shaped directory world)
    (there : world.calls held = some call) {act : Act} (live : call.live = some work)
    (todo : work.todo = act :: rest) : Fits directory work.userId work.intent act :=
  shaped held call work there live act (todo ▸ .head _)

theorem Follows.only {work other : Work} (follows : Follows work next)
    (live : next.live = some other) : other = work := by
  rcases follows.1 with some | none
  · exact Option.some_inj.mp (live.symm.trans some)
  · cases live.symm.trans none

theorem Turn.shaped (turn : Turn directory world outcome call next after)
    (shaped : ∀ work, call.live = some work → work.Shaped directory) (live : next.live = some work) :
    work.Shaped directory := by
  cases turn with
  | counts _ _ none | reads none => cases live.symm.trans none
  | creates makes follows =>
    rw [follows.only live]
    exact pushAdd_shaped _ _ _ _
  | writes found follows =>
    rw [follows.only live]
    exact pushRightTransition_shaped _ _ _ _ _
  | removes found follows =>
    rw [follows.only live]
    exact removalActs_fit _ _ _ rfl
  | performs was follows =>
    rw [follows.only live]
    exact perform_shaped (shaped _ was) _ _
  | purges idle => cases live.symm.trans idle.live
  | takes is follows =>
    rw [follows.only live]
    rcases is with rfl | failed
    · exact sweepRow_shaped _ _
    · obtain ⟨message, rfl⟩ := failed
      intro act there
      cases List.mem_singleton.mp there
      rfl

inductive Became (world : World) (call : Call) (userId : UserId) (row : DepartmentMembership) : Prop where
  | same (found : world.rows.get userId = some row) : Became world call userId row
  | created {right : DepartmentRight} {grantedBy : UserId} {dept : Department}
      (is : call = .add userId right grantedBy (.create dept)) (free : world.rows.get userId = none)
      (new : row = ⟨world.nextId, right, .pending, none, none, grantedBy⟩) :
      Became world call userId row
  | written {newRight oldRight : DepartmentRight} {dept : Department} {before : DepartmentMembership}
      (is : call = .update userId newRight (.commit dept oldRight))
      (found : world.rows.get userId = some before)
      (new : row = { before with right := newRight, syncState := .pending }) :
      Became world call userId row
  | removing {right : DepartmentRight} {dept : Department} {before : DepartmentMembership}
      (is : call = .remove userId (.commit dept right)) (found : world.rows.get userId = some before)
      (new : row = { before with syncState := .removing }) : Became world call userId row
  | noted {work : Work} {act : Act} {rest : List Act} {before : DepartmentMembership}
      (live : call.live = some work) (todo : work.todo = act :: rest)
      (found : world.rows.get userId = some before) (hit : before.id = work.membershipId)
      (id : row.id = before.id) (right : row.right = before.right)
      (state : (∃ mask, act = .mark mask) ∧ row.syncState = .synced ∨
        ∃ state message, act = .note state message ∧ row.syncState = state.getD before.syncState) :
      Became world call userId row

variable {row : DepartmentMembership} {userId : UserId}

theorem get_update {rows : Table UserId DepartmentMembership} {where_ : UserId → DepartmentMembership → Bool}
    {data : DepartmentMembership → DepartmentMembership}
    (found : (rows.updateMany where_ data).get userId = some row) :
    rows.get userId = some row ∧ where_ userId row = false ∨
      ∃ before, rows.get userId = some before ∧ where_ userId before = true ∧ row = data before := by
  rw [Table.get_updateMany, Option.map_eq_some_iff] at found
  obtain ⟨before, there, is⟩ := found
  split at is
  next hit => exact .inr ⟨before, there, hit, is.symm⟩
  next missed =>
    subst is
    exact .inl ⟨there, Bool.eq_false_iff.mpr missed⟩

theorem carryOut_rows {act : Act} (live : call.live = some work) (todo : work.todo = act :: rest)
    (found : (world.carryOut work act).rows.get userId = some row) : Became world call userId row := by
  cases act with
  | add | remove => exact .same found
  | mark mask =>
    rcases get_update found with same | hit
    · exact .same same.1
    · obtain ⟨before, there, hit, is⟩ := hit
      refine .noted live todo there (of_decide_eq_true hit) ?_ ?_ (.inl ⟨⟨mask, rfl⟩, ?_⟩) <;> rw [is]
  | note state message =>
    rcases get_update found with same | hit
    · exact .same same.1
    · obtain ⟨before, there, hit, is⟩ := hit
      refine .noted live todo there (of_decide_eq_true hit) ?_ ?_ (.inr ⟨state, message, rfl, ?_⟩) <;>
        rw [is]
  | delete =>
    rw [World.carryOut, World.deleteRow, World.setRows] at found
    rw [Table.get_deleteMany, Option.filter_eq_some_iff] at found
    exact .same found.1

theorem Turn.rows (turn : Turn directory world outcome call next after)
    (found : after.rows.get userId = some row) : Became world call userId row := by
  cases turn with
  | @creates target right grantedBy dept _ _ makes =>
    obtain ⟨rows, created, rfl⟩ := Option.map_eq_some_iff.mp makes
    obtain ⟨free, get⟩ := Table.create_some created
    change rows.get userId = some row at found
    rw [get] at found
    split at found
    next same =>
      subst same
      exact .created rfl free (Option.some_inj.mp found).symm
    next => exact .same found
  | @writes target oldRight newRight dept held =>
    rcases get_update found with same | hit
    · exact .same same.1
    · obtain ⟨before, there, hit, is⟩ := hit
      cases of_decide_eq_true hit
      exact .written rfl there is
  | @removes target right dept held =>
    rcases get_update found with same | hit
    · exact .same same.1
    · obtain ⟨before, there, hit, is⟩ := hit
      cases of_decide_eq_true hit
      exact .removing rfl there is
  | @performs _ _ work live =>
    rcases perform_rows world work outcome with same | acted
    · exact .same (same ▸ found)
    · obtain ⟨act, rest, todo, rows⟩ := acted
      exact carryOut_rows live todo (rows ▸ found)
  | _ => exact .same found

/-- What a step writes down. -/
inductive Wrote (world : World) (call : Call) : List Note → Prop where
  | nothing : Wrote world call []
  | added {userId grantedBy : UserId} {right : DepartmentRight} {dept : Department}
      (is : call = .add userId right grantedBy (.create dept)) : Wrote world call [.added userId]
  | removed {userId : UserId} {right : DepartmentRight} {dept : Department}
      (is : call = .remove userId (.commit dept right)) : Wrote world call [.removed userId]
  | asked {work : Work} {group : Group} {account : Account} {rest : List Act}
      (live : call.live = some work) (todo : work.todo = .add group account :: rest) :
      Wrote world call [.asked work.userId group]

theorem asks_log (world : World) {act : Act} (live : call.live = some work) (todo : work.todo = act :: rest) :
    ∃ notes, (world.asks work.userId act).log = world.log ++ notes ∧ Wrote world call notes := by
  cases act with
  | add group account => exact ⟨_, rfl, .asked live todo⟩
  | _ => exact ⟨[], (List.append_nil _).symm, .nothing⟩

theorem Turn.log (turn : Turn directory world outcome call next after) :
    ∃ notes, after.log = world.log ++ notes ∧ Wrote world call notes := by
  cases turn with
  | creates makes =>
    obtain ⟨rows, _, rfl⟩ := Option.map_eq_some_iff.mp makes
    exact ⟨_, rfl, .added rfl⟩
  | removes => exact ⟨_, rfl, .removed rfl⟩
  | @performs _ _ work live =>
    cases todo : work.todo with
    | nil =>
      rw [perform_nil todo]
      exact ⟨[], (List.append_nil _).symm, .nothing⟩
    | cons act rest =>
      obtain ⟨notes, log, wrote⟩ := asks_log world live todo
      refine ⟨notes, ?_, wrote⟩
      rw [← log]
      rcases perform_world todo outcome with landed | lost
      · rw [landed, (carryOut_asks world work act).2.2.1]
      · rw [lost]
  | _ => exact ⟨[], (List.append_nil _).symm, .nothing⟩

theorem perform_nextId (world : World) (work : Work) (outcome : Outcome) :
    (perform world work outcome).1.nextId = world.nextId := by
  cases todo : work.todo with
  | nil => rw [perform_nil todo]
  | cons act rest =>
    rcases perform_world todo outcome with landed | lost
    · rw [landed]
      cases act <;> rfl
    · rw [lost]
      cases act <;> rfl

theorem Turn.nextId (turn : Turn directory world outcome call next after) :
    after.nextId = world.nextId + 1 ∨ after.nextId = world.nextId ∧
      ∀ userId right grantedBy dept, call ≠ .add userId right grantedBy (.create dept) := by
  cases turn with
  | creates makes =>
    obtain ⟨rows, _, rfl⟩ := Option.map_eq_some_iff.mp makes
    exact .inl rfl
  | counts counting =>
    refine .inr ⟨rfl, ?_⟩
    intro _ _ _ _ is
    rw [is] at counting
    cases counting
  | performs live =>
    refine .inr ⟨perform_nextId _ _ _, ?_⟩
    intro _ _ _ _ is
    rw [is] at live
    cases live
  | _ =>
    refine .inr ⟨rfl, ?_⟩
    intro _ _ _ _ is
    cases is

/-- The id of a row is that of one member, and what is in hand by an id is about that member. -/
structure Keyed (world : World) : Prop where
  fresh : ∀ userId row, world.rows.get userId = some row → row.id < world.nextId
  apart : ∀ userId other row held, world.rows.get userId = some row →
    world.rows.get other = some held → row.id = held.id → userId = other
  tasks : ∀ id call, world.calls id = some call → ∀ task ∈ call.tasks,
    task.membershipId < world.nextId ∧ ∀ userId row, world.rows.get userId = some row →
      row.id = task.membershipId → userId = task.userId

theorem Became.numbered (became : Became world call userId row) :
    (∃ before, world.rows.get userId = some before ∧ row.id = before.id) ∨
      row.id = world.nextId ∧ world.rows.get userId = none ∧
        ∃ right grantedBy dept, call = .add userId right grantedBy (.create dept) := by
  cases became with
  | same found => exact .inl ⟨row, found, rfl⟩
  | created is free new => exact .inr ⟨by rw [new], free, _, _, _, is⟩
  | written _ found new | removing _ found new => exact .inl ⟨_, found, by rw [new]⟩
  | noted live todo found hit id => exact .inl ⟨_, found, id⟩

theorem Begun.known (keyed : Keyed world) {held : ℕ} (found : world.calls held = some call)
    {task : Task} (begun : Begun world call task) :
    (task.membershipId < world.nextId ∧ ∀ userId row, world.rows.get userId = some row →
      row.id = task.membershipId → userId = task.userId) ∨
    task.membershipId = world.nextId ∧ ∃ right grantedBy dept,
      call = .add task.userId right grantedBy (.create dept) := by
  have row_known : ∀ {userId row}, world.rows.get userId = some row →
      row.id < world.nextId ∧ ∀ other held, world.rows.get other = some held →
        held.id = row.id → other = userId := by
    intro userId row there
    exact ⟨keyed.fresh userId row there, fun other held also same =>
      keyed.apart other userId held row also there same⟩
  cases begun with
  | had there => exact .inl (keyed.tasks held call found task there)
  | creates is => exact .inr ⟨rfl, _, _, _, is⟩
  | writes _ there | removes _ there | reads _ there => exact .inl (row_known there)

theorem calls_put {other : ℕ} {held : Call} (there : (world.put id next).calls other = some held) :
    other = id ∧ held = next ∨ other ≠ id ∧ world.calls other = some held := by
  simp only [World.put] at there
  by_cases own : other = id
  · rw [own, Function.update_self] at there
    exact .inl ⟨own, (Option.some_inj.mp there).symm⟩
  · rw [Function.update_of_ne own] at there
    exact .inr ⟨own, there⟩

theorem keyed_turn (keyed : Keyed world) (found : world.calls id = some call)
    (turn : Turn directory world outcome call next after) : Keyed (after.put id next) := by
  have grows : world.nextId ≤ after.nextId := by
    rcases turn.nextId with more | same
    · omega
    · omega
  have created : ∀ {userId right grantedBy dept},
      call = .add userId right grantedBy (.create dept) → after.nextId = world.nextId + 1 := by
    intro userId right grantedBy dept is
    exact turn.nextId.resolve_right fun same => same.2 _ _ _ _ is
  have alone : ∀ {userId row}, after.rows.get userId = some row → row.id = world.nextId →
      ∃ right grantedBy dept, call = .add userId right grantedBy (.create dept) := by
    intro userId row there same
    rcases (turn.rows there).numbered with old | new
    · obtain ⟨before, was, is⟩ := old
      have := keyed.fresh userId before was
      omega
    · exact new.2.2
  -- a row that an older id names is the member's who had it before
  have older : ∀ {userId row}, after.rows.get userId = some row → row.id < world.nextId →
      ∃ before, world.rows.get userId = some before ∧ before.id = row.id := by
    intro userId row there less
    rcases (turn.rows there).numbered with old | new
    · obtain ⟨before, was, is⟩ := old
      exact ⟨before, was, is.symm⟩
    · omega
  refine ⟨?_, ?_, ?_⟩
  · intro userId row there
    change row.id < after.nextId
    rcases (turn.rows there).numbered with old | new
    · obtain ⟨before, was, is⟩ := old
      have := keyed.fresh userId before was
      omega
    · obtain ⟨is, _, _, _, _, made⟩ := new
      rw [created made]
      omega
  · intro userId other row held one two same
    rcases (turn.rows one).numbered with old | new
    · obtain ⟨before, was, is⟩ := old
      have less := keyed.fresh userId before was
      obtain ⟨also, there, match_⟩ := older two (by omega)
      exact keyed.apart userId other before also was there (by omega)
    · obtain ⟨is, _, _, _, _, made⟩ := new
      obtain ⟨_, _, _, also⟩ := alone two (by omega)
      cases made.symm.trans also
      rfl
  · intro other held there task inside
    change task.membershipId < after.nextId ∧ _
    have known : (task.membershipId < world.nextId ∧ ∀ userId row,
        world.rows.get userId = some row → row.id = task.membershipId → userId = task.userId) ∨
        task.membershipId = world.nextId ∧ ∃ right grantedBy dept,
          call = .add task.userId right grantedBy (.create dept) := by
      rcases calls_put there with own | others
      · rw [own.2] at inside
        exact (turn.tasks inside).known keyed found
      · exact .inl (keyed.tasks other held (turn.calls ▸ others.2) task inside)
    rcases known with old | new
    · refine ⟨by omega, ?_⟩
      intro userId row there same
      obtain ⟨before, was, is⟩ := older there (by omega)
      exact old.2 userId before was (by omega)
    · obtain ⟨is, _, _, _, made⟩ := new
      refine ⟨by rw [created made]; omega, ?_⟩
      intro userId row there same
      obtain ⟨_, _, _, also⟩ := alone there (by omega)
      cases made.symm.trans also
      rfl

theorem keyed_new (department : Department) (groups : Group → List Account) :
    Keyed (World.new department groups) := by
  refine ⟨?_, ?_, ?_⟩
  · intro userId row there
    cases there
  · intro userId other row held there
    cases there
  · intro id call there
    cases there

theorem shaped_new (department : Department) (groups : Group → List Account) :
    Shaped directory (World.new department groups) := by
  intro id call work there
  cases there

theorem keyed_same (keyed : Keyed world) (same : Same world after) : Keyed after := by
  obtain ⟨rows, _, _, calls, nextId⟩ := same
  refine ⟨?_, ?_, ?_⟩
  · rw [rows, nextId]
    exact keyed.fresh
  · rw [rows]
    exact keyed.apart
  · rw [rows, nextId, calls]
    exact keyed.tasks

theorem keyed_idle (keyed : Keyed world) (idle : next.Idle) : Keyed (world.put id next) := by
  refine ⟨keyed.fresh, keyed.apart, ?_⟩
  intro other held there task inside
  rcases calls_put there with own | others
  · rw [own.2, idle.tasks] at inside
    cases inside
  · exact keyed.tasks other held others.2 task inside

theorem keyed_step (keyed : Keyed world) (event : Event) : Keyed (world.step directory event) := by
  have did := step_did directory world event
  generalize world.step directory event = after at did ⊢
  cases did with
  | quiet same => exact keyed_same keyed same
  | idle same idle => exact keyed_idle (keyed_same keyed same) idle
  | turn is found turn => exact keyed_turn keyed found turn

theorem shaped_step (shaped : Shaped directory world) (event : Event) :
    Shaped directory (world.step directory event) := by
  have did := step_did directory world event
  generalize world.step directory event = after at did ⊢
  cases did with
  | quiet same =>
    intro id call work there live
    exact shaped id call work (same.calls ▸ there) live
  | idle same idle =>
    intro other held work there live
    rcases calls_put there with own | others
    · rw [own.2, idle.live] at live
      cases live
    · exact shaped other held work (same.calls ▸ others.2) live
  | @turn id _ call _ _ is found turn =>
    intro other held work there live
    rcases calls_put there with own | others
    · rw [own.2] at live
      exact turn.shaped (fun work => shaped id call work found) live
    · exact shaped other held work (turn.calls ▸ others.2) live

end Droplet.Departments
