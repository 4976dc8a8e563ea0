import Droplet.Departments.InGroups
import Droplet.Departments.Managers

/-! A tick that meets no failure, and what it leaves: every row synced, and in each group exactly the members
whose right is for it. -/

namespace Droplet.Departments

variable {directory : Directory} {world after : World} {id : ℕ}

/-- So many steps of one call, none of them failing, lead there. -/
def Goes (directory : Directory) (id : ℕ) (world after : World) : Prop :=
  ∃ steps, Stepping.run (World.step directory) world (List.replicate steps (.step id .ok)) = after

theorem Goes.refl (world : World) : Goes directory id world world := ⟨0, rfl⟩

theorem Goes.trans {between : World} (first : Goes directory id world between)
    (second : Goes directory id between after) : Goes directory id world after := by
  obtain ⟨some, rfl⟩ := first
  obtain ⟨more, rfl⟩ := second
  exact ⟨some + more, by rw [List.replicate_add, Stepping.run_append]⟩

@[simp] theorem put_put (world : World) (id : ℕ) (call next : Call) :
    (world.put id call).put id next = world.put id next := by
  simp [World.put]

theorem Goes.tick {stage : TickStage} (is : (world.put id (.tick stage)).tickStep directory id .ok stage =
    after) : Goes directory id (world.put id (.tick stage)) after := by
  refine ⟨1, ?_⟩
  rw [← is]
  simp [Stepping.run, World.step, World.act, World.put]

theorem goes_expected (active : world.department.state = .active) (shared : world.department.kind ≠ .HOUSEHOLD) :
    Goes directory id (world.put id (.tick .start)) (world.put id (.tick .expected)) := by
  have start : Goes directory id (world.put id (.tick .start)) (world.put id (.tick .provision)) := by
    refine .tick ?_
    simp only [World.tickStep, put_put]
    rw [if_pos ⟨active, shared⟩]
  have provision : Goes directory id (world.put id (.tick .provision))
      ((world.setState .provisioning).put id (.tick .provisioned)) := by
    refine .tick ?_
    exact put_put (world.setState .provisioning) id _ _
  have provisioned : Goes directory id ((world.setState .provisioning).put id (.tick .provisioned))
      (world.put id (.tick .readState)) := by
    refine .tick ?_
    have same : (world.setState .provisioning).setState .active = world := by
      rw [World.setState, World.setState, ← active]
    rw [← same]
    exact put_put ((world.setState .provisioning).setState .active) id _ _
  have readState : Goes directory id (world.put id (.tick .readState)) (world.put id (.tick .expected)) := by
    have still : (world.put id (.tick .readState)).department.state = .active := active
    refine .tick ?_
    simp only [World.tickStep, put_put]
    rw [if_pos still]
  exact start.trans (provision.trans (provisioned.trans readState))

/-- The same rows and the same department, and in the groups who was there and may be. -/
structure Drifts (world after : World) (may : Group → Account → Prop) : Prop where
  rows : after.rows = world.rows
  department : after.department = world.department
  groups : ∀ group account,
    account ∈ after.groups group ↔ account ∈ world.groups group ∧ may group account

theorem goes_purging (directory : Directory) (id : ℕ) (group : Group) (rest : List Group) (expected : Group → List Account)
    (drifted : List Account) (world : World) :
    ∃ after, Goes directory id (world.put id (.tick (.purging group rest expected drifted)))
      (after.put id (.tick (.listing expected rest))) ∧
      Drifts world after fun whose account => whose = group → account ∉ drifted := by
  induction drifted generalizing world with
  | nil => exact ⟨world, .refl _, rfl, rfl, by simp⟩
  | cons member drifted ih =>
    obtain ⟨after, goes, rows, department, groups⟩ := ih (world.ncRemoveUserFromGroup member group)
    refine ⟨after, Goes.trans (.tick ?_) goes, rows, department, ?_⟩
    · exact put_put (world.ncRemoveUserFromGroup member group) id _ _
    · intro whose account
      rw [groups, mem_removed, List.mem_cons]
      tauto

theorem goes_list (directory : Directory) (id : ℕ) (group : Group) (rest : List Group) (expected : Group → List Account) (world : World) :
    ∃ after, Goes directory id (world.put id (.tick (.list group rest expected)))
      (after.put id (.tick (.listing expected rest))) ∧
      Drifts world after fun whose account => whose = group → account ∈ expected group := by
  obtain ⟨after, goes, rows, department, groups⟩ := goes_purging directory id group rest expected
    ((world.groups group).filter fun member => member ∉ expected group) world
  refine ⟨after, Goes.trans (.tick ?_) goes, rows, department, ?_⟩
  · exact put_put world id _ _
  · intro whose account
    rw [groups]
    by_cases same : whose = group
    · subst same
      simp
      tauto
    · simp [same]

theorem goes_rows (directory : Directory) (id : ℕ) (known : ∀ group, world.department.known group = true) :
    ∃ after, Goes directory id (world.put id (.tick .expected)) (after.put id (.tick .rows)) ∧
      Drifts world after fun group account => account ∈ world.expectedIn directory group := by
  have both : [Group.rw, .ro].filter world.department.known = [.rw, .ro] := by
    simp [known]
  obtain ⟨writers, first, rows, department, groups⟩ := goes_list directory id .rw [.ro] (world.expectedIn directory) world
  obtain ⟨readers, second, rows', department', groups'⟩ := goes_list directory id .ro [] (world.expectedIn directory) writers
  refine ⟨readers, Goes.trans (.tick ?_) (first.trans second), rows'.trans rows,
    department'.trans department, ?_⟩
  · have listing : (world.put id (.tick .expected)).tickStep directory id .ok .expected =
        world.put id (.tick (.listing (world.expectedIn directory)
          ([Group.rw, .ro].filter world.department.known))) := put_put world id _ _
    rw [listing, both]
    rfl
  · intro group account
    rw [groups', groups]
    cases group <;> simp

/-- What a sweep has still to do, and what it has made of the rest. -/
structure Sweeping (directory : Directory) (world : World) (rest : List MembershipSweepRow) : Prop where
  kind : world.department.kind ≠ .HOUSEHOLD
  active : world.department.active = true
  apart : ∀ userId other row held, world.rows.get userId = some row → world.rows.get other = some held →
    row.id = held.id → userId = other
  accounts : ∀ userId row, world.rows.get userId = some row →
    (directory.nextcloudUsername userId).isSome = true
  distinct : (rest.map MembershipSweepRow.userId).Nodup
  read : ∀ row ∈ rest, ∃ held, world.rows.get row.userId = some held ∧ held.syncState.isSwept = true ∧
    row = ⟨held.id, row.userId, held.right, held.syncState⟩
  synced : ∀ userId row, world.rows.get userId = some row → row.syncState = .synced ∨
    userId ∈ rest.map MembershipSweepRow.userId
  groups : ∀ group account, account ∈ world.groups group ↔ ∃ userId row,
    world.rows.get userId = some row ∧ row.syncState = .synced ∧ row.right.group = group ∧
      directory.nextcloudUsername userId = some account

/-- A row is gone, with its member out of both groups, or synced, with its member in the right one. -/
structure Swept (world after : World) (row : MembershipSweepRow) (ncUsername : Account) : Prop where
  department : after.department = world.department
  others : ∀ userId, userId ≠ row.userId → after.rows.get userId = world.rows.get userId
  elsewhere : ∀ group account, account ≠ ncUsername →
    (account ∈ after.groups group ↔ account ∈ world.groups group)
  own : (after.rows.get row.userId = none ∧ ∀ group, ncUsername ∉ after.groups group) ∨
    ∃ now, after.rows.get row.userId = some now ∧ now.id = row.id ∧ now.syncState = .synced ∧
      ∀ group, ncUsername ∈ after.groups group ↔ now.right.group = group

variable {row : MembershipSweepRow} {ncUsername : Account} {rest : List MembershipSweepRow}

theorem sweeping_next (apart : directory.Apart) (known : directory.nextcloudUsername row.userId = some ncUsername)
    (sweeping : Sweeping directory world (row :: rest)) (swept : Swept world after row ncUsername) :
    Sweeping directory after rest := by
  obtain ⟨held, there, _, is⟩ := sweeping.read row (.head _)
  have distinct := List.nodup_cons.mp sweeping.distinct
  have others : ∀ {userId}, userId ≠ row.userId → after.rows.get userId = world.rows.get userId :=
    fun differ => swept.others _ differ
  have numbered : ∀ {userId now}, after.rows.get userId = some now →
      ∃ before, world.rows.get userId = some before ∧ now.id = before.id := by
    intro userId now found
    by_cases same : userId = row.userId
    · subst same
      rcases swept.own with gone | stays
      · rw [gone.1] at found
        cases found
      · obtain ⟨now', found', id, _⟩ := stays
        cases Option.some_inj.mp (found.symm.trans found')
        exact ⟨held, there, by rw [id, is]⟩
    · rw [others same] at found
      exact ⟨now, found, rfl⟩
  refine ⟨?_, ?_, ?_, ?_, distinct.2, ?_, ?_, ?_⟩
  · rw [swept.department]
    exact sweeping.kind
  · rw [swept.department]
    exact sweeping.active
  · intro userId other one two found also same
    obtain ⟨before, was, id⟩ := numbered found
    obtain ⟨before', was', id'⟩ := numbered also
    exact sweeping.apart userId other before before' was was' (by rw [← id, same, id'])
  · intro userId now found
    obtain ⟨before, was, _⟩ := numbered found
    exact sweeping.accounts userId before was
  · intro later inside
    rw [others fun same => distinct.1 (same ▸ List.mem_map_of_mem inside)]
    exact sweeping.read later (.tail _ inside)
  · intro userId now found
    by_cases same : userId = row.userId
    · subst same
      rcases swept.own with gone | stays
      · rw [gone.1] at found
        cases found
      · obtain ⟨now', found', _, synced, _⟩ := stays
        cases Option.some_inj.mp (found.symm.trans found')
        exact .inl synced
    · rw [others same] at found
      rcases sweeping.synced userId now found with synced | inside
      · exact .inl synced
      · exact .inr ((List.mem_cons.mp inside).resolve_left same)
  · intro group account
    by_cases own : account = ncUsername
    · subst own
      have only : ∀ {userId}, directory.nextcloudUsername userId = some account → userId = row.userId :=
        fun also => apart _ _ _ also known
      rcases swept.own with gone | stays
      · constructor
        · intro inside
          exact absurd inside (gone.2 group)
        · intro someone
          obtain ⟨userId, now, found, _, _, also⟩ := someone
          rw [only also, gone.1] at found
          cases found
      · obtain ⟨now, found, _, synced, inside⟩ := stays
        rw [inside]
        constructor
        · intro is
          exact ⟨row.userId, now, found, synced, is, known⟩
        · intro someone
          obtain ⟨userId, now', found', _, is, also⟩ := someone
          rw [only also] at found'
          cases Option.some_inj.mp (found.symm.trans found')
          exact is
    · rw [swept.elsewhere group account own, sweeping.groups]
      have someone : ∀ {userId}, directory.nextcloudUsername userId = some account →
          after.rows.get userId = world.rows.get userId := by
        intro userId also
        refine others fun same => own ?_
        rw [same, known] at also
        exact (Option.some_inj.mp also).symm
      constructor
      · intro there
        obtain ⟨userId, now, found, synced, is, also⟩ := there
        exact ⟨userId, now, (someone also).trans found, synced, is, also⟩
      · intro there
        obtain ⟨userId, now, found, synced, is, also⟩ := there
        exact ⟨userId, now, (someone also).symm.trans found, synced, is, also⟩

def World.does (work : Work) (world : World) (act : Act) : World :=
  (world.asks work.userId act).carryOut work act

theorem perform_put (world : World) (call : Call) (work : Work) (outcome : Outcome) :
    perform (world.put id call) work outcome =
      ((perform world work outcome).1.put id call, (perform world work outcome).2) := by
  have asks : ∀ act, (world.put id call).asks work.userId act = (world.asks work.userId act).put id call := by
    intro act
    cases act <;> rfl
  have does : ∀ world act, (World.put world id call).carryOut work act =
      (World.carryOut world work act).put id call := by
    intro world act
    cases act <;> rfl
  have misses : ∀ act, (world.put id call).misses work act = world.misses work act := by
    intro act
    cases act <;> rfl
  cases todo : work.todo with
  | nil => rw [perform_nil todo, perform_nil todo]
  | cons act rest =>
    simp only [perform, todo, asks, does, misses]
    cases outcome with
    | ok => cases world.misses work act <;> rfl
    | failed landed message => cases landed <;> rfl

theorem goes_push (base : Work) (rest : List MembershipSweepRow) (acts did : List Act) (world : World)
    (lands : Stepping.Along (World.does base) (fun world act => world.misses base act = false) world acts) :
    Goes directory id
      (world.put id (.tick (.pushing { base with todo := acts, did := did } rest)))
      ((Stepping.run (World.does base) world acts).put id (.tick (.next rest))) := by
  induction acts generalizing did world with
  | nil => exact .refl _
  | cons act acts ih =>
    change Goes directory id
      (world.put id (.tick (.push { base with todo := act :: acts, did := did } rest))) _
    refine Goes.trans (.tick ?_) (ih (did ++ [act]) (world.does base act) lands.2)
    have same : ∀ todo did, (world.asks base.userId act).carryOut
        { base with todo := todo, did := did } act = world.does base act := by
      intro todo did
      cases act <;> rfl
    have there : world.misses { base with todo := act :: acts, did := did } act = false := by
      rw [← lands.1]
      cases act <;> rfl
    simp only [World.tickStep, perform_put, put_put]
    simp only [perform, Outcome.lands, there, same, if_true, Bool.false_eq_true, if_false]

theorem sweepRow_removal {dept : Department} (shared : dept.kind ≠ .HOUSEHOLD)
    (active : dept.active = true) (known : directory.nextcloudUsername row.userId = some ncUsername)
    (removal : row.syncState.isRemoval = true) :
    sweepRow directory dept row = ⟨row.userId, row.id, row.intent,
      [.remove .rw ncUsername, .remove .ro ncUsername, .delete], [], false⟩ := by
  simp only [Department.active, Bool.and_eq_true, decide_eq_true_eq] at active
  simp [sweepRow, shared, removal, removalActs, known, active]

theorem sweepRow_sync {dept : Department} (shared : dept.kind ≠ .HOUSEHOLD)
    (active : dept.active = true) (known : directory.nextcloudUsername row.userId = some ncUsername)
    (sync : row.syncState.isRemoval = false) :
    sweepRow directory dept row = ⟨row.userId, row.id, row.intent,
      [.add row.right.group ncUsername, .remove row.right.group.other ncUsername,
        .mark (some row.right.mask)], [], false⟩ := by
  simp [sweepRow, shared, sync, active, known]

theorem hasRow_of_get {userId : UserId} {row : DepartmentMembership}
    (found : world.rows.get userId = some row) : world.hasRow row.id = true := by
  rw [World.hasRow, Table.findFirst_isSome]
  exact ⟨userId, row, found, by simp⟩

theorem goes_row (id : ℕ) (known : directory.nextcloudUsername row.userId = some ncUsername)
    (sweeping : Sweeping directory world (row :: rest)) :
    ∃ after, Goes directory id (world.put id (.tick (.department row rest)))
      (after.put id (.tick (.next rest))) ∧ Swept world after row ncUsername := by
  obtain ⟨held, there, _, is⟩ := sweeping.read row (.head _)
  have named : row.id = held.id := by rw [is]
  have right : row.right = held.right := by rw [is]
  have hit : world.hasRow row.id = true := named ▸ hasRow_of_get there
  have others : ∀ {userId other}, userId ≠ row.userId → world.rows.get userId = some other →
      other.id ≠ row.id := by
    intro userId other differ found same
    refine differ ?_
    exact sweeping.apart userId row.userId other held found there (same.trans named)
  have taken : ∀ work, sweepRow directory world.department row = work →
      Goes directory id (world.put id (.tick (.department row rest)))
        (world.put id (.tick (.pushing work rest))) := by
    intro work is
    rw [← is]
    exact .tick (put_put world id _ _)
  cases removal : row.syncState.isRemoval with
  | true =>
    have work := sweepRow_removal sweeping.kind sweeping.active known removal
    refine ⟨_, (taken _ work).trans (goes_push ⟨row.userId, row.id, row.intent, [], [], false⟩ rest
      [.remove .rw ncUsername, .remove .ro ncUsername, .delete] [] world ⟨rfl, rfl, ?_, trivial⟩), ?_⟩
    · change (!world.hasRow row.id) = false
      rw [hit]
      rfl
    · refine ⟨rfl, ?_, ?_, .inl ⟨?_, ?_⟩⟩
      · intro userId differ
        change (world.rows.deleteMany fun _ other => other.id = row.id).get userId = _
        rw [Table.get_deleteMany]
        cases found : world.rows.get userId with
        | none => rfl
        | some other => simp [others differ found]
      · intro group account differ
        change account ∈ ((world.ncRemoveUserFromGroup ncUsername .rw).ncRemoveUserFromGroup
          ncUsername .ro).groups group ↔ _
        simp [mem_removed, differ]
      · change (world.rows.deleteMany fun _ other => other.id = row.id).get row.userId = _
        rw [Table.get_deleteMany, there]
        simp [named]
      · intro group
        change ncUsername ∉ ((world.ncRemoveUserFromGroup ncUsername .rw).ncRemoveUserFromGroup
          ncUsername .ro).groups group
        cases group <;> simp [mem_removed]
  | false =>
    have work := sweepRow_sync sweeping.kind sweeping.active known removal
    refine ⟨_, (taken _ work).trans (goes_push ⟨row.userId, row.id, row.intent, [], [], false⟩ rest
      [.add row.right.group ncUsername, .remove row.right.group.other ncUsername,
        .mark (some row.right.mask)] [] world ⟨rfl, rfl, ?_, trivial⟩), ?_⟩
    · change (!world.hasRow row.id) = false
      rw [hit]
      rfl
    · have groups : ∀ group account, account ∈ ((world.ncAddUserToGroup ncUsername
          row.right.group).ncRemoveUserFromGroup ncUsername row.right.group.other).groups group ↔
          (account ∈ world.groups group ∨ group = row.right.group ∧ account = ncUsername) ∧
            ¬(group = row.right.group.other ∧ account = ncUsername) := by
        intro group account
        rw [mem_removed, mem_added]
      refine ⟨rfl, ?_, ?_, .inr ⟨{ held with
        syncState := .synced
        syncError := none
        ncPermissionMask := (some row.right.mask).or held.ncPermissionMask }, ?_, named.symm, rfl, ?_⟩⟩
      · intro userId differ
        change (world.rows.updateMany (fun _ other => other.id = row.id) _).get userId = _
        rw [Table.get_updateMany]
        cases found : world.rows.get userId with
        | none => rfl
        | some other => simp [others differ found]
      · intro group account differ
        refine (groups group account).trans ?_
        simp [differ]
      · change (world.rows.updateMany (fun _ other => other.id = row.id) _).get row.userId = _
        rw [Table.get_updateMany, there]
        simp [named]
      · intro group
        refine (groups group ncUsername).trans ?_
        change _ ↔ held.right.group = group
        rw [← right]
        cases row.right.group <;> cases group <;> simp [Group.other]

theorem goes_sweep (id : ℕ) (apart : directory.Apart) (rest : List MembershipSweepRow)
    (sweeping : Sweeping directory world rest) :
    ∃ after, Goes directory id (world.put id (.tick (.next rest))) (after.put id (.tick .done)) ∧
      Sweeping directory after [] := by
  induction rest generalizing world with
  | nil => exact ⟨world, .refl _, sweeping⟩
  | cons row rest ih =>
    obtain ⟨held, there, _, _⟩ := sweeping.read row (.head _)
    obtain ⟨ncUsername, known⟩ := Option.isSome_iff_exists.mp (sweeping.accounts row.userId held there)
    obtain ⟨between, goes, swept⟩ := goes_row id known sweeping
    obtain ⟨after, later, done⟩ := ih (sweeping_next apart known sweeping swept)
    exact ⟨after, goes.trans later, done⟩

/-- Every row is synced, and each group is exactly the members whose right is for it. -/
structure Converged (directory : Directory) (world : World) : Prop where
  synced : ∀ userId row, world.rows.get userId = some row → row.syncState = .synced
  groups : ∀ group account, account ∈ world.groups group ↔ ∃ userId row,
    world.rows.get userId = some row ∧ row.right.group = group ∧
      directory.nextcloudUsername userId = some account

theorem Sweeping.converged (sweeping : Sweeping directory world []) : Converged directory world := by
  have synced : ∀ userId row, world.rows.get userId = some row → row.syncState = .synced := by
    intro userId row found
    rcases sweeping.synced userId row found with synced | inside
    · exact synced
    · cases inside
  refine ⟨synced, ?_⟩
  intro group account
  rw [sweeping.groups]
  constructor
  · intro someone
    obtain ⟨userId, row, found, _, is, known⟩ := someone
    exact ⟨userId, row, found, is, known⟩
  · intro someone
    obtain ⟨userId, row, found, is, known⟩ := someone
    exact ⟨userId, row, found, synced userId row found, is, known⟩

theorem mem_expectedIn {group : Group} {account : Account} :
    account ∈ world.expectedIn directory group ↔ ∃ userId row, world.rows.get userId = some row ∧
      row.syncState = .synced ∧ row.right.group = group ∧
      directory.nextcloudUsername userId = some account := by
  rw [World.expectedIn, List.mem_filterMap]
  constructor
  · intro someone
    obtain ⟨⟨userId, row⟩, inside, known⟩ := someone
    obtain ⟨found, both⟩ := Table.mem_findMany.mp inside
    obtain ⟨synced, is⟩ := of_decide_eq_true both
    exact ⟨userId, row, found, synced, is, known⟩
  · intro someone
    obtain ⟨userId, row, found, synced, is, known⟩ := someone
    exact ⟨(userId, row), Table.mem_findMany.mpr ⟨found, decide_eq_true ⟨synced, is⟩⟩, known⟩

theorem sweptRows_distinct (world : World) : (world.sweptRows.map MembershipSweepRow.userId).Nodup := by
  rw [World.sweptRows, List.map_map]
  exact world.rows.distinct.sublist (List.filter_sublist.map _)

theorem mem_sweptRows_of {userId : UserId} {row : DepartmentMembership}
    (found : world.rows.get userId = some row) (swept : row.syncState.isSwept = true) :
    userId ∈ world.sweptRows.map MembershipSweepRow.userId := by
  rw [World.sweptRows, List.map_map]
  exact List.mem_map.mpr ⟨(userId, row), Table.mem_findMany.mpr ⟨found, swept⟩, rfl⟩

theorem tick_converges (id : ℕ) (apart : directory.Apart) (keyed : Keyed world)
    (groups : InGroups directory world) (active : world.department.active = true)
    (shared : world.department.kind ≠ .HOUSEHOLD) (accounts : ∀ userId row, world.rows.get userId = some row →
      (directory.nextcloudUsername userId).isSome = true) :
    ∃ after, Goes directory id (world.put id (.tick .start)) (after.put id (.tick .done)) ∧
      Converged directory after := by
  have state : world.department.state = .active ∧ ∀ group, world.department.known group = true := by
    simp only [Department.active, Bool.and_eq_true, decide_eq_true_eq] at active
    refine ⟨active.1.1, ?_⟩
    intro group
    cases group
    · exact active.1.2
    · exact active.2
  obtain ⟨drifted, goes, rows, department, drifts⟩ :=
    goes_rows directory id state.2
  have sweeping : Sweeping directory drifted drifted.sweptRows := by
    refine ⟨?_, ?_, ?_, ?_, sweptRows_distinct drifted, ?_, ?_, ?_⟩
    · rw [department]
      exact shared
    · rw [department]
      exact active
    · rw [rows]
      exact keyed.apart
    · rw [rows]
      exact accounts
    · intro row inside
      exact mem_sweptRows inside
    · intro userId row found
      cases synced : row.syncState with
      | synced => exact .inl rfl
      | _ => exact .inr (mem_sweptRows_of found (by rw [synced]; rfl))
    · intro group account
      rw [drifts, mem_expectedIn, rows]
      refine ⟨fun both => both.2, ?_⟩
      intro someone
      refine ⟨?_, someone⟩
      obtain ⟨userId, row, found, synced, is, known⟩ := someone
      exact is ▸ groups.synced userId row account found synced known
  obtain ⟨after, later, done⟩ := goes_sweep id apart drifted.sweptRows sweeping
  have read : Goes directory id (drifted.put id (.tick .rows))
      (drifted.put id (.tick (.next drifted.sweptRows))) := .tick (put_put drifted id _ _)
  exact ⟨after, (goes_expected state.1 shared).trans (goes.trans (read.trans later)), done.converged⟩

/-- As long as every step is in order, the next tick that meets no failure brings the groups to the rows, and
a person whose downgrade has reached Nextcloud is not in the writers' group while it lasts. -/
theorem access_follows_the_rows (apart : directory.Apart) (department : Department)
    (groups : Group → List Account) (events : List Event)
    (ordered : Stepping.Along (World.step directory) (World.Ordered directory)
      (World.new department groups) events) :
    (∀ id, (World.after directory department groups events).calls id = none →
      (World.after directory department groups events).department.active = true →
      (World.after directory department groups events).department.kind ≠ .HOUSEHOLD →
      (∀ userId row, (World.after directory department groups events).rows.get userId = some row →
        (directory.nextcloudUsername userId).isSome = true) →
      ∃ steps, (World.after directory department groups (events ++ .tick id :: goes id steps)).calls id =
          some (.tick .done) ∧
        Converged directory (World.after directory department groups (events ++ .tick id :: goes id steps))) ∧
    ∀ id call work account,
      (World.after directory department groups events).calls id = some call → call.live = some work →
      work.downgrade = true → work.did.any Act.isCall = true →
      directory.nextcloudUsername work.userId = some account →
      account ∉ (World.after directory department groups events).groups .rw := by
  have sound := sound_run apart department groups ordered
  refine ⟨?_, ?_⟩
  · intro id free active shared accounts
    obtain ⟨after, goes, converged⟩ :=
      tick_converges id apart sound.keyed sound.groups active shared accounts
    obtain ⟨steps, is⟩ := goes
    refine ⟨steps, ?_⟩
    have begun : (World.after directory department groups events).step directory (.tick id) =
        (World.after directory department groups events).put id (.tick .start) := by
      rw [World.step, World.begins, free]
      rfl
    rw [World.after, Stepping.run_append, Stepping.run_cons]
    change ((Stepping.run (World.step directory) ((World.after directory department groups events).step
      directory (.tick id)) _).calls id = _) ∧ Converged directory (Stepping.run (World.step directory)
      ((World.after directory department groups events).step directory (.tick id)) _)
    rw [begun, Droplet.Departments.goes, is]
    exact ⟨by simp [World.put], converged.synced, converged.groups⟩
  · intro id call work account there live down reached known
    have fair := sound.fair id call work there live
    rcases fair.first down account known with out | quiet
    · exact sound.groups.down id call work account there live down known out
    · obtain ⟨act, inside, calls⟩ := List.any_eq_true.mp reached
      rw [quiet.1 act inside] at calls
      cases calls

/-- The way down is overtaken by the way up, and each marks the row. -/
def crossedRights : List Event :=
  [.add 0 1 .contributor 0] ++ goes 0 6 ++ [.update 1 1 .reader] ++ goes 1 3 ++ [.update 2 1 .contributor] ++
    goes 2 6 ++ goes 1 3

theorem crossed_rights_lose_access :
    (World.after plainDirectory plainDepartment (fun _ => [])
        (crossedRights ++ .tick 3 :: goes 3 9)).calls 3 = some (.tick .done) ∧
      ¬ Converged plainDirectory (World.after plainDirectory plainDepartment (fun _ => [])
        (crossedRights ++ .tick 3 :: goes 3 9)) := by
  refine ⟨rfl, ?_⟩
  intro converged
  have row : (World.after plainDirectory plainDepartment (fun _ => [])
      (crossedRights ++ .tick 3 :: goes 3 9)).rows.get 1 =
        some ⟨0, .contributor, .synced, none, some MASK_RO, 0⟩ := by decide
  have empty : (World.after plainDirectory plainDepartment (fun _ => [])
      (crossedRights ++ .tick 3 :: goes 3 9)).groups .rw = [] := by decide
  have inside := (converged.groups .rw 1).mpr ⟨1, _, row, rfl, rfl⟩
  rw [empty] at inside
  cases inside

def Call.purges : Call → Bool
  | .tick (.purge _ _ _ _ _) => true
  | _ => false

/-- Nothing is committed, and nobody taken out by the drift pass. -/
def Call.still (call : Call) : Bool := call.changes.isNone && !call.purges

theorem ordered_of_still {outcome : Outcome} (still : (world.calls id).all Call.still = true) :
    world.Ordered directory (.step id outcome) := by
  intro call found
  rw [found, Option.all_some, Call.still, Bool.and_eq_true, Option.isNone_iff_eq_none] at still
  obtain ⟨unchanged, stays⟩ := still
  refine ⟨?_, ?_, ?_⟩
  · intro userId changes
    rw [unchanged] at changes
    cases changes
  · intro userId newRight dept oldRight is
    rw [is] at unchanged
    cases unchanged
  · intro group member drifted rest expected is
    rw [is] at stays
    cases stays

theorem ordered_of_first {outcome : Outcome}
    (adds : (world.calls id).all (fun call => call matches .add _ _ _ _) = true)
    (quiet : ∀ other, (world.calls other).all (fun call => call.tasks.isEmpty) = true) :
    world.Ordered directory (.step id outcome) := by
  intro call found
  rw [found, Option.all_some] at adds
  refine ⟨?_, ?_, ?_⟩
  · intro userId _ other held there task inside
    have none := quiet other
    rw [there, Option.all_some, List.isEmpty_iff] at none
    rw [none] at inside
    cases inside
  · intro userId newRight dept oldRight is
    rw [is] at adds
    cases adds
  · intro group member drifted rest expected is
    rw [is] at adds
    cases adds

/-- The row is written, and Nextcloud cannot be reached. -/
def failedPush : List Event :=
  [.add 0 1 .contributor 0] ++ goes 0 4 ++ [.step 0 (.failed false "offline"), .step 0 .ok]

theorem failed_push_is_made_up :
    (World.after plainDirectory plainDepartment (fun _ => []) failedPush).groups .rw = [] ∧
      ∃ steps, Converged plainDirectory (World.after plainDirectory plainDepartment (fun _ => [])
        (failedPush ++ .tick 1 :: goes 1 steps)) := by
  have still : ∀ {world : World} {id : ℕ} {outcome : Outcome}, (world.calls id).all Call.still = true →
      world.Ordered plainDirectory (.step id outcome) := ordered_of_still
  have apart : plainDirectory.Apart := by
    intro userId other account known also
    exact Option.some_inj.mp (known.trans also.symm)
  have ordered : Stepping.Along (World.step plainDirectory) (World.Ordered plainDirectory)
      (World.new plainDepartment fun _ => []) failedPush := by
    simp only [failedPush, goes, List.replicate, List.cons_append, List.nil_append, Stepping.Along]
    refine ⟨trivial, still (by decide), still (by decide), still (by decide),
      ordered_of_first (by decide) ?_, still (by decide), still (by decide), trivial⟩
    intro other
    rcases other with _ | other
    · rfl
    · rfl
  have converges := (access_follows_the_rows apart plainDepartment (fun _ => []) failedPush ordered).1 1
    (by decide) (by decide) (by decide) (fun _ _ _ => rfl)
  obtain ⟨steps, _, converged⟩ := converges
  exact ⟨by decide, steps, converged⟩

end Droplet.Departments
