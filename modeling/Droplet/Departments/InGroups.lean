import Droplet.Departments.Placed

/-! Who is in a group: the member of a row that says synced, and the one whose push has only its mark left.
And a downgrade that has begun has its member out of the writers' group. -/

namespace Droplet.Departments

variable {directory : Directory} {world after : World} {id : ℕ} {outcome : Outcome} {call next : Call}

/-- No two people have one account. -/
def Directory.Apart (directory : Directory) : Prop :=
  ∀ userId other account, directory.nextcloudUsername userId = some account →
    directory.nextcloudUsername other = some account → userId = other

/-- A push as a call plans it, and a sweep's row that could not be looked at. -/
inductive Planned (directory : Directory) : Call → Work → Prop where
  | add {call : Call} (dept : Department) (membershipId : ℕ) (userId : UserId) (right : DepartmentRight) :
      Planned directory call (pushAdd directory dept membershipId userId right)
  | transition (dept : Department) (membershipId : ℕ) (userId : UserId)
      (oldRight newRight : DepartmentRight) :
      Planned directory (.update userId newRight (.commit dept oldRight))
        (pushRightTransition directory dept membershipId userId oldRight newRight)
  | removal {call : Call} (dept : Department) (membershipId : ℕ) (userId : UserId) :
      Planned directory call (pushRemoval directory dept membershipId userId)
  | sweep {call : Call} (dept : Department) (row : MembershipSweepRow) :
      Planned directory call (sweepRow directory dept row)
  | failed {call : Call} (row : MembershipSweepRow) (message : String) :
      Planned directory call
        ⟨row.userId, row.id, row.intent, [.note row.intent.failure message], [], false⟩

theorem Turn.work (turn : Turn directory world outcome call next after) {work : Work}
    (live : next.live = some work) : Planned directory call work ∨
      ∃ before, call.live = some before ∧ work = (perform world before outcome).2 ∧
        after = (perform world before outcome).1 := by
  cases turn with
  | counts _ _ none | reads none => cases live.symm.trans none
  | creates makes follows =>
    rw [follows.only live]
    exact .inl (.add _ _ _ _)
  | writes found follows =>
    rw [follows.only live]
    exact .inl (.transition _ _ _ _ _)
  | removes found follows =>
    rw [follows.only live]
    exact .inl (.removal _ _ _)
  | performs was follows => exact .inr ⟨_, was, follows.only live, rfl⟩
  | purges idle => cases live.symm.trans idle.live
  | takes is follows =>
    rw [follows.only live]
    rcases is with rfl | failed
    · exact .inl (.sweep _ _)
    · obtain ⟨message, rfl⟩ := failed
      exact .inl (.failed _ _)

def Act.isCall : Act → Bool
  | .add _ _ | .remove _ _ => true
  | _ => false

/-- A mark is the last act of its push, and a downgrade takes the member out of the writers' group first. -/
structure Work.Fair (directory : Directory) (work : Work) : Prop where
  ends : ∀ mask, .mark mask ∉ work.todo.dropLast
  reader : work.downgrade = true → ∃ right, work.intent = .sync right ∧ right.group = .ro
  first : work.downgrade = true → ∀ account, directory.nextcloudUsername work.userId = some account →
    .remove .rw account ∈ work.did ∨ (∀ act ∈ work.did, act.isCall = false) ∧
      (work.todo.head? = some (.remove .rw account) ∨ ∀ act ∈ work.todo, act.isCall = false)

theorem removalActs_dropLast (dept : Department) (userId : UserId) (mask : Option ℕ) :
    .mark mask ∉ (removalActs directory dept userId).dropLast := by
  intro there
  have sync : (Intent.removal false).isSync = true :=
    removalActs_fit dept userId (.removal false) rfl _ (List.dropLast_subset _ there)
  cases sync

theorem planned_ends {work : Work} (planned : Planned directory call work) (mask : Option ℕ) :
    .mark mask ∉ work.todo.dropLast := by
  intro there
  cases planned with
  | add dept membershipId userId right =>
    simp only [pushAdd] at there
    split at there
    · split at there <;> simp [noAccount] at there
    · cases there
  | transition dept membershipId userId oldRight newRight =>
    simp only [pushRightTransition] at there
    split at there
    · split at there
      · cases there
      · split at there
        · cases there
        · split at there <;> simp at there
    · cases there
  | removal dept membershipId userId => exact removalActs_dropLast dept userId mask there
  | sweep dept row =>
    simp only [sweepRow] at there
    split at there
    · cases there
    · split at there
      · exact removalActs_dropLast dept row.userId mask there
      · split at there
        · split at there <;> simp [noAccount] at there
        · cases there
  | failed row message => cases there

theorem planned_fair {work : Work} (planned : Planned directory call work) : work.Fair directory := by
  have ends := planned_ends planned
  cases planned with
  | transition dept membershipId userId oldRight newRight =>
    refine ⟨ends, ?_, ?_⟩
    · intro down
      have reader := (Bool.and_eq_true_iff.mp down).2
      exact ⟨newRight, rfl, by rw [DepartmentRight.group, if_pos reader]⟩
    · intro down account known
      have writer : oldRight.isReader = false := by simpa using (Bool.and_eq_true_iff.mp down).1
      have reader := (Bool.and_eq_true_iff.mp down).2
      have known : directory.nextcloudUsername userId = some account := known
      refine .inr ⟨(by rintro _ ⟨⟩), ?_⟩
      simp only [pushRightTransition, writer, reader, known]
      split
      · exact .inl rfl
      · exact .inr (by simp)
  | _ => exact ⟨ends, (by rintro ⟨⟩), (by rintro ⟨⟩)⟩

theorem perform_fair {work : Work} (fair : work.Fair directory) (world : World) (outcome : Outcome) :
    (perform world work outcome).2.Fair directory := by
  cases todo : work.todo with
  | nil =>
    rw [perform_nil todo]
    exact fair
  | cons act rest =>
    rcases perform_work world todo outcome with failed | did
    · obtain ⟨message, failed⟩ := failed
      rw [failed]
      have quiet : ∀ other ∈ (work.fails act message).todo, other.isCall = false := by
        intro other there
        cases act with
        | note state text => cases there
        | _ =>
          cases List.mem_singleton.mp there
          rfl
      have same : (work.fails act message).downgrade = work.downgrade ∧
          (work.fails act message).intent = work.intent ∧
          (work.fails act message).userId = work.userId ∧
          (work.fails act message).did = work.did := by
        cases act <;> exact ⟨rfl, rfl, rfl, rfl⟩
      obtain ⟨downgrade, intent, userId, before⟩ := same
      refine ⟨?_, ?_, ?_⟩
      · intro mask there
        cases act <;> cases there
      · rw [downgrade, intent]
        exact fair.reader
      · intro down account known
        rw [downgrade] at down
        rw [userId] at known
        rw [before]
        rcases fair.first down account known with out | still
        · exact .inl out
        · exact .inr ⟨still.1, .inr quiet⟩
    · rw [did.2.2]
      refine ⟨?_, fair.reader, ?_⟩
      · intro mask there
        refine fair.ends mask ?_
        rw [todo]
        cases rest with
        | nil => cases there
        | cons second rest => exact .tail _ there
      · intro down account known
        rcases fair.first down account known with out | still
        · exact .inl (List.mem_append_left _ out)
        · rw [todo] at still
          obtain ⟨before, first | quiet⟩ := still
          · cases Option.some_inj.mp first
            exact .inl (List.mem_append_right _ (.head _))
          · refine .inr ⟨?_, .inr fun other there => quiet other (.tail _ there)⟩
            intro other there
            rcases List.mem_append.mp there with old | new
            · exact before other old
            · cases List.mem_singleton.mp new
              exact quiet _ (.head _)

theorem planned_placed {work : Work} (planned : Planned directory call work) (placed : work.placed)
    (sync : work.intent.isSync = true) : ∃ dept newRight oldRight,
      call = .update work.userId newRight (.commit dept oldRight) ∧ work.intent = .sync newRight ∧
      dept.active = true ∧ oldRight.isReader = newRight.isReader := by
  obtain ⟨⟨mask, marks⟩, never⟩ := placed
  cases planned with
  | add dept membershipId userId right =>
    simp only [pushAdd] at marks never
    split at marks
    next active =>
      split at marks
      next known => simp [noAccount] at marks
      next account known =>
        rw [if_pos active, known] at never
        exact absurd (.head _) (never right.group account)
    · cases marks
  | transition dept membershipId userId oldRight newRight =>
    simp only [pushRightTransition] at marks never
    split at marks
    next active =>
      rw [if_pos active] at never
      split at marks
      next same => exact ⟨dept, newRight, oldRight, rfl, rfl, active, same⟩
      next differ =>
        rw [if_neg differ] at never
        split at marks
        next known => simp [noAccount] at marks
        next account known =>
          simp only [known] at never
          split at marks
          next reader =>
            rw [if_pos reader] at never
            exact absurd (.head _) (never .rw account)
          next writer =>
            rw [if_neg writer] at never
            exact absurd (.tail _ (.head _)) (never .ro account)
    · cases marks
  | removal dept membershipId userId => cases sync
  | sweep dept row =>
    simp only [sweepRow, MembershipSweepRow.intent] at marks never sync
    split at marks
    · cases marks
    next plain =>
      rw [if_neg plain] at never
      split at marks
      next removal =>
        rw [if_pos removal] at sync
        cases sync
      next stays =>
        rw [if_neg stays] at never
        split at marks
        next active =>
          split at marks
          next known => simp [noAccount] at marks
          next account known =>
            rw [if_pos active, known] at never
            exact absurd (.head _) (never row.right.group account)
        · simp at marks
  | failed row message => simp at marks

theorem perform_placed {work : Work} (world : World) {outcome : Outcome}
    (placed : (perform world work outcome).2.placed) :
    work.placed ∨ ∃ group account rest, work.todo = .add group account :: rest ∧
      (perform world work outcome).1.groups = (world.ncAddUserToGroup account group).groups := by
  cases todo : work.todo with
  | nil =>
    rw [perform_nil todo] at placed
    exact .inl placed
  | cons act rest =>
    rcases perform_work world todo outcome with failed | did
    · obtain ⟨message, failed⟩ := failed
      rw [failed] at placed
      obtain ⟨⟨mask, marks⟩, _⟩ := placed
      cases act <;> simp [Work.fails] at marks
    · obtain ⟨_, world', work'⟩ := did
      rw [work'] at placed
      obtain ⟨⟨mask, marks⟩, never⟩ := placed
      cases act with
      | add group account => exact .inr ⟨group, account, rest, rfl, by rw [world']; rfl⟩
      | _ =>
        refine .inl ⟨⟨mask, todo ▸ .tail _ marks⟩, ?_⟩
        intro group account there
        rw [todo] at there
        rcases List.mem_cons.mp there with is | there
        · cases is
        · exact never group account there

variable {row : DepartmentMembership} {userId : UserId}

theorem stays_in (apart : directory.Apart) (stands : AllStand world) (shaped : Shaped directory world)
    (found : world.calls id = some call) (turn : Turn directory world outcome call next after) {account : Account}
    (there : world.rows.get userId = some row) (stays : row.syncState.isRemoval = false)
    (known : directory.nextcloudUsername userId = some account) (kept : ∀ drifted rest expected,
      call ≠ .tick (.purge row.right.group account drifted rest expected))
    (inside : account ∈ world.groups row.right.group) : account ∈ after.groups row.right.group := by
  rcases turn.leaves inside with still | removed | drifted
  · exact still
  · obtain ⟨work, rest, live, todo⟩ := removed
    obtain ⟨also, other⟩ := shaped.head found live todo
    have same := apart userId work.userId account known also
    have stand := stands id call found _ (mem_tasks_of_live live)
    rw [same] at there
    cases intent : work.intent with
    | sync right =>
      obtain ⟨row', there', _, group, _⟩ := (stands_sync intent).mp stand
      cases Option.some_inj.mp (there.symm.trans there')
      have is := other right intent
      rw [group] at is
      cases right <;> cases is
    | removal swept =>
      have out := ((stands_removal intent).mp stand row there).2
      rw [stays] at out
      cases out
  · obtain ⟨drifted, rest, expected, is⟩ := drifted
    exact absurd is (kept drifted rest expected)

theorem stays_out (apart : directory.Apart) (stands : AllStand world)
    (shaped : Shaped directory world) (found : world.calls id = some call)
    (turn : Turn directory world outcome call next after) {account : Account} {group : Group}
    (there : world.rows.get userId = some row) (differ : row.right.group ≠ group)
    (known : directory.nextcloudUsername userId = some account)
    (outside : account ∉ world.groups group) : account ∉ after.groups group := by
  intro inside
  rcases turn.joins inside with before | added
  · exact outside before
  · obtain ⟨work, rest, live, todo⟩ := added
    obtain ⟨also, right, intent, is⟩ := shaped.head found live todo
    have same := apart userId work.userId account known also
    obtain ⟨row', there', _, alike, _⟩ :=
      (stands_sync intent).mp (stands id call found _ (mem_tasks_of_live live))
    rw [same] at there
    cases Option.some_inj.mp (there.symm.trans there')
    exact differ (alike.trans is.symm)

structure InGroups (directory : Directory) (world : World) : Prop where
  synced : ∀ userId row account, world.rows.get userId = some row → row.syncState = .synced →
    directory.nextcloudUsername userId = some account → account ∈ world.groups row.right.group
  placed : ∀ id call work right account, world.calls id = some call → call.live = some work →
    work.intent = .sync right → work.placed →
    directory.nextcloudUsername work.userId = some account → account ∈ world.groups right.group
  down : ∀ id call work account, world.calls id = some call → call.live = some work →
    work.downgrade = true → directory.nextcloudUsername work.userId = some account →
    .remove .rw account ∈ work.did → account ∉ world.groups .rw

def AllFair (directory : Directory) (world : World) : Prop :=
  ∀ id call work, world.calls id = some call → call.live = some work → work.Fair directory

/-- What holds along an ordered run. -/
structure Sound (directory : Directory) (world : World) : Prop where
  keyed : Keyed world
  shaped : Shaped directory world
  fair : AllFair directory world
  stands : AllStand world
  groups : InGroups directory world

section
variable (apart : directory.Apart) (sound : Sound directory world) (found : world.calls id = some call)
  (orders : world.Orders directory call) (turn : Turn directory world outcome call next after)
include apart sound found orders turn

theorem synced_turn {account : Account} (there : after.rows.get userId = some row)
    (synced : row.syncState = .synced) (known : directory.nextcloudUsername userId = some account) :
    account ∈ after.groups row.right.group := by
  cases turn.rows there with
  | same was =>
    refine stays_in apart sound.stands sound.shaped found turn was (by rw [synced]; rfl) known ?_
      (sound.groups.synced userId row account was synced known)
    intro drifted rest expected is
    exact (orders.drift _ _ _ _ _ is userId known).1 row was synced rfl
  | created _ _ new | written _ _ new | removing _ _ new =>
    rw [new] at synced
    cases synced
  | @noted work act rest before live todo was hit id right state =>
    have owner := sound.keyed.owner found live was hit
    subst owner
    have fits := sound.shaped.head found live todo
    have stand := sound.stands _ call found _ (mem_tasks_of_live live)
    have never : ∀ drifted rest expected,
        call ≠ .tick (.purge row.right.group account drifted rest expected) := by
      intro drifted rest expected is
      rw [is] at live
      cases live
    rcases state with marked | noted
    · -- the mark is the last act, so the member has been added
      obtain ⟨⟨mask, rfl⟩, _⟩ := marked
      cases intent : work.intent with
      | removal swept =>
        have sync : work.intent.isSync = true := fits
        rw [intent] at sync
        cases sync
      | sync given =>
        obtain ⟨row', there', _, group, stays⟩ := (stands_sync intent).mp stand
        cases Option.some_inj.mp (was.symm.trans there')
        have last : rest = [] := by
          cases rest with
          | nil => rfl
          | cons second rest =>
            refine absurd ?_ ((sound.fair _ call work found live).ends mask)
            rw [todo]
            exact .head _
        have placed : work.placed := by
          rw [Work.placed, todo, last]
          refine ⟨⟨mask, .head _⟩, ?_⟩
          intro group account there
          cases List.mem_singleton.mp there
        have inside := sound.groups.placed _ call work given account found live intent placed known
        rw [right] at never ⊢
        rw [← group] at inside
        exact stays_in apart sound.stands sound.shaped found turn was stays known never inside
    · -- a note leaves a synced row synced only in a removal, and then the row was not
      obtain ⟨state, message, rfl, is⟩ := noted
      rw [synced, show state = work.intent.failure from fits] at is
      cases intent : work.intent with
      | sync given =>
        rw [intent] at is
        cases is
      | removal swept =>
        have out := ((stands_removal intent).mp stand before was).2
        rw [intent] at is
        cases swept with
        | true => cases is
        | false =>
          rw [← show NcSyncState.synced = before.syncState from is] at out
          cases out

theorem placed_turn {other : ℕ} {held : Call} {work : Work} {right : DepartmentRight} {account : Account}
    (there : (after.put id next).calls other = some held) (live : held.live = some work)
    (intent : work.intent = .sync right) (placed : work.placed)
    (known : directory.nextcloudUsername work.userId = some account) : account ∈ after.groups right.group := by
  -- what was placed stays
  have stays : ∀ {other : ℕ} {held : Call} {work : Work}, world.calls other = some held →
      held.live = some work → work.intent = .sync right → work.placed →
      directory.nextcloudUsername work.userId = some account → account ∈ after.groups right.group := by
    intro other held work there live intent placed known
    have inside := sound.groups.placed other held work right account there live intent placed known
    obtain ⟨row, has, _, group, stays⟩ :=
      (stands_sync intent).mp (sound.stands other held there _ (mem_tasks_of_live live))
    have group : row.right.group = right.group := group
    rw [← group] at inside ⊢
    refine stays_in apart sound.stands sound.shaped found turn has stays known ?_ inside
    intro drifted rest expected is
    exact (orders.drift _ _ _ _ _ is work.userId known).2 other held work right there live rfl intent
      placed group.symm
  rcases calls_put there with own | others
  · rw [own.2] at live
    rcases turn.work live with planned | performed
    · obtain ⟨dept, newRight, oldRight, is, intent', active, alike⟩ :=
        planned_placed planned placed (by rw [intent]; rfl)
      cases intent.symm.trans intent'
      subst is
      cases turn with
      | @writes userId oldRight newRight dept row next had =>
        obtain ⟨synced, group⟩ := orders.even _ _ _ _ rfl active alike row had
        have inside := sound.groups.synced _ row account had synced known
        rw [group] at inside
        exact inside
      | counts counting => cases counting
      | performs live => cases live
    · obtain ⟨before, was, rfl, rfl⟩ := performed
      have same := perform_task world before outcome
      have userId : (perform world before outcome).2.userId = before.userId := congrArg Task.userId same
      have purpose : (perform world before outcome).2.intent = before.intent := congrArg Task.intent same
      rw [userId] at known
      rw [purpose] at intent
      rcases perform_placed world placed with before | added
      · exact stays found was intent before known
      · obtain ⟨group, added, rest, todo, groups⟩ := added
        obtain ⟨also, given, intent', is⟩ := sound.shaped.head found was todo
        cases intent.symm.trans intent'
        cases Option.some_inj.mp (known.symm.trans also)
        rw [groups, is]
        exact mem_added.mpr (.inr ⟨rfl, rfl⟩)
  · exact stays (turn.calls ▸ others.2) live intent placed known

theorem down_turn {other : ℕ} {held : Call} {work : Work} {account : Account}
    (there : (after.put id next).calls other = some held) (live : held.live = some work)
    (down : work.downgrade = true) (known : directory.nextcloudUsername work.userId = some account)
    (out : .remove .rw account ∈ work.did) : account ∉ after.groups .rw := by
  have stays : ∀ {other : ℕ} {held : Call} {work : Work}, world.calls other = some held →
      held.live = some work → work.downgrade = true →
      directory.nextcloudUsername work.userId = some account → account ∉ world.groups .rw →
      account ∉ after.groups .rw := by
    intro other held work there live down known outside
    obtain ⟨right, intent, reader⟩ := (sound.fair other held work there live).reader down
    obtain ⟨row, has, _, group, _⟩ :=
      (stands_sync intent).mp (sound.stands other held there _ (mem_tasks_of_live live))
    refine stays_out apart sound.stands sound.shaped found turn has ?_ known outside
    rw [group, reader]
    nofun
  have earlier : ∀ {other : ℕ} {held : Call} {work : Work}, world.calls other = some held →
      held.live = some work → work.downgrade = true →
      directory.nextcloudUsername work.userId = some account → .remove .rw account ∈ work.did →
      account ∉ after.groups .rw := fun there live down known out =>
    stays there live down known (sound.groups.down _ _ _ _ there live down known out)
  rcases calls_put there with own | others
  · rw [own.2] at live
    rcases turn.work live with planned | performed
    · have none : work.did = [] := by cases planned <;> rfl
      rw [none] at out
      cases out
    · obtain ⟨before, was, rfl, is⟩ := performed
      cases todo : before.todo with
      | nil =>
        rw [perform_nil todo] at down known out
        exact earlier found was down known out
      | cons act rest =>
        rcases perform_work world todo outcome with failed | did
        · obtain ⟨message, failed⟩ := failed
          rw [failed] at down known out
          cases act <;> exact earlier found was down known out
        · obtain ⟨_, world', work'⟩ := did
          rw [work'] at down known out
          rcases List.mem_append.mp out with old | new
          · exact earlier found was down known old
          · rw [is, world', ← List.mem_singleton.mp new]
            exact fun inside => (mem_removed.mp inside).2 ⟨rfl, rfl⟩
  · exact earlier (turn.calls ▸ others.2) live down known out

theorem sound_turn : Sound directory (after.put id next) := by
  refine ⟨keyed_turn sound.keyed found turn, ?_, ?_, ?_, ?_⟩
  · intro other held work there live
    rcases calls_put there with own | others
    · rw [own.2] at live
      exact turn.shaped (fun work => sound.shaped id call work found) live
    · exact sound.shaped other held work (turn.calls ▸ others.2) live
  · intro other held work there live
    rcases calls_put there with own | others
    · rw [own.2] at live
      rcases turn.work live with planned | performed
      · exact planned_fair planned
      · obtain ⟨before, was, rfl, _⟩ := performed
        exact perform_fair (sound.fair id call before found was) world outcome
    · exact sound.fair other held work (turn.calls ▸ others.2) live
  · intro other held there task inside
    rcases calls_put there with own | others
    · rw [own.2] at inside
      have stands := stands_begun sound.stands sound.keyed sound.shaped found orders turn inside
      exact stands
    · have stands := stands_turn sound.stands sound.keyed sound.shaped found orders turn
        (turn.calls ▸ others.2) inside
      exact stands
  · exact ⟨fun _ _ _ there synced known =>
        synced_turn apart sound found orders turn there synced known,
      fun _ _ _ _ _ there live intent placed known =>
        placed_turn apart sound found orders turn there live intent placed known,
      fun _ _ _ _ there live down known out =>
        down_turn apart sound found orders turn there live down known out⟩

end

theorem sound_same (sound : Sound directory world) (same : Same world after) : Sound directory after := by
  refine ⟨keyed_same sound.keyed same, ?_, ?_, ?_, ?_⟩
  · intro id call work there
    exact sound.shaped id call work (same.calls ▸ there)
  · intro id call work there
    exact sound.fair id call work (same.calls ▸ there)
  · intro id call there task inside
    exact stands_same same.rows (sound.stands id call (same.calls ▸ there) task inside)
  · refine ⟨?_, ?_, ?_⟩
    · rw [same.rows, same.groups]
      exact sound.groups.synced
    · rw [same.calls, same.groups]
      exact sound.groups.placed
    · rw [same.calls, same.groups]
      exact sound.groups.down

theorem sound_idle (sound : Sound directory world) (idle : next.Idle) : Sound directory (world.put id next) := by
  have others : ∀ {other held work}, (world.put id next).calls other = some held →
      held.live = some work → world.calls other = some held := by
    intro other held work there live
    rcases calls_put there with own | others
    · rw [own.2, idle.live] at live
      cases live
    · exact others.2
  refine ⟨keyed_idle sound.keyed idle, ?_, ?_, ?_, ?_⟩
  · intro other held work there live
    exact sound.shaped other held work (others there live) live
  · intro other held work there live
    exact sound.fair other held work (others there live) live
  · intro other held there task inside
    rcases calls_put there with own | others
    · rw [own.2, idle.tasks] at inside
      cases inside
    · exact stands_same (show (world.put id next).rows = world.rows from rfl)
        (sound.stands other held others.2 task inside)
  · exact ⟨sound.groups.synced, fun other held work right account there live =>
        sound.groups.placed other held work right account (others there live) live,
      fun other held work account there live =>
        sound.groups.down other held work account (others there live) live⟩

theorem sound_step (apart : directory.Apart) (sound : Sound directory world) (event : Event)
    (ordered : world.Ordered directory event) : Sound directory (world.step directory event) := by
  have did := step_did directory world event
  generalize world.step directory event = after at did ⊢
  cases did with
  | quiet same => exact sound_same sound same
  | idle same idle => exact sound_idle (sound_same sound same) idle
  | turn is found turn =>
    subst is
    exact sound_turn apart sound found (ordered _ found) turn

theorem sound_run (apart : directory.Apart) (department : Department) (groups : Group → List Account)
    {events : List Event} (ordered : Stepping.Along (World.step directory) (World.Ordered directory)
      (World.new department groups) events) :
    Sound directory (World.after directory department groups events) := by
  have keeps : ∀ world event, Sound directory world → world.Ordered directory event →
      Sound directory (world.step directory event) :=
    fun world event sound => sound_step apart sound event
  refine ordered.keeps keeps ?_
  refine ⟨keyed_new department groups, shaped_new department groups, ?_, ?_, ⟨?_, ?_, ?_⟩⟩
  · intro id call work there
    cases there
  · intro id call there
    cases there
  · intro userId row account there
    cases there
  · intro id call work right account there
    cases there
  · intro id call work account there
    cases there

end Droplet.Departments
