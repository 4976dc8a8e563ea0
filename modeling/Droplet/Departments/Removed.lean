import Droplet.Departments.Changes
import Droplet.Departments.Managers

/-! When a removed member stays out: no push or sweep of theirs may be on its way when the removal is
committed, and no right of theirs may be changed until the row is gone. -/

namespace Droplet.Departments

open Histories

variable {directory : Directory} {world after : World} {id : ℕ} {outcome : Outcome} {call next : Call}

/-- What a note says of whether a member is removed. -/
def Note.fate (userId : UserId) : Note → Option Bool
  | .added whose => if whose = userId then some false else none
  | .removed whose => if whose = userId then some true else none
  | .asked _ _ => none

/-- The last that was committed of the member is a removal. -/
def removedIn (userId : UserId) (log : List Note) : Bool := (latest (Note.fate userId) log).getD false

/-- Nextcloud is asked to add no one who is removed. -/
def Asked (earlier : List Note) : Note → Prop
  | .asked userId _ => removedIn userId earlier = false
  | _ => True

/-- A removal is committed when nothing that gives the person a group is on its way, and a right is
changed only of a row that is not on its way out. -/
structure World.Leaves (world : World) (call : Call) : Prop where
  alone : ∀ userId dept right, call = .remove userId (.commit dept right) →
    ∀ other held, world.calls other = some held → ∀ task ∈ held.tasks, task.userId = userId →
      task.intent.isSync = false
  kept : ∀ userId newRight dept oldRight, call = .update userId newRight (.commit dept oldRight) →
    ∀ row, world.rows.get userId = some row → row.syncState.isRemoval = false

def World.Settled (world : World) : Event → Prop
  | .step id _ => ∀ call, world.calls id = some call → world.Leaves call
  | _ => True

/-- Who is removed has no row but one on its way out, and no push of theirs would bring them back. -/
structure Gone (world : World) : Prop where
  rows : ∀ userId row, removedIn userId world.log = true → world.rows.get userId = some row →
    row.syncState.isRemoval = true
  tasks : ∀ id call, world.calls id = some call → ∀ task ∈ call.tasks, task.intent.isSync = true →
    removedIn task.userId world.log = false
  asked : Each Asked world.log

theorem removedIn_append (userId : UserId) (log : List Note) (note : Note) :
    removedIn userId (log ++ [note]) = (note.fate userId).getD (removedIn userId log) := by
  rw [removedIn, latest_append]
  cases note.fate userId <;> rfl

theorem noted_removal {work : Work} {act : Act} {rest : List Act} {userId : UserId}
    {before row : DepartmentMembership} (gone : Gone world) (keyed : Keyed world)
    (shaped : Shaped directory world) (found : world.calls id = some call)
    (live : call.live = some work) (todo : work.todo = act :: rest)
    (removed : removedIn userId world.log = true) (there : world.rows.get userId = some before)
    (hit : before.id = work.membershipId) (state : (∃ mask, act = .mark mask) ∧ row.syncState = .synced ∨
      ∃ state message, act = .note state message ∧ row.syncState = state.getD before.syncState) :
    row.syncState.isRemoval = true := by
  have task := mem_tasks_of_live live
  have whose : userId = work.userId := (keyed.tasks id call found _ task).2 userId before there hit
  have removal : work.intent.isSync = false := by
    rw [Bool.eq_false_iff]
    intro sync
    have back := gone.tasks id call found _ task sync
    rw [whose] at removed
    exact Bool.false_ne_true (back.symm.trans removed)
  have fits := shaped id call work found live act (todo ▸ .head _)
  rcases state with marked | noted
  · obtain ⟨⟨mask, rfl⟩, _⟩ := marked
    exact absurd (removal.symm.trans fits) Bool.false_ne_true
  · obtain ⟨state, message, rfl, is⟩ := noted
    have failure : state = work.intent.failure := fits
    rw [is, failure]
    cases intent : work.intent with
    | sync right =>
      rw [intent] at removal
      cases removal
    | removal swept =>
      cases swept with
      | true => rfl
      | false => exact gone.rows userId before removed there

theorem asked_sync {work : Work} {group : Group} {account : Account} {rest : List Act}
    (shaped : work.Shaped directory) (todo : work.todo = .add group account :: rest) :
    work.intent.isSync = true := by
  obtain ⟨_, right, is, _⟩ := shaped (.add group account) (todo ▸ .head _)
  rw [is]
  rfl

theorem perform_removedIn (userId : UserId) (world : World) (work : Work) (outcome : Outcome) :
    removedIn userId (perform world work outcome).1.log = removedIn userId world.log := by
  have asks : ∀ act, removedIn userId (world.asks work.userId act).log = removedIn userId world.log := by
    intro act
    cases act with
    | add group account => exact removedIn_append userId world.log _
    | _ => rfl
  cases todo : work.todo with
  | nil => rw [perform_nil todo]
  | cons act rest =>
    rcases perform_world todo outcome with landed | lost
    · rw [landed, (carryOut_asks world work act).2.2.1, asks]
    · rw [lost, asks]

theorem gone_rows (gone : Gone world) (keyed : Keyed world) (shaped : Shaped directory world)
    (found : world.calls id = some call) (turn : Turn directory world outcome call next after)
    (leaves : world.Leaves call) {userId : UserId} {row : DepartmentMembership}
    (removed : removedIn userId after.log = true) (there : after.rows.get userId = some row) :
    row.syncState.isRemoval = true := by
  cases turn with
  | @creates target right grantedBy dept _ _ makes =>
    obtain ⟨rows, created, rfl⟩ := Option.map_eq_some_iff.mp makes
    change removedIn userId (world.log ++ [.added target]) = true at removed
    change rows.get userId = some row at there
    rw [removedIn_append, Note.fate] at removed
    by_cases same : target = userId
    · rw [if_pos same] at removed
      cases removed
    · rw [if_neg same] at removed
      rw [(Table.create_some created).2, if_neg fun own => same own.symm] at there
      exact gone.rows userId row removed there
  | @writes target oldRight newRight dept held =>
    rcases get_update there with same | hit
    · exact gone.rows userId row removed same.1
    · obtain ⟨before, was, hit, _⟩ := hit
      cases of_decide_eq_true hit
      have out := gone.rows userId before removed was
      rw [leaves.kept userId newRight dept oldRight rfl before was] at out
      cases out
  | @removes target right dept held =>
    change removedIn userId (world.log ++ [.removed target]) = true at removed
    rcases get_update there with same | hit
    · rw [removedIn_append, Note.fate, if_neg fun own => of_decide_eq_false same.2 own.symm] at removed
      exact gone.rows userId row removed same.1
    · obtain ⟨before, _, _, is⟩ := hit
      rw [is]
      rfl
  | @performs _ _ work live =>
    rw [perform_removedIn] at removed
    rcases perform_rows world work outcome with same | acted
    · exact gone.rows userId row removed (same ▸ there)
    · obtain ⟨act, rest, todo, rows⟩ := acted
      rw [rows] at there
      cases carryOut_rows live todo there with
      | same was => exact gone.rows userId row removed was
      | noted live' todo' was hit id right state =>
        exact noted_removal gone keyed shaped found live' todo' removed was hit state
      | created is | written is | removing is =>
        rw [is] at live
        cases live
  | _ => exact gone.rows userId row removed there

theorem turn_fate (turn : Turn directory world outcome call next after) {userId : UserId}
    (back : removedIn userId world.log = false) :
    removedIn userId after.log = false ∨ ∃ dept right, call = .remove userId (.commit dept right) := by
  obtain ⟨notes, log, wrote⟩ := turn.log
  rw [log]
  cases wrote with
  | nothing =>
    rw [List.append_nil]
    exact .inl back
  | added is =>
    rw [removedIn_append, Note.fate]
    split
    · exact .inl rfl
    · exact .inl back
  | removed is =>
    rw [removedIn_append, Note.fate]
    split
    next same => exact .inr ⟨_, _, same ▸ is⟩
    next => exact .inl back
  | asked live todo =>
    rw [removedIn_append]
    exact .inl back

section

variable (gone : Gone world)
include gone

theorem gone_tasks (found : world.calls id = some call)
    (turn : Turn directory world outcome call next after) (leaves : world.Leaves call) :
    ∀ other held, (after.put id next).calls other = some held → ∀ task ∈ held.tasks,
      task.intent.isSync = true → removedIn task.userId after.log = false := by
  intro other held there task inside sync
  have keeps : ∀ other held, world.calls other = some held → task ∈ held.tasks →
      removedIn task.userId after.log = false := by
    intro other held there inside
    rcases turn_fate turn (gone.tasks other held there task inside sync) with back | commits
    · exact back
    · obtain ⟨dept, right, is⟩ := commits
      rw [leaves.alone task.userId dept right is other held there task inside rfl] at sync
      cases sync
  have fresh : ∀ row, world.rows.get task.userId = some row → row.syncState.isRemoval = false →
      removedIn task.userId world.log = false := by
    intro row was stays
    rw [Bool.eq_false_iff]
    intro removed
    rw [gone.rows task.userId row removed was] at stays
    cases stays
  rcases calls_put there with own | others
  · rw [own.2] at inside
    cases turn.tasks inside with
    | had inside => exact keeps id call found inside
    | @creates userId grantedBy right dept is =>
      subst is
      cases turn with
      | creates makes =>
        obtain ⟨rows, _, rfl⟩ := Option.map_eq_some_iff.mp makes
        exact (removedIn_append userId world.log (.added userId)).trans (by rw [Note.fate, if_pos rfl]; rfl)
      | counts counting => cases counting
      | performs live => cases live
    | writes is was =>
      rcases turn_fate turn (fresh _ was (leaves.kept _ _ _ _ is _ was)) with back | commits
      · exact back
      · obtain ⟨dept, right, also⟩ := commits
        cases is.symm.trans also
    | removes is was => cases sync
    | @reads userId row is was swept =>
      have stays : row.syncState.isRemoval = false := by
        cases removal : row.syncState.isRemoval with
        | false => rfl
        | true =>
          simp only [MembershipSweepRow.task, MembershipSweepRow.intent, if_pos removal] at sync
          cases sync
      rcases turn_fate turn (fresh row was stays) with back | commits
      · exact back
      · obtain ⟨dept, right, also⟩ := commits
        cases is.symm.trans also
  · exact keeps other held (turn.calls ▸ others.2) inside

theorem gone_turn (keyed : Keyed world) (shaped : Shaped directory world)
    (found : world.calls id = some call) (turn : Turn directory world outcome call next after)
    (leaves : world.Leaves call) : Gone (after.put id next) := by
  refine ⟨fun _ _ => gone_rows gone keyed shaped found turn leaves, gone_tasks gone found turn leaves, ?_⟩
  obtain ⟨notes, log, wrote⟩ := turn.log
  change Each Asked after.log
  rw [log]
  cases wrote with
  | nothing =>
    rw [List.append_nil]
    exact gone.asked
  | added | removed => exact gone.asked.append trivial
  | @asked work group account rest live todo =>
    refine gone.asked.append ?_
    exact gone.tasks id call found _ (mem_tasks_of_live live)
      (asked_sync (shaped id call work found live) todo)

theorem gone_same (same : Same world after) : Gone after := by
  obtain ⟨rows, _, log, calls, _⟩ := same
  refine ⟨?_, ?_, ?_⟩
  · rw [rows, log]
    exact gone.rows
  · rw [calls, log]
    exact gone.tasks
  · rw [log]
    exact gone.asked

theorem gone_idle (idle : next.Idle) : Gone (world.put id next) := by
  refine ⟨gone.rows, ?_, gone.asked⟩
  intro other held there task inside
  rcases calls_put there with own | others
  · rw [own.2, idle.tasks] at inside
    cases inside
  · exact gone.tasks other held others.2 task inside

theorem gone_step (keyed : Keyed world) (shaped : Shaped directory world)
    (event : Event) (settled : world.Settled event) : Gone (world.step directory event) := by
  have did := step_did directory world event
  generalize world.step directory event = after at did ⊢
  cases did with
  | quiet same => exact gone_same gone same
  | idle same idle => exact gone_idle (gone_same gone same) idle
  | turn is found turn =>
    subst is
    exact gone_turn gone keyed shaped found turn (settled _ found)

end

/-- As long as every step is settled, a member who was removed has no row but one on its way out, and
Nextcloud is asked to add them to no group, until they are added again. -/
theorem removed_member_stays_out (department : Department) (groups : Group → List Account)
    (events : List Event) (settled : Stepping.Along (World.step directory) World.Settled
      (World.new department groups) events) :
    (∀ userId row, removedIn userId (World.after directory department groups events).log = true →
      (World.after directory department groups events).rows.get userId = some row →
      row.syncState.isRemoval = true) ∧
    Each Asked (World.after directory department groups events).log := by
  have keeps : ∀ world event, (Gone world ∧ Keyed world ∧ Shaped directory world) →
      world.Settled event → Gone (world.step directory event) ∧
        Keyed (world.step directory event) ∧ Shaped directory (world.step directory event) := by
    intro world event both settled
    obtain ⟨gone, keyed, shaped⟩ := both
    exact ⟨gone_step gone keyed shaped event settled, keyed_step keyed event, shaped_step shaped event⟩
  have start : Gone (World.new department groups) ∧ Keyed (World.new department groups) ∧
      Shaped directory (World.new department groups) := by
    refine ⟨⟨?_, ?_, each_nil⟩, keyed_new department groups, shaped_new department groups⟩
    · intro userId row _ there
      cases there
    · intro id call there
      cases there
  have gone := (settled.keeps keeps start).1
  exact ⟨gone.rows, gone.asked⟩

/-- The person is created, removed and gone before Nextcloud is asked to add them. -/
def overtakenPush : List Event :=
  [.add 0 1 .reader 0] ++ goes 0 4 ++ [.remove 1 1] ++ goes 1 6 ++ goes 0 1

theorem overtaken_push_adds_the_removed :
    ¬ Each Asked (World.after plainDirectory plainDepartment (fun _ => []) overtakenPush).log ∧
      (World.after plainDirectory plainDepartment (fun _ => []) overtakenPush).groups .ro = [1] := by
  refine ⟨?_, by decide⟩
  intro each
  have log : (World.after plainDirectory plainDepartment (fun _ => []) overtakenPush).log =
      [.added 1, .removed 1] ++ .asked 1 .ro :: [] := by decide
  have asked : removedIn 1 [.added 1, .removed 1] = false := each _ _ _ log
  cases asked

def Call.changing : Call → Bool
  | .update _ _ (.commit _ _) | .remove _ (.commit _ _) => true
  | _ => false

theorem settled_of_plain {outcome : Outcome}
    (plain : (world.calls id).all (fun call => !call.changing) = true) :
    world.Settled (.step id outcome) := by
  intro call found
  rw [found, Option.all_some] at plain
  refine ⟨?_, ?_⟩
  · intro userId dept right is
    rw [is] at plain
    cases plain
  · intro userId newRight dept oldRight is
    rw [is] at plain
    cases plain

theorem settled_of_quiet {outcome : Outcome}
    (removes : (world.calls id).all (fun call => call matches .remove _ _) = true)
    (quiet : ∀ other, (world.calls other).all (fun call => call.tasks.isEmpty) = true) :
    world.Settled (.step id outcome) := by
  intro call found
  rw [found, Option.all_some] at removes
  refine ⟨?_, ?_⟩
  · intro userId dept right is other held there task inside
    have none := quiet other
    rw [there, Option.all_some, List.isEmpty_iff] at none
    rw [none] at inside
    cases inside
  · intro userId newRight dept oldRight is
    rw [is] at removes
    cases removes

def removedRun : List Event := [.add 0 1 .reader 0] ++ goes 0 6 ++ [.remove 1 1] ++ goes 1 6

theorem removed_run_settled : Stepping.Along (World.step plainDirectory) World.Settled
    (World.new plainDepartment fun _ => []) removedRun := by
  have plain : ∀ {world : World} {id : ℕ}, (world.calls id).all (fun call => !call.changing) = true →
      world.Settled (.step id .ok) := settled_of_plain
  simp only [removedRun, goes, List.replicate, List.cons_append, List.nil_append, Stepping.Along]
  refine ⟨trivial, plain (by decide), plain (by decide), plain (by decide),
    plain (by decide), plain (by decide), plain (by decide), trivial,
    plain (by decide), plain (by decide),
    settled_of_quiet (by decide) ?_, plain (by decide),
    plain (by decide), plain (by decide), trivial⟩
  intro other
  rcases other with _ | _ | other
  · rfl
  · rfl
  · rfl

theorem removed_run_stays_out :
    Each Asked (World.after plainDirectory plainDepartment (fun _ => []) removedRun).log ∧
      (World.after plainDirectory plainDepartment (fun _ => []) removedRun).groups .ro = [] :=
  ⟨(removed_member_stays_out plainDepartment (fun _ => []) removedRun removed_run_settled).2,
    by decide⟩

end Droplet.Departments
