import Droplet.Departments.Steps

/-! When a department keeps a manager: the rail against taking the last one away counts before it writes,
and counts managers who are on their way out. -/

namespace Droplet.Departments

variable (directory : Directory)

def DepartmentMembership.manages (row : DepartmentMembership) : Bool :=
  row.right = .manager && !row.syncState.isRemoval

def World.hasManager (world : World) : Bool :=
  (world.rows.findFirst fun _ row => row.manages).isSome

def World.hasOther (world : World) (userId : UserId) : Bool :=
  (world.rows.findFirst fun key row => key ≠ userId && row.manages).isSome

/-- Who is about to be a manager no longer, if they are one. -/
def Call.taking : Call → Option UserId
  | .update userId newRight (.commit _ _) => if newRight = .manager then none else some userId
  | .remove userId (.commit _ _) => some userId
  | _ => none

/-- Does the act take a row away, or put it back on its way out? -/
def Act.buries : Act → Bool
  | .delete => true
  | .note (some state) _ => state.isRemoval
  | _ => false

/-- A rail that passes counts another manager who stays. No one is taken away while a rail has counted
for someone else and not committed. A commit without a rail finds no manager. And a push or a sweep that
ends a removal finds the row still on its way out. -/
structure World.Guards (world : World) (id : ℕ) (call : Call) : Prop where
  counts : ∀ userId, call.counting = some userId → 1 < world.managerCount →
    world.hasOther userId = true
  alone : ∀ userId, call.taking = some userId → ∀ other held counted, other ≠ id →
    world.calls other = some held → held.railed = some counted → counted = userId
  unrailed : ∀ userId, call.taking = some userId → call.railed = none →
    ∀ row, world.rows.get userId = some row → row.manages = false
  buries : ∀ work act rest, call.live = some work → work.todo = act :: rest → act.buries = true →
    ∀ userId row, world.rows.get userId = some row → row.id = work.membershipId → row.manages = false

def World.Guarded (world : World) : Event → Prop
  | .step id _ => ∀ call, world.calls id = some call → world.Guards id call
  | _ => True

variable {directory} {world after : World} {id : ℕ} {outcome : Outcome}

theorem hasManager_iff :
    world.hasManager = true ↔ ∃ userId row, world.rows.get userId = some row ∧ row.manages = true :=
  Table.findFirst_isSome

variable {userId : UserId}

theorem hasOther_iff : world.hasOther userId = true ↔
    ∃ key row, world.rows.get key = some row ∧ key ≠ userId ∧ row.manages = true := by
  rw [World.hasOther, Table.findFirst_isSome]
  simp only [Bool.and_eq_true, decide_eq_true_eq]

theorem taking_railed {call : Call} {userId counted : UserId} (taken : call.taking = some userId)
    (railed : call.railed = some counted) : counted = userId := by
  unfold Call.railed at railed
  split at railed
  · rw [Call.taking] at taken
    split at taken
    · cases taken
    · exact Option.some_inj.mp (railed.symm.trans taken)
  · exact Option.some_inj.mp (railed.symm.trans taken)
  · cases railed

/-- The person still manages. -/
def Stays (after : World) (userId : UserId) : Prop :=
  ∃ row, after.rows.get userId = some row ∧ row.manages = true

variable {row : DepartmentMembership}

theorem updateRow_stays {membershipId : ℕ} {data : DepartmentMembership → DepartmentMembership}
    (found : world.rows.get userId = some row) (manages : row.manages = true)
    (keeps : row.id = membershipId → (data row).manages = true) :
    Stays (world.updateRow membershipId data) userId := by
  refine ⟨_, (Table.get_updateMany _ _).trans (by rw [found, Option.map_some]), ?_⟩
  split
  next same => exact keeps (of_decide_eq_true same)
  next => exact manages

theorem carryOut_stays {work : Work} {act : Act} (found : world.rows.get userId = some row)
    (manages : row.manages = true) (spared : act.buries = true → row.id ≠ work.membershipId) :
    Stays (world.carryOut work act) userId := by
  have right : row.right = .manager := by
    simp only [DepartmentMembership.manages, Bool.and_eq_true, decide_eq_true_eq] at manages
    exact manages.1
  cases act with
  | add | remove => exact ⟨row, found, manages⟩
  | mark mask =>
    apply updateRow_stays found manages
    intro _
    simp only [DepartmentMembership.manages, right]
    rfl
  | note state message =>
    apply updateRow_stays found manages
    intro same
    cases state with
    | none => exact manages
    | some state =>
      cases removal : state.isRemoval with
      | true => exact absurd same (spared removal)
      | false =>
        simp only [DepartmentMembership.manages, right, Option.getD_some, removal]
        rfl
  | delete =>
    refine ⟨row, (Table.get_deleteMany _).trans ?_, manages⟩
    rw [found, Option.filter_some, if_pos]
    simpa using spared rfl

theorem turn_stays {call next : Call} (turn : Turn directory world outcome call next after)
    (guards : world.Guards id call) (found : world.rows.get userId = some row)
    (manages : row.manages = true) (other : call.taking ≠ some userId) : Stays after userId := by
  cases turn with
  | creates makes =>
    obtain ⟨rows, created, rfl⟩ := Option.map_eq_some_iff.mp makes
    obtain ⟨free, get⟩ := Table.create_some created
    refine ⟨row, ?_, manages⟩
    change rows.get userId = some row
    rw [get, if_neg, found]
    intro same
    rw [same, free] at found
    cases found
  | @writes target oldRight newRight dept held =>
    refine ⟨_, (Table.get_updateMany _ _).trans (by rw [found, Option.map_some]), ?_⟩
    split
    next same =>
      have same : userId = target := of_decide_eq_true same
      by_cases kept : newRight = .manager
      · subst kept
        rfl
      · rw [Call.taking, if_neg kept, same] at other
        exact absurd rfl other
    next => exact manages
  | @removes target right dept held =>
    refine ⟨_, (Table.get_updateMany _ _).trans (by rw [found, Option.map_some]), ?_⟩
    split
    next same => exact absurd (congrArg some (of_decide_eq_true same).symm) other
    next => exact manages
  | @performs _ _ work live =>
    rcases perform_rows world work outcome with same | acted
    · exact ⟨row, same ▸ found, manages⟩
    · obtain ⟨act, rest, todo, rows⟩ := acted
      have stays : Stays (world.carryOut work act) userId := by
        apply carryOut_stays found manages
        intro buries same
        have gone := guards.buries work act rest live todo buries userId row found same
        rw [gone] at manages
        cases manages
      obtain ⟨row, found, manages⟩ := stays
      exact ⟨row, rows ▸ found, manages⟩
  | _ => exact ⟨row, found, manages⟩

/-- Whoever has been counted for leaves another manager. -/
def Covered (world : World) : Prop :=
  ∀ id call userId, world.calls id = some call → call.railed = some userId →
    world.hasOther userId = true

theorem stays_other (stays : ∀ key row, world.rows.get key = some row → row.manages = true → key ≠ userId →
      Stays after key) (other : world.hasOther userId = true) : after.hasOther userId = true := by
  obtain ⟨key, row, found, differ, manages⟩ := hasOther_iff.mp other
  obtain ⟨still, there, manages⟩ := stays key row found manages differ
  exact hasOther_iff.mpr ⟨key, still, there, differ, manages⟩

theorem same_hasOther (same : Same world after) : after.hasOther userId = world.hasOther userId := by
  rw [World.hasOther, World.hasOther, same.rows]

theorem turn_covered {call next : Call} (found : world.calls id = some call)
    (turn : Turn directory world outcome call next after) (guards : world.Guards id call)
    (covered : Covered world) : Covered (after.put id next) := by
  intro other held counted there railed
  change after.hasOther counted = true
  simp only [World.put, turn.calls] at there
  by_cases own : other = id
  · subst own
    rw [Function.update_self] at there
    cases there
    cases turn with
    | counts counting many live queued now_railed =>
      cases Option.some_inj.mp (now_railed.symm.trans railed)
      exact guards.counts _ counting many
    | creates _ follows | writes _ follows | removes _ follows | performs _ follows
    | takes _ follows => cases follows.2.symm.trans railed
    | purges idle => cases idle.railed.symm.trans railed
    | reads live queued none_railed => cases none_railed.symm.trans railed
  · rw [Function.update_of_ne own] at there
    refine stays_other ?_ (covered other held counted there railed)
    intro key row there_row manages differ
    refine turn_stays turn guards there_row manages ?_
    intro taken
    exact differ (guards.alone key taken other held counted own there railed).symm

theorem covered_step (event : Event) (guarded : world.Guarded event) (covered : Covered world) :
    Covered (world.step directory event) := by
  have did := step_did directory world event
  generalize world.step directory event = after at did ⊢
  cases did with
  | quiet same =>
    intro id call userId there railed
    rw [same_hasOther same]
    exact covered id call userId (same.calls ▸ there) railed
  | @idle id next after same idle =>
    intro other held userId there railed
    change after.hasOther userId = true
    rw [same_hasOther same]
    simp only [World.put, same.calls] at there
    by_cases own : other = id
    · subst own
      rw [Function.update_self] at there
      cases there
      cases idle.railed.symm.trans railed
    · rw [Function.update_of_ne own] at there
      exact covered other held userId there railed
  | turn is found turn =>
    subst is
    exact turn_covered found turn (guarded _ found) covered

theorem managed_step (event : Event) (guarded : world.Guarded event) (covered : Covered world)
    (managed : world.hasManager = true) : (world.step directory event).hasManager = true := by
  have did := step_did directory world event
  generalize world.step directory event = after at did ⊢
  cases did with
  | quiet same =>
    rw [World.hasManager, same.rows]
    exact managed
  | @idle id next after same idle =>
    change after.hasManager = true
    rw [World.hasManager, same.rows]
    exact managed
  | @turn id outcome call next after is found turn =>
    subst is
    change after.hasManager = true
    have guards := guarded call found
    obtain ⟨userId, row, there, manages⟩ := hasManager_iff.mp managed
    by_cases taken : call.taking = some userId
    · cases railed : call.railed with
      | none =>
        rw [guards.unrailed userId taken railed row there] at manages
        cases manages
      | some counted =>
        cases taking_railed taken railed
        obtain ⟨key, other, there, differ, manages⟩ :=
          hasOther_iff.mp (covered id call _ found railed)
        have stays := turn_stays turn guards there manages (fun same => differ
          (Option.some_inj.mp (same.symm.trans taken)))
        exact hasManager_iff.mpr ⟨key, stays⟩
    · exact hasManager_iff.mpr ⟨userId, turn_stays turn guards there manages taken⟩

/-- Once there is a manager who is not being removed there is one after every step, as long as every step
is guarded. -/
theorem department_keeps_a_manager (department : Department) (groups : Group → List Account)
    (first later : List Event) (guarded : Stepping.Along (World.step directory) World.Guarded
      (World.new department groups) (first ++ later))
    (managed : (World.after directory department groups first).hasManager = true) :
    (World.after directory department groups (first ++ later)).hasManager = true := by
  obtain ⟨before, after⟩ := Stepping.Along.append.mp guarded
  have start : Covered (World.new department groups) := by
    intro id call userId there
    cases there
  have covered : Covered (World.after directory department groups first) :=
    before.keeps (fun _ event covered guarded => covered_step event guarded covered) start
  rw [World.after, Stepping.run_append]
  have keeps : ∀ world event, Covered world ∧ world.hasManager = true → world.Guarded event →
      Covered (world.step directory event) ∧ (world.step directory event).hasManager = true := by
    intro world event both guarded
    exact ⟨covered_step event guarded both.1, managed_step event guarded both.1 both.2⟩
  exact (after.keeps keeps ⟨covered, managed⟩).2

def plainDepartment : Department := ⟨.DEPARTMENT, .active, fun _ => true⟩

def plainDirectory : Directory := ⟨fun _ => true, some⟩

def goes (id steps : ℕ) : List Event := List.replicate steps (.step id .ok)

def twoManagers : List Event :=
  [.add 0 1 .manager 0] ++ goes 0 6 ++ [.add 1 2 .manager 0] ++ goes 1 6

/-- Each removal counts before the other is committed. -/
def removedAtOnce : List Event := [.remove 2 1, .remove 3 2] ++ goes 2 3 ++ goes 3 3 ++ goes 2 1 ++ goes 3 1

theorem removed_at_once_leaves_none :
    (World.after plainDirectory plainDepartment (fun _ => []) twoManagers).hasManager = true ∧
      (World.after plainDirectory plainDepartment (fun _ => []) (twoManagers ++ removedAtOnce)).hasManager =
        false := by decide

/-- A rail that refuses or counts someone else, and a push that buries nothing. -/
def World.calm (world : World) (call : Call) : Bool :=
  call.counting.all (fun userId => world.managerCount ≤ 1 || world.hasOther userId) &&
    (call.taking.isNone || call.railed.isSome) &&
      call.live.all fun work => work.todo.head?.all fun act => !act.buries

theorem guarded_of_calm {id : ℕ} {outcome : Outcome} (calm : (world.calls id).all world.calm = true)
    (alone : (world.calls id).all (fun call => call.taking.isNone) = true ∨ ∀ other, other ≠ id →
      (world.calls other).all (fun call => call.railed.isNone) = true) : world.Guarded (.step id outcome) := by
  intro call found
  rw [found, Option.all_some, World.calm, Bool.and_eq_true, Bool.and_eq_true] at calm
  obtain ⟨⟨counts, takes⟩, pushes⟩ := calm
  refine ⟨?_, ?_, ?_, ?_⟩
  · intro userId counting many
    simp only [counting, Option.all_some, Bool.or_eq_true, decide_eq_true_eq] at counts
    exact counts.resolve_left (by omega)
  · intro userId taking other held counted apart there railed
    rcases alone with none | alone
    · rw [found, Option.all_some, taking] at none
      cases none
    · have idle := alone other apart
      rw [there, Option.all_some, railed] at idle
      cases idle
  · intro userId taking unrailed
    rw [taking, unrailed] at takes
    cases takes
  · intro work act rest live todo buries
    simp only [live, todo, Option.all_some, List.head?_cons, buries] at pushes
    cases pushes

/-- One of them hands over, and the rail counts the other. -/
def handsOver : List Event := [.update 2 1 .reader] ++ goes 2 7

theorem second_manager_is_kept :
    (World.after plainDirectory plainDepartment (fun _ => []) (twoManagers ++ handsOver)).hasManager = true ∧
      (World.after plainDirectory plainDepartment (fun _ => []) (twoManagers ++ handsOver)).managerCount = 1 := by
  have calm : ∀ {world : World} {id : ℕ}, (world.calls id).all world.calm = true →
      (world.calls id).all (fun call => call.taking.isNone) = true → world.Guarded (.step id .ok) :=
    fun calm quiet => guarded_of_calm calm (.inl quiet)
  have alone : ∀ {world : World}, (world.calls 2).all world.calm = true →
      (world.calls 0).all (fun call => call.railed.isNone) = true →
      (world.calls 1).all (fun call => call.railed.isNone) = true →
      (∀ other, world.calls (other + 3) = none) → world.Guarded (.step 2 .ok) := by
    intro world calm first second none
    refine guarded_of_calm calm (.inr fun other apart => ?_)
    rcases other with _ | _ | _ | other
    · exact first
    · exact second
    · exact absurd rfl apart
    · rw [none other]
      rfl
  refine ⟨department_keeps_a_manager plainDepartment (fun _ => []) twoManagers handsOver ?_ (by decide),
    by decide⟩
  simp only [twoManagers, handsOver, goes, List.replicate, List.cons_append, List.nil_append,
    Stepping.Along]
  refine ⟨trivial, ?_⟩
  iterate 6 refine ⟨calm (by decide) (by decide), ?_⟩
  refine ⟨trivial, ?_⟩
  iterate 6 refine ⟨calm (by decide) (by decide), ?_⟩
  refine ⟨trivial, ?_⟩
  iterate 3 refine ⟨calm (by decide) (by decide), ?_⟩
  exact ⟨alone (by decide) (by decide) (by decide) fun other => rfl, calm (by decide) (by decide),
    calm (by decide) (by decide), calm (by decide) (by decide), trivial⟩

end Droplet.Departments
