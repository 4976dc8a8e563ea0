import Droplet.Departments.Memberships

/-! What one step of a department's calls can do, said once for every invariant. -/

namespace Droplet.Departments

variable {directory : Directory}

def Call.live : Call → Option Work
  | .add _ _ _ (.push work) | .update _ _ (.push work) | .remove _ (.push work)
  | .tick (.push work _) => some work
  | _ => none

def Call.queued : Call → List MembershipSweepRow
  | .tick (.department row rest) => row :: rest
  | .tick (.push _ rest) => rest
  | _ => []

/-- The person a rail has counted the managers for. -/
def Call.railed : Call → Option UserId
  | .update userId _ (.commit _ .manager) => some userId
  | .remove userId (.commit _ .manager) => some userId
  | _ => none

/-- The person a rail is about to count the managers for. -/
def Call.counting : Call → Option UserId
  | .update userId _ (.count _) | .remove userId (.count _) => some userId
  | _ => none

structure Call.Idle (call : Call) : Prop where
  live : call.live = none
  queued : call.queued = []
  railed : call.railed = none

/-- The rows, the groups and the log are as they were. -/
structure Same (world after : World) : Prop where
  rows : after.rows = world.rows
  groups : after.groups = world.groups
  log : after.log = world.log
  calls : after.calls = world.calls
  nextId : after.nextId = world.nextId

theorem Same.refl (world : World) : Same world world := ⟨rfl, rfl, rfl, rfl, rfl⟩

def Follows (work : Work) (call : Call) : Prop :=
  (call.live = some work ∨ call.live = none) ∧ call.railed = none

/-- The steps of a call that read the rows to act on them, or change something. -/
inductive Turn (directory : Directory) (world : World) (outcome : Outcome) :
    Call → Call → World → Prop where
  | counts {call next : Call} {userId : UserId} (counting : call.counting = some userId)
      (many : 1 < world.managerCount) (live : next.live = none) (queued : next.queued = [])
      (railed : next.railed = some userId) : Turn directory world outcome call next world
  | creates {userId : UserId} {right : DepartmentRight} {grantedBy : UserId} {dept : Department}
      {created : World} {next : Call}
      (makes : world.createMembership userId right grantedBy = some created)
      (follows : Follows (pushAdd directory dept world.nextId userId right) next)
      (queued : next.queued = []) :
      Turn directory world outcome (.add userId right grantedBy (.create dept)) next created
  | writes {userId : UserId} {oldRight newRight : DepartmentRight} {dept : Department}
      {row : DepartmentMembership} {next : Call} (found : world.rows.get userId = some row)
      (follows : Follows (pushRightTransition directory dept row.id userId oldRight newRight) next)
      (queued : next.queued = []) :
      Turn directory world outcome (.update userId newRight (.commit dept oldRight)) next
        (world.writeRight userId newRight)
  | removes {userId : UserId} {right : DepartmentRight} {dept : Department}
      {row : DepartmentMembership} {next : Call} (found : world.rows.get userId = some row)
      (follows : Follows (pushRemoval directory dept row.id userId) next)
      (queued : next.queued = []) :
      Turn directory world outcome (.remove userId (.commit dept right)) next
        (world.writeRemoving userId)
  | performs {call next : Call} {work : Work} (live : call.live = some work)
      (follows : Follows (perform world work outcome).2 next) (queued : next.queued = call.queued) :
      Turn directory world outcome call next (perform world work outcome).1
  | purges {group : Group} {member : Account} {drifted : List Account} {rest : List Group}
      {expected : Group → List Account} {next : Call} (idle : next.Idle) :
      Turn directory world outcome (.tick (.purge group member drifted rest expected)) next
        (world.ncRemoveUserFromGroup member group)
  | reads {next : Call} (live : next.live = none) (queued : next.queued = world.sweptRows)
      (railed : next.railed = none) : Turn directory world outcome (.tick .rows) next world
  | takes {row : MembershipSweepRow} {rest : List MembershipSweepRow} {work : Work} {next : Call}
      (is : work = sweepRow directory world.department row ∨
        ∃ message, work = ⟨row.userId, row.id, row.intent, [.note row.intent.failure message], [], false⟩)
      (follows : Follows work next) (queued : next.queued = rest) :
      Turn directory world outcome (.tick (.department row rest)) next world

inductive Did (directory : Directory) (world : World) (event : Event) : World → Prop where
  | quiet {after : World} (same : Same world after) : Did directory world event after
  | idle {id : ℕ} {call : Call} {after : World} (same : Same world after) (idle : call.Idle) :
      Did directory world event (after.put id call)
  | turn {id : ℕ} {outcome : Outcome} {call next : Call} {after : World}
      (is : event = .step id outcome) (found : world.calls id = some call)
      (turn : Turn directory world outcome call next after) :
      Did directory world event (after.put id next)

theorem perform_world {world : World} {work : Work} {act : Act} {rest : List Act}
    (todo : work.todo = act :: rest) (outcome : Outcome) :
    (perform world work outcome).1 = (world.asks work.userId act).carryOut work act ∨
      (perform world work outcome).1 = world.asks work.userId act := by
  have either : ∀ landed : Bool, (if landed then (world.asks work.userId act).carryOut work act
      else world.asks work.userId act) = (world.asks work.userId act).carryOut work act ∨
      (if landed then (world.asks work.userId act).carryOut work act
        else world.asks work.userId act) = world.asks work.userId act := by
    intro landed
    cases landed
    · exact .inr rfl
    · exact .inl rfl
  simp only [perform, todo]
  cases outcome with
  | ok =>
    dsimp only
    split <;> exact .inl rfl
  | failed landed message => exact either landed

theorem perform_work (world : World) {work : Work} {act : Act} {rest : List Act}
    (todo : work.todo = act :: rest) (outcome : Outcome) :
    (∃ message, (perform world work outcome).2 = work.fails act message) ∨
      world.misses work act = false ∧
      (perform world work outcome).1 = (world.asks work.userId act).carryOut work act ∧
      (perform world work outcome).2 = { work with todo := rest, did := work.did ++ [act] } := by
  simp only [perform, todo]
  cases outcome with
  | ok =>
    dsimp only
    split
    · exact .inl ⟨_, rfl⟩
    next there => exact .inr ⟨Bool.not_eq_true _ ▸ there, rfl, rfl⟩
  | failed landed message => exact .inl ⟨_, rfl⟩

theorem perform_nil {world : World} {work : Work} (todo : work.todo = []) (outcome : Outcome) :
    perform world work outcome = (world, work) := by
  simp only [perform, todo]

@[simp] theorem asks_rows (world : World) (userId : UserId) (act : Act) :
    (world.asks userId act).rows = world.rows := by
  cases act <;> rfl

@[simp] theorem asks_groups (world : World) (userId : UserId) (act : Act) :
    (world.asks userId act).groups = world.groups := by
  cases act <;> rfl

theorem carryOut_asks (world : World) (work : Work) (act : Act) :
    ((world.asks work.userId act).carryOut work act).rows = (world.carryOut work act).rows ∧
      ((world.asks work.userId act).carryOut work act).groups = (world.carryOut work act).groups ∧
      ((world.asks work.userId act).carryOut work act).log = (world.asks work.userId act).log ∧
      ((world.asks work.userId act).carryOut work act).calls = world.calls := by
  cases act <;> exact ⟨rfl, rfl, rfl, rfl⟩

theorem perform_rows (world : World) (work : Work) (outcome : Outcome) :
    (perform world work outcome).1.rows = world.rows ∨ ∃ act rest, work.todo = act :: rest ∧
      (perform world work outcome).1.rows = (world.carryOut work act).rows := by
  cases todo : work.todo with
  | nil =>
    rw [perform_nil todo]
    exact .inl rfl
  | cons act rest =>
    rcases perform_world todo outcome with landed | lost
    · rw [landed, (carryOut_asks world work act).1]
      exact .inr ⟨act, rest, rfl, rfl⟩
    · rw [lost, asks_rows]
      exact .inl rfl

theorem perform_calls (world : World) (work : Work) (outcome : Outcome) :
    (perform world work outcome).1.calls = world.calls := by
  cases todo : work.todo with
  | nil => rw [perform_nil todo]
  | cons act rest =>
    rcases perform_world todo outcome with landed | lost
    · rw [landed, (carryOut_asks world work act).2.2.2]
    · rw [lost]
      cases act <;> rfl

theorem Turn.calls {directory : Directory} {world after : World} {outcome : Outcome} {call next : Call}
    (turn : Turn directory world outcome call next after) : after.calls = world.calls := by
  cases turn with
  | creates makes =>
    rw [World.createMembership, Option.map_eq_some_iff] at makes
    obtain ⟨rows, _, rfl⟩ := makes
    rfl
  | performs => exact perform_calls _ _ _
  | _ => rfl

variable {world : World} {id : ℕ} {outcome : Outcome}

theorem add_pushing (userId grantedBy : UserId) (right : DepartmentRight) (work : Work) :
    Follows work (.add userId right grantedBy (.pushing work)) ∧
      (Call.add userId right grantedBy (.pushing work)).queued = [] := by
  unfold AddStage.pushing Follows
  split <;> exact ⟨⟨by simp [Call.live], rfl⟩, rfl⟩

theorem update_pushing (userId : UserId) (newRight : DepartmentRight) (work : Work) :
    Follows work (.update userId newRight (.pushing work)) ∧
      (Call.update userId newRight (.pushing work)).queued = [] := by
  unfold UpdateStage.pushing Follows
  split <;> exact ⟨⟨by simp [Call.live], rfl⟩, rfl⟩

theorem remove_pushing (userId : UserId) (work : Work) :
    Follows work (.remove userId (.pushing work)) ∧
      (Call.remove userId (.pushing work)).queued = [] := by
  unfold RemoveStage.pushing Follows
  split <;> exact ⟨⟨by simp [Call.live], rfl⟩, rfl⟩

theorem tick_next (rest : List MembershipSweepRow) :
    (Call.tick (.next rest)).live = none ∧ (Call.tick (.next rest)).queued = rest ∧
      (Call.tick (.next rest)).railed = none := by
  cases rest <;> exact ⟨rfl, rfl, rfl⟩

theorem tick_pushing (work : Work) (rest : List MembershipSweepRow) :
    Follows work (.tick (.pushing work rest)) ∧ (Call.tick (.pushing work rest)).queued = rest := by
  unfold TickStage.pushing
  split
  · exact ⟨⟨.inr (tick_next rest).1, (tick_next rest).2.2⟩, (tick_next rest).2.1⟩
  · exact ⟨⟨.inl rfl, rfl⟩, rfl⟩

theorem tick_listing (expected : Group → List Account) (groups : List Group) :
    (Call.tick (.listing expected groups)).Idle := by
  cases groups <;> exact ⟨rfl, rfl, rfl⟩

theorem tick_purging (group : Group) (rest : List Group) (expected : Group → List Account)
    (drifted : List Account) : (Call.tick (.purging group rest expected drifted)).Idle := by
  cases drifted with
  | nil => exact tick_listing expected rest
  | cons member drifted => exact ⟨rfl, rfl, rfl⟩

variable {event : Event}

theorem Did.rests {next : Call} (idle : next.Idle := by exact ⟨rfl, rfl, rfl⟩) :
    Did directory world event (world.put id next) := .idle (.refl world) idle

theorem addStep_did {userId grantedBy : UserId} {right : DepartmentRight} {stage : AddStage}
    (is : event = .step id outcome) (found : world.calls id = some (.add userId right grantedBy stage)) :
    Did directory world event
      (world.addStep directory id userId right grantedBy outcome stage) := by
  cases stage with
  | findUser | findExisting =>
    cases outcome with
    | ok =>
      simp only [World.addStep]
      split <;> exact .rests
    | failed landed message => exact .rests
  | findDepartment => cases outcome <;> exact .rests
  | create dept =>
    simp only [World.addStep]
    split
    · exact .rests
    next created landed =>
      have makes : world.createMembership userId right grantedBy = some created := by
        split at landed
        · exact landed
        · cases landed
      cases outcome with
      | ok =>
        obtain ⟨follows, queued⟩ := add_pushing userId grantedBy right
          (pushAdd directory dept world.nextId userId right)
        exact .turn is found (.creates makes follows queued)
      | failed landed message => exact .turn is found (.creates makes ⟨.inr rfl, rfl⟩ rfl)
  | push work =>
    obtain ⟨follows, queued⟩ := add_pushing userId grantedBy right (perform world work outcome).2
    exact .turn is found (.performs rfl follows queued)
  | done => cases outcome <;> exact .quiet (.refl world)

theorem updateStep_did {userId : UserId} {newRight : DepartmentRight} {stage : UpdateStage}
    (is : event = .step id outcome) (found : world.calls id = some (.update userId newRight stage)) :
    Did directory world event (world.updateStep directory id userId newRight outcome stage) := by
  cases stage with
  | findDepartment => cases outcome <;> exact .rests
  | findExisting dept =>
    cases outcome with
    | ok =>
      simp only [World.updateStep]
      split
      · exact .rests
      next existing there =>
        split
        · exact .rests
        · split
          · exact .rests
          next plain =>
            refine .rests ⟨rfl, rfl, ?_⟩
            cases right : existing.right with
            | manager => exact absurd right plain
            | _ => rfl
    | failed landed message => exact .rests
  | count dept =>
    cases outcome with
    | ok =>
      simp only [World.updateStep]
      split
      · exact .rests
      next many => exact .turn is found (.counts rfl (not_le.mp many) rfl rfl rfl)
    | failed landed message => exact .rests
  | commit dept oldRight =>
    simp only [World.updateStep]
    split
    · exact .rests
    next row there =>
      cases outcome with
      | ok =>
        obtain ⟨follows, queued⟩ := update_pushing userId newRight
          (pushRightTransition directory dept row.id userId oldRight newRight)
        exact .turn is found (.writes there follows queued)
      | failed landed message =>
        cases landed with
        | false => exact .rests
        | true => exact .turn is found (.writes there ⟨.inr rfl, rfl⟩ rfl)
  | push work =>
    obtain ⟨follows, queued⟩ := update_pushing userId newRight (perform world work outcome).2
    exact .turn is found (.performs rfl follows queued)
  | done => cases outcome <;> exact .quiet (.refl world)

theorem removeStep_did {userId : UserId} {stage : RemoveStage} (is : event = .step id outcome)
    (found : world.calls id = some (.remove userId stage)) :
    Did directory world event (world.removeStep directory id userId outcome stage) := by
  cases stage with
  | findDepartment => cases outcome <;> exact .rests
  | findExisting dept =>
    cases outcome with
    | ok =>
      simp only [World.removeStep]
      split
      · exact .rests
      next existing there =>
        split
        · exact .rests
        next plain =>
          refine .rests ⟨rfl, rfl, ?_⟩
          cases right : existing.right with
          | manager => exact absurd right plain
          | _ => rfl
    | failed landed message => exact .rests
  | count dept =>
    cases outcome with
    | ok =>
      simp only [World.removeStep]
      split
      · exact .rests
      next many => exact .turn is found (.counts rfl (not_le.mp many) rfl rfl rfl)
    | failed landed message => exact .rests
  | commit dept right =>
    simp only [World.removeStep]
    split
    · exact .rests
    next row there =>
      cases outcome with
      | ok =>
        obtain ⟨follows, queued⟩ := remove_pushing userId (pushRemoval directory dept row.id userId)
        exact .turn is found (.removes there follows queued)
      | failed landed message =>
        cases landed with
        | false => exact .rests
        | true => exact .turn is found (.removes there ⟨.inr rfl, rfl⟩ rfl)
  | push work =>
    obtain ⟨follows, queued⟩ := remove_pushing userId (perform world work outcome).2
    exact .turn is found (.performs rfl follows queued)
  | done => cases outcome <;> exact .quiet (.refl world)

theorem same_setState (world : World) (state : ProvisionState) : Same world (world.setState state) :=
  ⟨rfl, rfl, rfl, rfl, rfl⟩

theorem tickStep_did {stage : TickStage} (is : event = .step id outcome)
    (found : world.calls id = some (.tick stage)) :
    Did directory world event (world.tickStep directory id outcome stage) := by
  cases stage with
  | start | readState =>
    cases outcome with
    | ok =>
      simp only [World.tickStep]
      split <;> exact .rests
    | failed landed message => exact .rests
  | provision =>
    cases outcome with
    | ok => exact .idle (same_setState world _) ⟨rfl, rfl, rfl⟩
    | failed landed message =>
      cases landed with
      | false => exact .rests
      | true => exact .idle (same_setState world _) ⟨rfl, rfl, rfl⟩
  | provisioned =>
    cases outcome with
    | ok => exact .idle (same_setState world _) ⟨rfl, rfl, rfl⟩
    | failed landed message => exact .rests
  | expected =>
    cases outcome with
    | ok => exact .rests (tick_listing _ _)
    | failed landed message => exact .rests
  | list group rest expected =>
    cases outcome with
    | ok => exact .rests (tick_purging _ _ _ _)
    | failed landed message => exact .rests
  | purge group member drifted rest expected =>
    cases outcome with
    | ok => exact .turn is found (.purges (tick_purging _ _ _ _))
    | failed landed message =>
      cases landed with
      | false => exact .rests
      | true => exact .turn is found (.purges ⟨rfl, rfl, rfl⟩)
  | rows =>
    cases outcome with
    | ok =>
      obtain ⟨live, queued, railed⟩ := tick_next world.sweptRows
      exact .turn is found (.reads live queued railed)
    | failed landed message => exact .rests
  | department row rest =>
    cases outcome with
    | ok =>
      obtain ⟨follows, queued⟩ := tick_pushing (sweepRow directory world.department row) rest
      exact .turn is found (.takes (.inl rfl) follows queued)
    | failed landed message =>
      exact .turn is found (.takes (.inr ⟨message, rfl⟩) ⟨.inl rfl, rfl⟩ rfl)
  | push work rest =>
    obtain ⟨follows, queued⟩ := tick_pushing (perform world work outcome).2 rest
    exact .turn is found (.performs rfl follows queued)
  | done => cases outcome <;> exact .quiet (.refl world)

theorem begins_did {call : Call} (idle : call.Idle) : Did directory world event (world.begins id call) := by
  unfold World.begins
  split
  · exact .quiet (.refl world)
  · exact .idle (.refl world) idle

theorem stopped_idle (call : Call) : call.stopped.Idle := by
  cases call <;> exact ⟨rfl, rfl, rfl⟩

theorem step_did (directory : Directory) (world : World) (event : Event) :
    Did directory world event (world.step directory event) := by
  cases event with
  | add | update | remove | tick => exact begins_did ⟨rfl, rfl, rfl⟩
  | department state => exact .quiet (same_setState world state)
  | step id outcome =>
    simp only [World.step, World.act]
    split
    · exact .quiet (.refl world)
    next found => exact addStep_did rfl found
    next found => exact updateStep_did rfl found
    next found => exact removeStep_did rfl found
    next found => exact tickStep_did rfl found
  | stop id =>
    simp only [World.step]
    split
    · exact .quiet (.refl world)
    · exact .idle (.refl world) (stopped_idle _)

end Droplet.Departments
