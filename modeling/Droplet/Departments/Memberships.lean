import Droplet.Lib.Histories
import Droplet.Lib.Stepping
import Droplet.Lib.Tables

/-! The members of one department (`services/department-membership.service.ts`,
`services/department-reconciler.service.ts`): its rows, its two Nextcloud groups, and the calls that change
them, cut at each database and each Nextcloud call. -/

namespace Droplet.Departments

abbrev UserId := ℕ

/-- A Nextcloud user name. -/
abbrev Account := ℕ

inductive DepartmentKind where
  | HOUSEHOLD
  | DEPARTMENT
  | TEAM
  deriving DecidableEq

inductive ProvisionState where
  | pending
  | provisioning
  | active
  | failed
  | archiving
  | archive_failed
  | archived
  deriving DecidableEq

inductive DepartmentRight where
  | reader
  | contributor
  | manager
  deriving DecidableEq

inductive NcSyncState where
  | pending
  | synced
  | failed
  | removing
  | remove_failed
  deriving DecidableEq

/-- `ncGroupRw` and `ncGroupRo` -/
inductive Group where
  | rw
  | ro
  deriving DecidableEq

def MASK_RW : ℕ := 15

def MASK_RO : ℕ := 1

def SYNC_ERROR_TRUNCATE_LEN : ℕ := 1024

structure Department where
  kind : DepartmentKind
  state : ProvisionState
  /-- Is the name of the group known? -/
  known : Group → Bool

structure DepartmentMembership where
  id : ℕ
  right : DepartmentRight
  syncState : NcSyncState
  syncError : Option String
  ncPermissionMask : Option ℕ
  grantedBy : UserId
  deriving DecidableEq

/-- The people there are, with the account each has. -/
structure Directory where
  users : UserId → Bool
  nextcloudUsername : UserId → Option Account

def Department.active (department : Department) : Bool :=
  department.state = .active && department.known .rw && department.known .ro

def DepartmentRight.isReader (right : DepartmentRight) : Bool := right = .reader

def DepartmentRight.group (right : DepartmentRight) : Group := if right.isReader then .ro else .rw

def DepartmentRight.mask (right : DepartmentRight) : ℕ := if right.isReader then MASK_RO else MASK_RW

def Group.other : Group → Group
  | .rw => .ro
  | .ro => .rw

/-- Is the row on its way out? -/
def NcSyncState.isRemoval : NcSyncState → Bool
  | .removing | .remove_failed => true
  | _ => false

/-- `MEMBERSHIP_SWEEP_STATES` -/
def NcSyncState.isSwept : NcSyncState → Bool
  | .synced => false
  | _ => true

/-- One call to Nextcloud or one statement about the row. -/
inductive Act where
  | add (group : Group) (account : Account)
  | remove (group : Group) (account : Account)
  /-- The row is synced; a mask that is `none` is left as it is. -/
  | mark (mask : Option ℕ)
  /-- In a `catch`, or where there is nothing to push to; a row that is gone is let be. -/
  | note (state : Option NcSyncState) (message : String)
  | delete

inductive Intent where
  /-- To give the right its group. -/
  | sync (right : DepartmentRight)
  /-- To take both groups away; the sweep parks a failure in a state of its own. -/
  | removal (swept : Bool)

structure Work where
  userId : UserId
  membershipId : ℕ
  intent : Intent
  todo : List Act
  /-- What was done, and acknowledged. -/
  did : List Act
  /-- Does the push take a writer's right down to a reader's? -/
  downgrade : Bool

/-- What the `catch` writes. -/
def Intent.failure : Intent → Option NcSyncState
  | .sync _ => some .failed
  | .removal true => some .remove_failed
  | .removal false => none

variable (directory : Directory)

def noAccount : Act := .note (some .failed) "user has no File Store account provisioned yet"

def pushAdd (dept : Department) (membershipId : ℕ) (userId : UserId) (right : DepartmentRight) :
    Work where
  userId := userId
  membershipId := membershipId
  intent := .sync right
  todo :=
    if dept.active then
      match directory.nextcloudUsername userId with
      | none => [noAccount]
      | some ncUsername => [.add right.group ncUsername, .mark (some right.mask)]
    else []
  did := []
  downgrade := false

def pushRightTransition (dept : Department) (membershipId : ℕ) (userId : UserId)
    (oldRight newRight : DepartmentRight) : Work where
  userId := userId
  membershipId := membershipId
  intent := .sync newRight
  todo :=
    if dept.active then
      if oldRight.isReader = newRight.isReader then [.mark none]
      else
        match directory.nextcloudUsername userId with
        | none => [noAccount]
        | some ncUsername =>
          if oldRight.isReader then
            [.add .rw ncUsername, .remove .ro ncUsername, .mark (some MASK_RW)]
          else [.remove .rw ncUsername, .add .ro ncUsername, .mark (some MASK_RO)]
    else []
  did := []
  downgrade := !oldRight.isReader && newRight.isReader

/-- Out of both groups, and then the row goes. -/
def removalActs (dept : Department) (userId : UserId) : List Act :=
  match directory.nextcloudUsername userId with
  | none => [.delete]
  | some ncUsername =>
    ([Group.rw, .ro].filter dept.known).map (fun group => .remove group ncUsername) ++ [.delete]

def pushRemoval (dept : Department) (membershipId : ℕ) (userId : UserId) : Work where
  userId := userId
  membershipId := membershipId
  intent := .removal false
  todo := removalActs directory dept userId
  did := []
  downgrade := false

structure MembershipSweepRow where
  id : ℕ
  userId : UserId
  right : DepartmentRight
  syncState : NcSyncState

def MembershipSweepRow.intent (row : MembershipSweepRow) : Intent :=
  if row.syncState.isRemoval then .removal true else .sync row.right

def sweepRow (dept : Department) (row : MembershipSweepRow) : Work where
  userId := row.userId
  membershipId := row.id
  intent := row.intent
  todo :=
    if dept.kind = .HOUSEHOLD then []
    else if row.syncState.isRemoval then removalActs directory dept row.userId
    else if dept.active then
      match directory.nextcloudUsername row.userId with
      | none => [noAccount]
      | some ncUsername => [.add row.right.group ncUsername, .remove row.right.group.other ncUsername,
          .mark (some row.right.mask)]
    else [.note (some .failed) "department not active yet"]
  did := []
  downgrade := false

inductive AddStage where
  | findUser
  | findDepartment
  | findExisting (dept : Department)
  | create (dept : Department)
  | push (work : Work)
  | done

inductive UpdateStage where
  | findDepartment
  | findExisting (dept : Department)
  /-- A manager is to be one no longer: the rail counts the managers. -/
  | count (dept : Department)
  | commit (dept : Department) (oldRight : DepartmentRight)
  | push (work : Work)
  | done

inductive RemoveStage where
  | findDepartment
  | findExisting (dept : Department)
  | count (dept : Department)
  | commit (dept : Department) (right : DepartmentRight)
  | push (work : Work)
  | done

inductive TickStage where
  | start
  /-- `provisionDepartment` marks the department. -/
  | provision
  | provisioned
  | readState
  /-- The drift pass: who is expected, who is there, and who is there for nothing. -/
  | expected
  | list (group : Group) (rest : List Group) (expected : Group → List Account)
  | purge (group : Group) (member : Account) (drifted : List Account) (rest : List Group)
      (expected : Group → List Account)
  | rows
  | department (row : MembershipSweepRow) (rest : List MembershipSweepRow)
  | push (work : Work) (rest : List MembershipSweepRow)
  | done

inductive Call where
  | add (targetUserId : UserId) (right : DepartmentRight) (grantedBy : UserId) (stage : AddStage)
  | update (targetUserId : UserId) (newRight : DepartmentRight) (stage : UpdateStage)
  | remove (targetUserId : UserId) (stage : RemoveStage)
  | tick (stage : TickStage)

/-- What happened to a person, as it happened. -/
inductive Note where
  | added (userId : UserId)
  | removed (userId : UserId)
  /-- Nextcloud was asked to add the person to a group. -/
  | asked (userId : UserId) (group : Group)
  deriving DecidableEq

structure World where
  department : Department
  rows : Table UserId DepartmentMembership
  groups : Group → List Account
  /-- The id of the next row. -/
  nextId : ℕ
  aclVersion : ℕ
  calls : ℕ → Option Call
  log : List Note

/-- How a database or Nextcloud call ends; one that fails may have been carried out. -/
inductive Outcome where
  | ok
  | failed (landed : Bool) (message : String)

def Outcome.lands : Outcome → Bool
  | .ok => true
  | .failed landed _ => landed

namespace World

def put (world : World) (id : ℕ) (call : Call) : World :=
  { world with calls := Function.update world.calls id (some call) }

def record (world : World) (note : Note) : World := { world with log := world.log ++ [note] }

def setRows (world : World) (rows : Table UserId DepartmentMembership) : World :=
  { world with rows := rows }

def setGroup (world : World) (group : Group) (members : List Account) : World :=
  { world with groups := Function.update world.groups group members }

def ncAddUserToGroup (world : World) (account : Account) (group : Group) : World :=
  let members := world.groups group
  world.setGroup group (if account ∈ members then members else members ++ [account])

def ncRemoveUserFromGroup (world : World) (account : Account) (group : Group) : World :=
  world.setGroup group ((world.groups group).filter (· ≠ account))

def hasRow (world : World) (membershipId : ℕ) : Bool :=
  (world.rows.findFirst fun _ row => row.id = membershipId).isSome

def updateRow (world : World) (membershipId : ℕ)
    (data : DepartmentMembership → DepartmentMembership) : World :=
  world.setRows (world.rows.updateMany (fun _ row => row.id = membershipId) data)

def deleteRow (world : World) (membershipId : ℕ) : World :=
  world.setRows (world.rows.deleteMany fun _ row => row.id = membershipId)

/-- An add is asked for, whatever comes of it. -/
def asks (world : World) (userId : UserId) : Act → World
  | .add group _ => world.record (.asked userId group)
  | _ => world

def carryOut (world : World) (work : Work) : Act → World
  | .add group account => world.ncAddUserToGroup account group
  | .remove group account => world.ncRemoveUserFromGroup account group
  | .mark mask => world.updateRow work.membershipId fun row =>
    { row with
      syncState := .synced
      syncError := none
      ncPermissionMask := mask.or row.ncPermissionMask }
  | .note state message => world.updateRow work.membershipId fun row =>
    { row with
      syncState := state.getD row.syncState
      syncError := some ((message.take SYNC_ERROR_TRUNCATE_LEN).toString) }
  | .delete => world.deleteRow work.membershipId

/-- A statement about a row that is gone throws. -/
def misses (world : World) (work : Work) : Act → Bool
  | .mark _ | .delete => !world.hasRow work.membershipId
  | _ => false

end World

/-- The `catch` has one more statement, but its own failure ends the push. -/
def Work.fails (work : Work) (act : Act) (message : String) : Work :=
  match act with
  | .note _ _ => { work with todo := [] }
  | _ => { work with todo := [.note work.intent.failure message] }

/-- The next act of a push. -/
def perform (world : World) (work : Work) (outcome : Outcome) : World × Work :=
  match work.todo with
  | [] => (world, work)
  | act :: rest =>
    let asked := world.asks work.userId act
    let after := if outcome.lands then asked.carryOut work act else asked
    match outcome with
    | .failed _ message => (after, work.fails act message)
    | .ok =>
      if world.misses work act then (after, work.fails act "Record not found")
      else (after, { work with todo := rest, did := work.did ++ [act] })

def AddStage.pushing (work : Work) : AddStage := if work.todo.isEmpty then .done else .push work

def UpdateStage.pushing (work : Work) : UpdateStage := if work.todo.isEmpty then .done else .push work

def RemoveStage.pushing (work : Work) : RemoveStage := if work.todo.isEmpty then .done else .push work

def TickStage.next : List MembershipSweepRow → TickStage
  | [] => .done
  | row :: rest => .department row rest

def TickStage.pushing (work : Work) (rest : List MembershipSweepRow) : TickStage :=
  if work.todo.isEmpty then .next rest else .push work rest

def TickStage.listing (expected : Group → List Account) : List Group → TickStage
  | [] => .rows
  | group :: rest => .list group rest expected

def TickStage.purging (group : Group) (rest : List Group) (expected : Group → List Account) :
    List Account → TickStage
  | [] => .listing expected rest
  | member :: drifted => .purge group member drifted rest expected

namespace World

/-- The managers a rail counts, those on their way out among them. -/
def managerCount (world : World) : ℕ := (world.rows.findMany fun _ row => row.right = .manager).length

def expectedIn (world : World) (group : Group) : List Account :=
  (world.rows.findMany fun _ row => row.syncState = .synced ∧ row.right.group = group).filterMap
    fun row => directory.nextcloudUsername row.1

def sweptRows (world : World) : List MembershipSweepRow :=
  (world.rows.findMany fun _ row => row.syncState.isSwept).map fun row =>
    ⟨row.2.id, row.1, row.2.right, row.2.syncState⟩

/-- `bumpAclVersion` -/
def bump (world : World) : World := { world with aclVersion := world.aclVersion + 1 }

def setState (world : World) (state : ProvisionState) : World :=
  { world with department := { world.department with state := state } }

/-- The transaction of `addMembership`; a member that is there already is none. -/
def createMembership (world : World) (userId : UserId) (right : DepartmentRight)
    (grantedBy : UserId) : Option World :=
  (world.rows.create userId ⟨world.nextId, right, .pending, none, none, grantedBy⟩).map fun rows =>
    ({ world with rows := rows, nextId := world.nextId + 1 }.bump).record (.added userId)

/-- The write of `updateMembershipRight`'s transaction. -/
def writeRight (world : World) (userId : UserId) (newRight : DepartmentRight) : World :=
  (world.setRows (world.rows.updateMany (fun key _ => key = userId) fun row =>
    { row with right := newRight, syncState := .pending })).bump

/-- The write of `removeMembership`'s transaction. -/
def writeRemoving (world : World) (userId : UserId) : World :=
  ((world.setRows (world.rows.updateMany (fun key _ => key = userId) fun row =>
    { row with syncState := .removing })).bump).record (.removed userId)

def addStep (world : World) (id : ℕ) (userId : UserId) (right : DepartmentRight)
    (grantedBy : UserId) (outcome : Outcome) (stage : AddStage) : World :=
  let go := fun (world : World) (stage : AddStage) => world.put id (.add userId right grantedBy stage)
  match stage, outcome with
  | .findUser, .ok => go world (if directory.users userId then .findDepartment else .done)
  | .findDepartment, .ok => go world (.findExisting world.department)
  | .findExisting dept, .ok => go world (if (world.rows.get userId).isSome then .done else .create dept)
  | .create dept, outcome =>
    match if outcome.lands then world.createMembership userId right grantedBy else none with
    | none => go world .done
    | some created =>
      match outcome with
      | .ok => go created (.pushing (pushAdd directory dept world.nextId userId right))
      | .failed _ _ => go created .done
  | .push work, outcome => go (perform world work outcome).1 (.pushing (perform world work outcome).2)
  | .done, _ => world
  | _, .failed _ _ => go world .done

def updateStep (world : World) (id : ℕ) (userId : UserId) (newRight : DepartmentRight)
    (outcome : Outcome) (stage : UpdateStage) : World :=
  let go := fun (world : World) (stage : UpdateStage) => world.put id (.update userId newRight stage)
  match stage, outcome with
  | .findDepartment, .ok => go world (.findExisting world.department)
  | .findExisting dept, .ok =>
    match world.rows.get userId with
    | none => go world .done
    | some existing =>
      if existing.right = newRight then go world .done
      else if existing.right = .manager then go world (.count dept)
      else go world (.commit dept existing.right)
  | .count dept, .ok => go world (if world.managerCount ≤ 1 then .done else .commit dept .manager)
  | .commit dept oldRight, outcome =>
    match world.rows.get userId with
    | none => go world .done
    | some row =>
      match outcome with
      | .ok => go (world.writeRight userId newRight)
          (.pushing (pushRightTransition directory dept row.id userId oldRight newRight))
      | .failed landed _ => go (if landed then world.writeRight userId newRight else world) .done
  | .push work, outcome => go (perform world work outcome).1 (.pushing (perform world work outcome).2)
  | .done, _ => world
  | _, .failed _ _ => go world .done

def removeStep (world : World) (id : ℕ) (userId : UserId) (outcome : Outcome) (stage : RemoveStage) :
    World :=
  let go := fun (world : World) (stage : RemoveStage) => world.put id (.remove userId stage)
  match stage, outcome with
  | .findDepartment, .ok => go world (.findExisting world.department)
  | .findExisting dept, .ok =>
    match world.rows.get userId with
    | none => go world .done
    | some existing =>
      if existing.right = .manager then go world (.count dept)
      else go world (.commit dept existing.right)
  | .count dept, .ok => go world (if world.managerCount ≤ 1 then .done else .commit dept .manager)
  | .commit dept _, outcome =>
    match world.rows.get userId with
    | none => go world .done
    | some row =>
      match outcome with
      | .ok => go (world.writeRemoving userId) (.pushing (pushRemoval directory dept row.id userId))
      | .failed landed _ => go (if landed then world.writeRemoving userId else world) .done
  | .push work, outcome => go (perform world work outcome).1 (.pushing (perform world work outcome).2)
  | .done, _ => world
  | _, .failed _ _ => go world .done

def tickStep (world : World) (id : ℕ) (outcome : Outcome) (stage : TickStage) : World :=
  let go := fun (world : World) (stage : TickStage) => world.put id (.tick stage)
  match stage, outcome with
  | .start, .ok =>
    go world (if world.department.state = .active ∧ world.department.kind ≠ .HOUSEHOLD then .provision
      else .rows)
  | .start, .failed _ _ => go world .done
  | .provision, .ok => go (world.setState .provisioning) .provisioned
  | .provision, .failed landed _ => go (if landed then world.setState .provisioning else world) .rows
  -- what it does to the groups and the folder is not about who is in them
  | .provisioned, .ok => go (world.setState .active) .readState
  | .provisioned, .failed _ _ => go world .readState
  | .readState, .ok => go world (if world.department.state = .active then .expected else .rows)
  | .expected, .ok =>
    go world (.listing (world.expectedIn directory) ([Group.rw, .ro].filter world.department.known))
  | .list group rest expected, .ok =>
    go world (.purging group rest expected
      ((world.groups group).filter fun member => member ∉ expected group))
  | .purge group member drifted rest expected, .ok =>
    go (world.ncRemoveUserFromGroup member group) (.purging group rest expected drifted)
  | .purge group member _ _ _, .failed landed _ =>
    go (if landed then world.ncRemoveUserFromGroup member group else world) .rows
  | .rows, .ok => go world (.next world.sweptRows)
  | .rows, .failed _ _ => go world .done
  | .department row rest, .ok => go world (.pushing (sweepRow directory world.department row) rest)
  | .department row rest, .failed _ message =>
    go world (.push ⟨row.userId, row.id, row.intent, [.note row.intent.failure message], [], false⟩ rest)
  | .push work rest, outcome =>
    go (perform world work outcome).1 (.pushing (perform world work outcome).2 rest)
  | .done, _ => world
  | _, .failed _ _ => go world .rows

def begins (world : World) (id : ℕ) (call : Call) : World :=
  if (world.calls id).isSome then world else world.put id call

def act (world : World) (id : ℕ) (outcome : Outcome) : World :=
  match world.calls id with
  | none => world
  | some (.add userId right grantedBy stage) =>
    world.addStep directory id userId right grantedBy outcome stage
  | some (.update userId newRight stage) => world.updateStep directory id userId newRight outcome stage
  | some (.remove userId stage) => world.removeStep directory id userId outcome stage
  | some (.tick stage) => world.tickStep directory id outcome stage

end World

inductive Event where
  | add (id : ℕ) (targetUserId : UserId) (right : DepartmentRight) (grantedBy : UserId)
  | update (id : ℕ) (targetUserId : UserId) (newRight : DepartmentRight)
  | remove (id : ℕ) (targetUserId : UserId)
  | tick (id : ℕ)
  /-- The department goes to another state by itself. -/
  | department (state : ProvisionState)
  | step (id : ℕ) (outcome : Outcome)
  /-- The process a call runs in dies. -/
  | stop (id : ℕ)

def Call.stopped : Call → Call
  | .add userId right grantedBy _ => .add userId right grantedBy .done
  | .update userId newRight _ => .update userId newRight .done
  | .remove userId _ => .remove userId .done
  | .tick _ => .tick .done

def World.step (world : World) : Event → World
  | .add id userId right grantedBy => world.begins id (.add userId right grantedBy .findUser)
  | .update id userId newRight => world.begins id (.update userId newRight .findDepartment)
  | .remove id userId => world.begins id (.remove userId .findDepartment)
  | .tick id => world.begins id (.tick .start)
  | .department state => world.setState state
  | .step id outcome => world.act directory id outcome
  | .stop id =>
    match world.calls id with
    | none => world
    | some call => world.put id call.stopped

/-- No members yet, and whoever is in the groups. -/
def World.new (department : Department) (groups : Group → List Account) : World where
  department := department
  rows := .empty
  groups := groups
  nextId := 0
  aclVersion := 0
  calls := fun _ => none
  log := []

def World.after (department : Department) (groups : Group → List Account) (events : List Event) :
    World :=
  Stepping.run (World.step directory) (World.new department groups) events

end Droplet.Departments
