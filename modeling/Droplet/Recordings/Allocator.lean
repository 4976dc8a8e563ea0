import Droplet.Lib.Effects
import Droplet.Recordings.Records

/-! The recordings allocator (`recordings-allocator.service.ts`) as a program that calls on the database,
the device-bridge and the owners. -/

namespace Droplet.Recordings

open Effects

def HOUR_MS : ℤ := 3600000

/-- Wait after failure n before the automatic retry n. -/
def RETRY_DELAYS_MS : List ℤ := [1 * HOUR_MS, 6 * HOUR_MS, 24 * HOUR_MS]

def MAX_AUTO_RETRIES : ℕ := RETRY_DELAYS_MS.length

def WAITING_FOR_RETENTION : String := "waiting for Frigate's resolved recording retention settings"

def TITLE_SETTING_ASIDE : String := "Droplet is setting aside space for your camera recordings"

def TITLE_MOVED : String := "Your camera recordings are now on the protected drive"

def TITLE_MOVE_GAVE_UP : String := "Droplet could not move your camera recordings"

inductive RecordingsErrorCode where
  | not_eligible
  | no_change
  | no_allocation
  | busy
  | no_old_footage
  | bridge_unavailable
  | host_refused
  deriving DecidableEq

def RecordingsErrorCode.text : RecordingsErrorCode → String
  | .not_eligible => "not_eligible"
  | .no_change => "no_change"
  | .no_allocation => "no_allocation"
  | .busy => "busy"
  | .no_old_footage => "no_old_footage"
  | .bridge_unavailable => "bridge_unavailable"
  | .host_refused => "host_refused"

structure RecordingsError where
  code : RecordingsErrorCode
  message : String
  hostCode : Option String
  deriving DecidableEq

inductive Failure where
  | recordings (error : RecordingsError)
  /-- P2002 -/
  | uniqueViolation
  | other
  deriving DecidableEq

structure RowUpdate where
  status : Option AllocationStatus := none
  mode : Option AllocationMode := none
  reservedBytes : Option ℕ := none
  migrationFailures : Option ℕ := none
  lastFailureAt : Option (Option ℤ) := none

inductive Severity where
  | info
  | warn

inductive RecordingsActor where
  | user (id : String)
  | system

inductive Ref where
  | text (value : Option String)
  | number (value : ℕ)
  | flag (value : Bool)

inductive Command where
  | collectFacts
  | loadRecordingsAllocations
  | updateMany (id : RowId) (status : Option (List AllocationStatus)) (data : RowUpdate)
  | create (fsUuid : String) (mode : AllocationMode) (reservedBytes : ℕ)
  | deleteMany (doomed : AllocationRecord → Bool)
  | applyNvrTarget (fsUuid : String) (limitBytes : Option ℕ)
  /-- The bridge is told the filesystem only. -/
  | startMigration (of : RowId) (fsUuid : String)
  | resizeNvr (limitBytes : ℕ)
  | getMigration
  | deleteOldFootage
  | now
  | recordActivity (severity : Severity) (what : String) (actor : RecordingsActor)
      (refs : List (String × Ref))
  /-- The owners are told the title and the body only. -/
  | notifyOwners (of : RowId) (title body : String)

inductive Reply where
  | facts (facts : RecordingsFacts)
  | rows (rows : List AllocationRecord)
  | count (count : ℕ)
  | created (row : AllocationRecord)
  | migration (status : NvrMigrationStatus)
  | instant (instant : ℤ)
  | nothing
  | failed (failure : Failure)

abbrev Op := ExceptT Failure (Prog Command Reply)

def ask (command : Command) : Op Reply := do
  match ← ExceptT.lift (Prog.invoke command) with
  | .failed failure => throw failure
  | reply => return reply

/-- For a call whose reply does not matter, not even a failure. -/
def attempt (command : Command) : Op Unit := do
  let _ ← ExceptT.lift (Prog.invoke command)

def refuse {α : Type} (code : RecordingsErrorCode) (message : String) : Op α :=
  throw (.recordings ⟨code, message, none⟩)

def collectFacts : Op RecordingsFacts := do
  match ← ask .collectFacts with
  | .facts facts => return facts
  | _ => throw .other

def loadRecordingsAllocations : Op (List AllocationRecord) := do
  match ← ask .loadRecordingsAllocations with
  | .rows rows => return rows
  | _ => throw .other

def transition (id : RowId) (from_ : List AllocationStatus) (data : RowUpdate) : Op Bool := do
  match ← ask (.updateMany id (some from_) data) with
  | .count count => return 0 < count
  | _ => return false

def updateRow (id : RowId) (data : RowUpdate) : Op Unit := do
  let _ ← ask (.updateMany id none data)

def create (fsUuid : String) (mode : AllocationMode) (reservedBytes : ℕ) : Op AllocationRecord := do
  match ← ask (.create fsUuid mode reservedBytes) with
  | .created row => return row
  | _ => throw .other

def deleteMany (doomed : AllocationRecord → Bool) : Op Unit := do
  let _ ← ask (.deleteMany doomed)

def now : Op ℤ := do
  match ← ask .now with
  | .instant instant => return instant
  | _ => throw .other

def audit (severity : Severity) (what : String) (actor : RecordingsActor)
    (refs : List (String × Ref)) : Op Unit := attempt (.recordActivity severity what actor refs)

def tell (of : RowId) (title body : String) : Op Unit := attempt (.notifyOwners of title body)

def retentionUnavailable (facts : RecordingsFacts) : Bool := facts.sizing.retentionKnown = some false

def requireKnownRetention (facts : RecordingsFacts) : Op Unit :=
  if retentionUnavailable facts then
    refuse .busy "Frigate's recording retention settings are unavailable; try again when Frigate is reachable"
  else return

def Observation.recordsOnto (observation : Observation) : Option String :=
  match observation.host with
  | none => none
  | some h => if h.kind ≠ .path ∨ ¬ h.mounted then none else h.fsUuid

variable (arithmetic : Arithmetic)

def liveRow (facts : RecordingsFacts) : Option AllocationRecord :=
  facts.recordsOnto.bind fun fsUuid =>
    facts.allocations.find? fun r => arithmetic.toLowerCase r.fsUuid = arithmetic.toLowerCase fsUuid

def driveOf (facts : RecordingsFacts) (fsUuid : String) : Option RecordingsDriveCandidate :=
  facts.drives.find? fun d => d.fsUuid = fsUuid && d.mounted

inductive Action where
  | none
  | bridge_unavailable
  | no_eligible_drive
  | created
  | applied_and_migrating
  | migration_running
  | migration_done
  | migration_failed
  | marked_missing
  | recovered
  | grew
  | degraded
  deriving DecidableEq

def Action.text : Action → String
  | .none => "none"
  | .bridge_unavailable => "bridge_unavailable"
  | .no_eligible_drive => "no_eligible_drive"
  | .created => "created"
  | .applied_and_migrating => "applied_and_migrating"
  | .migration_running => "migration_running"
  | .migration_done => "migration_done"
  | .migration_failed => "migration_failed"
  | .marked_missing => "marked_missing"
  | .recovered => "recovered"
  | .grew => "grew"
  | .degraded => "degraded"

structure ReconcileOutcome where
  action : Action
  detail : Option String := Option.none

def outcomeOfBridgeError (failure : Failure) (step : String) : Op ReconcileOutcome :=
  match failure with
  | .recordings error =>
    if error.code = .bridge_unavailable then return ⟨.bridge_unavailable, some step⟩
    else return ⟨.none, some (step ++ ": " ++ error.hostCode.getD error.code.text)⟩
  | failure => throw failure

def startUnlessBusy (w : AllocationRecord) : Op Unit :=
  tryCatch (do let _ ← ask (.startMigration w.id w.fsUuid)) fun failure =>
    match failure with
    | .recordings ⟨.busy, _, _⟩ => return
    | failure => throw failure

def prepareAndMigrate (w : AllocationRecord) : Op Unit := do
  let _ ← ask (.applyNvrTarget w.fsUuid (if w.mode = .FULL then none else some w.reservedBytes))
  startUnlessBusy w
  let _ ← transition w.id [.PENDING] { status := some .MIGRATING }

def startWork (w : AllocationRecord) : Op ReconcileOutcome :=
  if w.migrationFailures > MAX_AUTO_RETRIES then
    return ⟨.none, some "automatic retries are exhausted — waiting for the owner"⟩
  else
    tryCatch (do prepareAndMigrate w; return ⟨.applied_and_migrating, none⟩) fun failure =>
      outcomeOfBridgeError failure "prepare"

def complete (w : AllocationRecord) : Op ReconcileOutcome := do
  let flipped ← transition w.id [.MIGRATING]
    { status := some .ACTIVE, migrationFailures := some 0, lastFailureAt := some none }
  if !flipped then return ⟨.none, some "row changed under the tick"⟩
  deleteMany fun row => row.id ≠ w.id
  audit .info "Camera recordings moved to the protected drive" .system
    [("fsUuid", .text (some w.fsUuid))]
  tell w.id TITLE_MOVED
    ("Droplet moved your camera recordings onto the encrypted drive it set aside for them. " ++
      "Your earlier footage is kept on the system drive until you choose to delete it.")
  return ⟨.migration_done, none⟩

def failed (w : AllocationRecord) (m : NvrMigrationStatus) : Op ReconcileOutcome := do
  let failures := w.migrationFailures + 1
  let exhausted := failures > MAX_AUTO_RETRIES
  let instant ← now
  let moved ← transition w.id [.MIGRATING]
    { status := some (if exhausted then .PENDING else .DEGRADED)
      migrationFailures := some failures
      lastFailureAt := some (some instant) }
  if !moved then return ⟨.none, some "row changed under the tick"⟩
  audit .warn "Moving camera recordings to the protected drive failed" .system
    [("fsUuid", .text (some w.fsUuid)), ("errorCode", .text m.errorCode),
      ("attempt", .number failures), ("willRetry", .flag (!exhausted))]
  if exhausted then
    tell w.id TITLE_MOVE_GAVE_UP
      ("Moving your camera recordings to the encrypted drive failed several times, so they are " ++
        "still on the system drive. Open Storage to see why and to try again.")
    return ⟨.migration_failed, m.errorCode⟩
  else return ⟨.migration_failed, m.errorCode⟩

/-- No record of this move: it is started again. -/
def restartMigration (w : AllocationRecord) : Op ReconcileOutcome :=
  tryCatch (do startUnlessBusy w; return ⟨.migration_running, some "restarted"⟩) fun failure =>
    outcomeOfBridgeError failure "restart migration"

def onMigrationState (w : AllocationRecord) (m : Option NvrMigrationStatus) : Op ReconcileOutcome :=
  match m with
  | none => return ⟨.none, some "migration status unavailable"⟩
  | some m =>
    if m.job = some .migrate ∧ m.state = .running then return ⟨.migration_running, none⟩
    else if m.job = some .migrate ∧ m.state = .done then complete w
    else if m.job = some .migrate ∧ m.state = .failed then failed w m
    else if m.job = some .delete_old ∧ m.state = .running then return ⟨.migration_running, none⟩
    else restartMigration w

def createFirst (facts : RecordingsFacts) : Op ReconcileOutcome :=
  if retentionUnavailable facts then return ⟨.none, some WAITING_FOR_RETENTION⟩
  else
    match pickRecordingsDrive arithmetic facts.drives with
    | none => return ⟨.no_eligible_drive, none⟩
    | some drive =>
      let reserved := initialReservedBytes facts.sizing.needTotalBytes drive.freeBytes
      let created : Op (Option AllocationRecord) :=
        tryCatch (do return some (← create drive.fsUuid .AUTO_RESERVED reserved)) fun failure =>
          if failure = .uniqueViolation then return none else throw failure
      do
        let some row ← created | return ⟨.none, some "row already exists"⟩
        audit .info "Camera recordings allocation created" .system
          [("fsUuid", .text (some drive.fsUuid))]
        tell row.id TITLE_SETTING_ASIDE
          ("Droplet found an encrypted storage drive, set aside space on it for camera recordings, " ++
            "and is moving your existing footage there. Your cameras keep recording while it moves.")
        let started ← startWork row
        return ⟨.created, some started.action.text⟩

def retryDelay (migrationFailures : ℕ) : ℤ :=
  (RETRY_DELAYS_MS[min (max migrationFailures 1) MAX_AUTO_RETRIES - 1]?).getD 0

def stillWaits (cur : AllocationRecord) (facts : RecordingsFacts) : Bool :=
  match cur.lastFailureAt with
  | none => false
  | some last => facts.instant - last < retryDelay cur.migrationFailures

def handleDegraded (cur : AllocationRecord) (facts : RecordingsFacts) : Op ReconcileOutcome :=
  if stillWaits cur facts then return ⟨.none, some "waiting to retry the move"⟩
  else if retentionUnavailable facts then return ⟨.none, some WAITING_FOR_RETENTION⟩
  else do
    if !(← transition cur.id [.DEGRADED] { status := some .PENDING }) then return ⟨.none, none⟩
    startWork { cur with status := .PENDING }

/-- The row says bay drive, the host does not record there. -/
def handleDrifted (cur : AllocationRecord) (facts : RecordingsFacts) : Op ReconcileOutcome := do
  if !(← transition cur.id [.ACTIVE] { status := some .PENDING }) then return ⟨.none, none⟩
  if retentionUnavailable facts then return ⟨.none, some WAITING_FOR_RETENTION⟩
  startWork { cur with status := .PENDING }

def handlePending (cur : AllocationRecord) (recovered : Bool) (facts : RecordingsFacts) :
    Op ReconcileOutcome :=
  if retentionUnavailable facts then return ⟨.none, some WAITING_FOR_RETENTION⟩
  else do
    let out ← startWork cur
    if recovered && out.action = .applied_and_migrating then return ⟨.recovered, none⟩
    return out

def handlePresent (cur : AllocationRecord) (recovered : Bool) (facts : RecordingsFacts) :
    Op ReconcileOutcome :=
  match cur.status with
  | .MIGRATING => onMigrationState cur facts.migration
  | .DEGRADED => handleDegraded cur facts
  | .ACTIVE => handleDrifted cur facts
  | .PENDING | .MISSING => handlePending cur recovered facts

def handleWork (w : AllocationRecord) (facts : RecordingsFacts) : Op ReconcileOutcome :=
  if (driveOf facts w.fsUuid).isNone then
    if w.status = .MISSING then return ⟨.none, some "drive absent"⟩
    else do
      let _ ← transition w.id [w.status] { status := some .MISSING }
      return ⟨.marked_missing, none⟩
  else if w.status = .MISSING then do
    if ← transition w.id [.MISSING] { status := some .PENDING } then
      handlePresent { w with status := .PENDING } true facts
    else handlePresent w false facts
  else handlePresent w false facts

/-- The size of the live slice: what was done, and whether there is no room. -/
def resizeLive (live : AllocationRecord) (d : RecordingsDriveCandidate) (facts : RecordingsFacts)
    (outcome : ReconcileOutcome) : Op (ReconcileOutcome × Bool) :=
  let used := facts.host.bind NvrHostStatus.usedBytes
  let fsFree := (facts.host.bind NvrHostStatus.fsFreeBytes).getD d.freeBytes
  let fsSize := (facts.host.bind NvrHostStatus.fsSizeBytes).getD d.sizeBytes
  if live.mode = .FULL then
    match facts.host.bind NvrHostStatus.limitBytes with
    | none => return (outcome, false)
    | some limit =>
      if limit < fsSize then do
        let _ ← ask (.resizeNvr fsSize)
        let _ ← transition live.id [live.status] { reservedBytes := some fsSize }
        return (outcome, false)
      else return (outcome, false)
  else if retentionUnavailable facts then return (outcome, false)
  else
    match growthDecision arithmetic live.reservedBytes facts.sizing.needTotalBytes used fsFree fsSize with
    | .grow targetBytes isPartial _ => do
        let _ ← ask (.resizeNvr targetBytes)
        let _ ← transition live.id [live.status] { reservedBytes := some targetBytes }
        return (⟨.grew, some (toString targetBytes)⟩, isPartial)
    | .degrade reason => return (⟨.degraded, some reason⟩, true)
    | .none _ => return (outcome, false)

/-- A refused resize keeps the size; `none` where the bridge cannot be reached. -/
def tryResize (live : AllocationRecord) (d : RecordingsDriveCandidate) (facts : RecordingsFacts)
    (outcome : ReconcileOutcome) : Op (Option (ReconcileOutcome × Bool)) :=
  tryCatch (do return some (← resizeLive arithmetic live d facts outcome)) fun failure =>
    match failure with
    | .recordings error =>
      let detail := "resize: " ++ error.hostCode.getD error.code.text
      if error.code = .bridge_unavailable then return none
      else return some (⟨.degraded, some detail⟩, true)
    | failure => throw failure

/-- A failing or read-only drive is degraded, never moved away from. -/
def desiredStatus (live : AllocationRecord) (d : RecordingsDriveCandidate) (facts : RecordingsFacts)
    (growthBlocked : Bool) : AllocationStatus :=
  if d.readOnly || d.smart = some .FAILED || growthBlocked then .DEGRADED
  else if retentionUnavailable facts && live.mode = .AUTO_RESERVED then live.status
  else .ACTIVE

def settleLive (live : AllocationRecord) (d : RecordingsDriveCandidate) (facts : RecordingsFacts)
    (outcome : ReconcileOutcome) (growthBlocked : Bool) : Op ReconcileOutcome :=
  let desired := desiredStatus live d facts growthBlocked
  if live.status = desired then return outcome
  else do
    let _ ← transition live.id [live.status] { status := some desired }
    if outcome.action = .none then
      return ⟨if desired = .DEGRADED then .degraded else .recovered, none⟩
    return outcome

def handleLive (live : AllocationRecord) (facts : RecordingsFacts) : Op ReconcileOutcome :=
  match driveOf facts live.fsUuid with
  | none =>
    if live.status = .MISSING then return ⟨.none, some "drive absent"⟩
    else do
      let _ ← transition live.id [live.status] { status := some .MISSING }
      return ⟨.marked_missing, none⟩
  | some d => do
      let outcome : ReconcileOutcome :=
        if live.status = .MISSING then ⟨.recovered, none⟩ else ⟨.none, none⟩
      let some resized ← tryResize arithmetic live d facts outcome
        | return ⟨.bridge_unavailable, some "resize"⟩
      settleLive live d facts resized.1 resized.2

def workRow (facts : RecordingsFacts) : Option AllocationRecord :=
  facts.allocations.find? fun r => some r.id ≠ (liveRow arithmetic facts).map AllocationRecord.id

def tick (facts : RecordingsFacts) : Op ReconcileOutcome :=
  if facts.hostError.isSome || facts.drivesError.isSome then
    return ⟨.bridge_unavailable, facts.hostError.or facts.drivesError⟩
  else if facts.allocations.isEmpty then createFirst arithmetic facts
  else
    match workRow arithmetic facts with
    | some work => handleWork work facts
    | none =>
      match liveRow arithmetic facts with
      | some live => handleLive arithmetic live facts
      | none => return ⟨.none, none⟩

/-- With the lock held. -/
def reconcile : Op ReconcileOutcome := do
  let facts ← collectFacts
  tick arithmetic facts

/-- The status of the job, `none` where it cannot be had. -/
def migrationStatus : Op (Option NvrMigrationStatus) :=
  tryCatch (do
    match ← ask .getMigration with
    | .migration status => return some status
    | _ => return none) fun _ => return none

def pollMigration : Op Unit := do
  let rows ← loadRecordingsAllocations
  let some w := rows.find? fun r => r.status = .MIGRATING | return
  let some m ← migrationStatus | return
  let _ ← onMigrationState w (some m)

def freshFacts : Op RecordingsFacts := do
  let facts ← collectFacts
  if facts.hostError.isSome || facts.drivesError.isSome then
    refuse .bridge_unavailable "the device-bridge cannot be reached right now"
  return facts

/-- A row that the call created is taken back where the move cannot be started. -/
def prepareCreated (row : AllocationRecord) : Op Unit :=
  tryCatch (prepareAndMigrate row) fun failure => do
    deleteMany fun other => other.id = row.id
    throw failure

def AllocationMode.name : AllocationMode → String
  | .FULL => "full"
  | .AUTO_RESERVED => "auto_reserved"

/-- The retention a size is computed from is known. -/
def requireSized (mode : AllocationMode) (facts : RecordingsFacts) : Op Unit :=
  if mode = .AUTO_RESERVED then requireKnownRetention facts else return

def reservedOn (mode : AllocationMode) (drive : RecordingsDriveCandidate) (facts : RecordingsFacts) : ℕ :=
  if mode = .FULL then drive.sizeBytes
  else initialReservedBytes facts.sizing.needTotalBytes drive.freeBytes

def eligibleDrive (facts : RecordingsFacts) (fsUuid : String) : Op RecordingsDriveCandidate :=
  match facts.drives.find? fun d => d.fsUuid = fsUuid with
  | none => refuse .not_eligible "that drive cannot hold camera recordings"
  | some drive =>
    if isEligibleRecordingsDrive arithmetic drive then return drive
    else refuse .not_eligible "that drive cannot hold camera recordings"

/-- The row of the drive, anew. -/
def retarget (existing : AllocationRecord) (mode : AllocationMode) (reserved : ℕ) : Op Unit := do
  updateRow existing.id
    { mode := some mode, reservedBytes := some reserved, status := some .PENDING
      migrationFailures := some 0, lastFailureAt := some none }
  prepareAndMigrate { existing with
    mode := mode, reservedBytes := reserved, status := .PENDING
    migrationFailures := 0, lastFailureAt := none }

def createTarget (fsUuid : String) (mode : AllocationMode) (reserved : ℕ) : Op Unit := do
  let row ← create fsUuid mode reserved
  prepareCreated row

def setDrive (facts : RecordingsFacts) (fsUuid : String) (wantMode : Option AllocationMode)
    (actor : RecordingsActor) : Op Unit := do
  let live := liveRow arithmetic facts
  let drive ← eligibleDrive arithmetic facts fsUuid
  let mode := (wantMode.or (live.map AllocationRecord.mode)).getD .AUTO_RESERVED
  requireSized mode facts
  let reserved := reservedOn mode drive facts
  let existing := facts.allocations.find? fun r => r.fsUuid = fsUuid
  -- a superseded target is dropped; the live row stays until the new drive is confirmed
  deleteMany fun row => row.fsUuid ≠ fsUuid && some row.id ≠ live.map AllocationRecord.id
  match existing with
  | some existing => retarget existing mode reserved
  | none => createTarget drive.fsUuid mode reserved
  audit .info "Camera recordings drive changed" actor
    [("fsUuid", .text (some drive.fsUuid)), ("mode", .text (some mode.name))]

def requireDrive (drive : Option RecordingsDriveCandidate) (code : RecordingsErrorCode)
    (message : String) : Op RecordingsDriveCandidate :=
  match drive with
  | some drive => return drive
  | none => refuse code message

/-- No live row: the first allocation, with the mode asked for, on the best drive. -/
def setFirst (facts : RecordingsFacts) (wantMode : AllocationMode) (actor : RecordingsActor) :
    Op Unit := do
  let drive ← requireDrive (pickRecordingsDrive arithmetic facts.drives) .no_allocation
    "there is no eligible drive for camera recordings"
  requireSized wantMode facts
  createTarget drive.fsUuid wantMode (reservedOn wantMode drive facts)
  audit .info "Camera recordings allocation created" actor
    [("fsUuid", .text (some drive.fsUuid)), ("mode", .text (some wantMode.name))]

def setMode (facts : RecordingsFacts) (live : AllocationRecord) (wantMode : AllocationMode)
    (actor : RecordingsActor) : Op Unit := do
  let d ← requireDrive (driveOf facts live.fsUuid) .not_eligible
    "the recordings drive is not available"
  requireSized wantMode facts
  let fsSize := (facts.host.bind NvrHostStatus.fsSizeBytes).getD d.sizeBytes
  let target :=
    if wantMode = .FULL then fsSize
    else reservedForMode arithmetic .AUTO_RESERVED facts.sizing.needTotalBytes
      ((facts.host.bind NvrHostStatus.usedBytes).getD 0) fsSize
      ((facts.host.bind NvrHostStatus.fsFreeBytes).getD d.freeBytes)
  let _ ← ask (.resizeNvr target)
  updateRow live.id { mode := some wantMode, reservedBytes := some target }
  audit .info "Camera recordings size mode changed" actor
    [("fsUuid", .text (some live.fsUuid)), ("mode", .text (some wantMode.name))]

def retryMove (stuck : AllocationRecord) (actor : RecordingsActor) : Op Unit := do
  let _ ← transition stuck.id [stuck.status]
    { status := some .PENDING, migrationFailures := some 0, lastFailureAt := some none }
  prepareAndMigrate { stuck with
    status := .PENDING, migrationFailures := 0, lastFailureAt := none }
  audit .info "Camera recordings move retried" actor [("fsUuid", .text (some stuck.fsUuid))]

structure SetAllocationRequest where
  mode : Option AllocationMode
  fsUuid : Option String

def noChange {α : Type} : Op α := refuse .no_change "recordings are already set that way"

def currentRow (facts : RecordingsFacts) : Option AllocationRecord :=
  (liveRow arithmetic facts).or (if facts.allocations.isEmpty then none else facts.allocation)

def otherDrive (facts : RecordingsFacts) (req : SetAllocationRequest) : Option String :=
  if req.fsUuid = (liveRow arithmetic facts).map AllocationRecord.fsUuid then none else req.fsUuid

def stuckRow (facts : RecordingsFacts) (req : SetAllocationRequest) : Option AllocationRecord :=
  req.fsUuid.bind fun fsUuid => facts.allocations.find? fun r =>
    r.fsUuid = fsUuid && some r.id ≠ (liveRow arithmetic facts).map AllocationRecord.id

def setFromFacts (facts : RecordingsFacts) (req : SetAllocationRequest) (actor : RecordingsActor) :
    Op Unit :=
  match otherDrive arithmetic facts req with
  | some fsUuid => setDrive arithmetic facts fsUuid req.mode actor
  | none =>
    match req.mode with
    | some wantMode =>
      if (currentRow arithmetic facts).map AllocationRecord.mode = some wantMode then noChange
      else
        match liveRow arithmetic facts with
        | none => setFirst arithmetic facts wantMode actor
        | some live => setMode arithmetic facts live wantMode actor
    | none =>
      match stuckRow arithmetic facts req with
      | none => noChange
      | some stuck =>
        if stuck.migrationFailures > 0 ∨ stuck.status ≠ .MIGRATING then retryMove stuck actor
        else noChange

def requireIdle (facts : RecordingsFacts) : Op Unit :=
  if facts.migration.map NvrMigrationStatus.state = some .running then
    refuse .busy "a storage operation is already running"
  else return

def setAllocation (req : SetAllocationRequest) (actor : RecordingsActor) : Op Unit := do
  let facts ← freshFacts
  requireIdle facts
  setFromFacts arithmetic facts req actor

def requireOldFootage (facts : RecordingsFacts) : Op OldSource :=
  match facts.migration.bind NvrMigrationStatus.oldSource with
  | none => refuse .no_old_footage "there is no earlier footage to delete"
  | some old =>
    if old.deleted then refuse .no_old_footage "there is no earlier footage to delete"
    else return old

def deleteOldFootage (actor : RecordingsActor) : Op Unit := do
  let facts ← freshFacts
  let old ← requireOldFootage facts
  requireIdle facts
  let _ ← ask .deleteOldFootage
  audit .warn "Earlier camera footage on the previous location is being deleted" actor
    [("bytes", .number old.bytes)]

end Droplet.Recordings
