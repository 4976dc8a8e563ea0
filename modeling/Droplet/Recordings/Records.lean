import Mathlib

/-! Allocation rows and host facts (`recordings.types.ts`, `recordings-capacity.ts`,
`recordings-eligibility.ts`, `recordings-sizing.ts`). Bytes are naturals, instants are milliseconds. -/

namespace Droplet.Recordings

abbrev RowId := ℕ

inductive AllocationMode where
  | AUTO_RESERVED
  | FULL
  deriving DecidableEq

inductive AllocationStatus where
  | PENDING
  | MIGRATING
  | ACTIVE
  | DEGRADED
  | MISSING
  deriving DecidableEq

/-- A row of `StorageAllocation`; its role is always `RECORDINGS`. -/
structure AllocationRecord where
  id : RowId
  fsUuid : String
  mode : AllocationMode
  reservedBytes : ℕ
  status : AllocationStatus
  migrationFailures : ℕ
  lastFailureAt : Option ℤ
  createdAt : ℤ
  updatedAt : ℤ

inductive DriveEncryption where
  | luks2
  | none
  | unknown
  deriving DecidableEq

inductive DrivePreparation where
  | prepared
  | needs_preparing
  | unknown
  deriving DecidableEq

inductive SmartVerdict where
  | PASSED
  | FAILED
  deriving DecidableEq

structure RecordingsDriveCandidate where
  fsUuid : String
  sizeBytes : ℕ
  freeBytes : ℕ
  mounted : Bool
  readOnly : Bool
  fsType : Option String
  encryption : DriveEncryption
  preparation : DrivePreparation
  isSystemDisk : Bool
  smart : Option SmartVerdict

inductive SourceKind where
  | volume
  | path
  deriving DecidableEq

structure NvrHostStatus where
  kind : SourceKind
  fsUuid : Option String
  mounted : Bool
  limitBytes : Option ℕ
  usedBytes : Option ℕ
  fsSizeBytes : Option ℕ
  fsFreeBytes : Option ℕ

inductive MigrationJobState where
  | idle
  | running
  | done
  | failed
  deriving DecidableEq

inductive MigrationJob where
  | migrate
  | delete_old
  deriving DecidableEq

structure OldSource where
  bytes : ℕ
  deleted : Bool
  deriving DecidableEq

structure NvrMigrationStatus where
  state : MigrationJobState
  job : Option MigrationJob
  errorCode : Option String
  oldSource : Option OldSource
  deriving DecidableEq

structure RecordingsSizing where
  retentionKnown : Option Bool
  needTotalBytes : ℕ

/-- What is asked of the host and of Frigate for one decision. -/
structure Observation where
  host : Option NvrHostStatus
  hostError : Option String
  migration : Option NvrMigrationStatus
  drives : List RecordingsDriveCandidate
  drivesError : Option String
  sizing : RecordingsSizing

structure RecordingsFacts extends Observation where
  /-- `at` -/
  instant : ℤ
  allocation : Option AllocationRecord
  allocations : List AllocationRecord

/-- What JavaScript makes of texts and of decimal fractions. -/
structure Arithmetic where
  toLowerCase : String → String
  /-- `<` of strings -/
  textBefore : String → String → Bool
  /-- `<` of row ids, which are UUIDs -/
  idBefore : RowId → RowId → Bool
  /-- `need <= GROW_TRIGGER_RATIO * reserved` -/
  fits : ℕ → ℕ → Bool
  /-- `Math.ceil(need * GROW_TARGET_FACTOR)` -/
  growTarget : ℕ → ℕ
  /-- `Math.ceil(used * SHRINK_FLOOR_FACTOR)` -/
  shrinkFloor : ℕ → ℕ

variable (arithmetic : Arithmetic)

def NEED_FLOOR_BYTES : ℕ := 20 * 1073741824

def MIN_RECORDINGS_FREE_BYTES : ℕ := NEED_FLOOR_BYTES

inductive IneligibleReason where
  | not_mounted
  | read_only
  | not_encrypted
  | not_prepared
  | system_disk
  | smart_failed
  | not_ext4
  | too_small

def ineligibleReasons (d : RecordingsDriveCandidate) : List IneligibleReason :=
  (if d.mounted then [] else [.not_mounted]) ++
  (if d.readOnly then [.read_only] else []) ++
  (if d.encryption = .luks2 then [] else [.not_encrypted]) ++
  (if d.preparation = .prepared then [] else [.not_prepared]) ++
  (if d.isSystemDisk then [.system_disk] else []) ++
  (if d.smart = some .FAILED then [.smart_failed] else []) ++
  (if (d.fsType.map arithmetic.toLowerCase).getD "ext4" = "ext4" then [] else [.not_ext4]) ++
  (if d.freeBytes < MIN_RECORDINGS_FREE_BYTES then [.too_small] else [])

def isEligibleRecordingsDrive (d : RecordingsDriveCandidate) : Bool :=
  (ineligibleReasons arithmetic d).isEmpty

/-- `byPreference(a, b) <= 0` -/
def driveNotAfter (a b : RecordingsDriveCandidate) : Bool :=
  if a.freeBytes ≠ b.freeBytes then b.freeBytes < a.freeBytes
  else if a.sizeBytes ≠ b.sizeBytes then b.sizeBytes < a.sizeBytes
  else arithmetic.textBefore a.fsUuid b.fsUuid || !arithmetic.textBefore b.fsUuid a.fsUuid

def pickRecordingsDrive (drives : List RecordingsDriveCandidate) : Option RecordingsDriveCandidate :=
  ((drives.filter (isEligibleRecordingsDrive arithmetic)).mergeSort (driveNotAfter arithmetic)).head?

/-- `byPreference(a, b) <= 0` -/
def rowNotAfter (a b : AllocationRecord) : Bool :=
  if (a.status = .ACTIVE) ≠ (b.status = .ACTIVE) then a.status = .ACTIVE
  else if a.updatedAt ≠ b.updatedAt then b.updatedAt < a.updatedAt
  else if a.createdAt ≠ b.createdAt then b.createdAt < a.createdAt
  else arithmetic.idBefore a.id b.id || !arithmetic.idBefore b.id a.id

/-- `loadRecordingsAllocations` -/
def inPreference (rows : List AllocationRecord) : List AllocationRecord :=
  rows.mergeSort (rowNotAfter arithmetic)

def inFlight (status : AllocationStatus) : Bool := status ≠ .ACTIVE

def selectSubjectAllocation (rows : List AllocationRecord) (hostFsUuid : Option String) :
    Option AllocationRecord :=
  let live := hostFsUuid.bind fun fsUuid => rows.find? fun r => r.fsUuid = fsUuid
  let target := rows.find? fun r =>
    some r.id ≠ live.map AllocationRecord.id ∧ inFlight r.status ∧ (live.isSome ∨ 1 < rows.length)
  (target.or live).or rows.head?

inductive GrowthDecision where
  | none (reason : String)
  | grow (targetBytes : ℕ) (isPartial : Bool) (reason : String)
  | degrade (reason : String)

def holdableBytes (usedBytes fsFreeBytes fsSizeBytes : ℕ) : ℕ := min fsSizeBytes (usedBytes + fsFreeBytes)

/-- For a row that is not `FULL`. -/
def growthDecision (reservedBytes needTotalBytes : ℕ) (usedBytes : Option ℕ)
    (fsFreeBytes fsSizeBytes : ℕ) : GrowthDecision :=
  if arithmetic.fits needTotalBytes reservedBytes then
    .none "the measured need fits within the reserved size"
  else
    let targetBytes := arithmetic.growTarget needTotalBytes
    if targetBytes ≤ reservedBytes then
      .none "the grow target is not above the reserved size; a quota is never shrunk here"
    else
      match usedBytes with
      | Option.none => .none "filesystem figures unavailable"
      | some usedBytes =>
        let reachable := min targetBytes (holdableBytes usedBytes fsFreeBytes fsSizeBytes)
        if reachable ≤ reservedBytes then
          .degrade "the drive has no room to grow the reserved size"
        else if reachable < needTotalBytes then
          .grow reachable true "growing as far as the drive allows; still below the measured need"
        else .grow reachable false "growing to the measured need plus headroom"

def reservedForMode (mode : AllocationMode) (needTotalBytes usedBytes fsSizeBytes fsFreeBytes : ℕ) : ℕ :=
  match mode with
  | .FULL => fsSizeBytes
  | .AUTO_RESERVED =>
    min (holdableBytes usedBytes fsFreeBytes fsSizeBytes)
      (max needTotalBytes (arithmetic.shrinkFloor usedBytes))

def initialReservedBytes (needTotalBytes driveFreeBytes : ℕ) : ℕ := min needTotalBytes driveFreeBytes

end Droplet.Recordings
