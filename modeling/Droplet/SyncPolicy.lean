import Droplet.Lib.JsText

/-! What to do about a failed sync (`services/m365/sync-policy.ts`), for every vendor alike. -/

namespace Droplet.SyncPolicy

inductive SyncFailureKind where
  /-- Back off and retry. -/
  | TRANSIENT
  /-- The position is dead. -/
  | RESYNC_REQUIRED
  /-- The grant is dead. -/
  | AUTH
  | FATAL
  deriving DecidableEq

/-- The error shape clients surface. -/
structure SyncFailureLike where
  statusCode : Option ℤ := none
  code : Option String := none

def RESYNC_CODES : List String :=
  ["syncStateNotFound", "resyncRequired", "resyncChangesApplyDifferences",
    "resyncChangesUploadDifferences"]

def TRANSIENT_CODES : List String :=
  ["ETIMEDOUT", "ECONNRESET", "ECONNREFUSED", "ENOTFOUND", "EAI_AGAIN", "EPIPE", "ENETUNREACH"]

def HANDLER_FAILED_CODE : String := "HANDLER_FAILED"

def TOKEN_UNAVAILABLE_CODE : String := "TOKEN_UNAVAILABLE"

def LOCAL_RETRY_CODES : List String := [HANDLER_FAILED_CODE, TOKEN_UNAVAILABLE_CODE]

def classifySyncFailure (err : SyncFailureLike) : SyncFailureKind :=
  let code := JsText.trim (err.code.getD "")
  let status := err.statusCode
  if code ≠ "" && RESYNC_CODES.contains code then .RESYNC_REQUIRED
  else if status = some 410 then .RESYNC_REQUIRED
  else if code ≠ "" && TRANSIENT_CODES.contains code then .TRANSIENT
  else if code ≠ "" && LOCAL_RETRY_CODES.contains code then .TRANSIENT
  else if status = some 429 then .TRANSIENT
  else if status.any fun n => 500 ≤ n && n ≤ 599 then .TRANSIENT
  else if status = some 401 || status = some 403 then .AUTH
  else .FATAL

end Droplet.SyncPolicy
