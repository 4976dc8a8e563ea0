import Droplet.Confirm.Binding

/-! Tool calls of a background run, and the texts they are answered with
(`services/agent-run-worker.service.ts`). -/

namespace Droplet.Runs

open Json Confirm

structure Call where
  id : String
  tool : String
  args : Args

structure ToolFlags where
  requiresWrite : Bool
  requiresConfirmation : Bool

/-- What a worker is set up with. `limits` are the same in every process. -/
structure Setting where
  sha256 : List Char → String
  catalog : String → Option ToolFlags
  workspaceTools : List String
  /-- `malformedToolOutputText` is not `null`: a local tool's output that does not parse. -/
  malformed : String → String → Bool
  reclaimAfterMs : ℤ
  maxAttempts : ℕ
  maxWallMs : ℤ
  maxIterCap : ℕ

section Tools

variable (setting : Setting)

def isCatalogRead (tool : String) : Bool :=
  match setting.catalog tool with
  | some entry => !entry.requiresWrite && !entry.requiresConfirmation
  | none => false

inductive Confirmation where
  | parked
  | confirmed
  | denied
  deriving DecidableEq

/-- May this lost call be dispatched a second time? -/
def redispatchSafe (tool : String) (prior : Option Confirmation) : Bool :=
  if isCatalogRead setting tool then true
  else
    match setting.catalog tool with
    | none => false
    | some entry =>
      if setting.workspaceTools.contains tool && !entry.requiresConfirmation then true
      else if !entry.requiresConfirmation then false
      else prior ≠ some .confirmed

end Tools

/-- Any `status: "confirmation_required"` envelope. -/
def isConfirmationEnvelope (text : String) : Bool :=
  match Json.parse text.toList with
  | some parsed => match parsed.field "status" with
    | some (.str status) => status = "confirmation_required"
    | _ => false
  | none => false

def interceptorBlock (parsed : Value) : Option Value :=
  parsed.field "error" >>= field "details" >>= field "interceptor"

def interceptorTokenOf (text : String) : Option String :=
  if isConfirmationEnvelope text then
    match (Json.parse text.toList >>= interceptorBlock) with
    | some block =>
      match block.field "outcome", block.field "confirmationToken" with
      | some (.str outcome), some (.str token) =>
        if outcome = "confirmation_required" && token ≠ "" then some token else none
      | _, _ => none
    | none => none
  else none

def change (key : String) (edit : Value → Value) : Value → Value
  | .obj members =>
    .obj (members.map fun (name, value) => (name, if name = key then edit value else value))
  | value => value

def dropped : Value → Value := fun _ => .str "[dropped]"

def scrubInterceptorToken (text : String) : String :=
  match interceptorTokenOf text, Json.parse text.toList with
  | some _, some parsed =>
    String.ofList (Json.text
      (change "error" (change "details"
        (change "interceptor" (change "confirmationToken" dropped) ∘
          change "confirmationToken" dropped)) parsed))
  | _, _ => text

def errorText (code message : String) : String :=
  String.ofList (text (.obj [("status", .str "error"),
    ("error", .obj [("code", .str code), ("message", .str message)])]))

def deniedResultText (tool : String) : String :=
  errorText "CONFIRMATION_DENIED"
    ("The user declined '" ++ tool ++ "' for this run. Do not retry it; " ++
      "adapt, or finish with what you have and say what was not done.")

def alreadyRunText (tool : String) : String :=
  errorText "REPEATED_CALL"
    ("'" ++ tool ++ "' was approved by the user and has already run with these exact arguments; " ++
      "its result is in the conversation above. Do not call it again — use that result or finish.")

def mismatchText (tool : String) : String :=
  errorText "APPROVED_CALL_MISMATCH"
    ("The approved '" ++ tool ++ "' call no longer matches what was parked, so it was not run. " ++
      "Do not retry it; finish and say what was not done.")

def unavailableText (tool : String) : String :=
  errorText "TOOL_UNAVAILABLE"
    ("'" ++ tool ++ "' is no longer available to this run, so the approved call was not run. " ++
      "Do not retry it; finish and say what was not done.")

end Droplet.Runs
