import Droplet.Confirm.Store
import Droplet.Lib.JsText

/-! The decision about a tool call, made before its handler runs (`tools-core/src/interceptor.ts`). -/

namespace Droplet.Confirm

open Json Lib

inductive ConfirmationOwner where
  | interceptor
  | route
  deriving DecidableEq

structure InterceptableTool where
  name : String
  requiresConfirmation : Bool
  requiresWrite : Option Bool := none
  inputSchema : Option Value := none
  confirmationOwner : Option ConfirmationOwner := none

def confirmationOwnerOf (tool : InterceptableTool) : ConfirmationOwner :=
  tool.confirmationOwner.getD .interceptor

structure DenyReason where
  code : String
  message : String

abbrev DenyRule := InterceptableTool → Args → Option DenyReason

abbrev RuntimeDenyTier := InsertionMap String DenyRule

/-- The first matching rule wins. -/
def RuntimeDenyTier.evaluate (tier : RuntimeDenyTier) (tool : InterceptableTool) (args : Args) :
    Option DenyReason :=
  tier.entries.findSome? fun rule => rule.2 tool args

def READ_ONLY_TOOL_NAMESPACES : List String := []

/-- What an interceptor is made with, and the letters `toLowerCase` gives. -/
structure Options where
  store : StoreOptions
  toLowerCase : String → String
  readOnlyNamespaces : List String := READ_ONLY_TOOL_NAMESPACES

def breachMessage (tool space : String) : String :=
  "'" ++ tool ++ "' is in the read-only '" ++ space ++ "' namespace, and the assistant only " ++
    "reads there: it never writes or asks for a confirmation. " ++
    "Nothing about this call was attempted, and no approval changes that."

/-- A reason to refuse, or `none` outside every read-only namespace and for a read. -/
def readOnlyNamespaceBreach (options : Options) (tool : InterceptableTool) : Option DenyReason :=
  let name := options.toLowerCase (JsText.trim tool.name)
  match options.readOnlyNamespaces.find? fun space => space.toList.isPrefixOf name.toList with
  | none => none
  | some space =>
    if space = "" then none
    else if tool.requiresWrite = some false && !tool.requiresConfirmation then none
    else some ⟨"read_only_namespace", breachMessage tool.name space⟩

inductive InterceptOutcome where
  | proceed (args : Args) (confirmationConsumed : Bool)
  | denied (reason : DenyReason)
  | confirmation_required (token : String) (expiresAt : ℤ)
  | confirmation_rejected (reason : ConfirmationRedeemFailure)

inductive OutcomeKind where
  | proceed
  | denied
  | confirmation_required
  | confirmation_rejected
  deriving DecidableEq

def InterceptOutcome.kind : InterceptOutcome → OutcomeKind
  | .proceed _ _ => .proceed
  | .denied _ => .denied
  | .confirmation_required _ _ => .confirmation_required
  | .confirmation_rejected _ => .confirmation_rejected

/-- Does this tool's input schema declare a `confirmed` property? -/
def declaresConfirmedFlag (tool : InterceptableTool) : Bool :=
  match tool.inputSchema >>= field "properties" with
  | some (.obj members) => members.any fun member => member.1 = "confirmed"
  | _ => false

/-- `{ ...args, confirmed: true }`. -/
def withConfirmed (args : Args) : Args :=
  if args.any fun member => member.1 = "confirmed" then
    args.map fun member => if member.1 = "confirmed" then ("confirmed", .bool true) else member
  else args ++ [("confirmed", .bool true)]

/-- `intercept`; `random` is the token a mint would take. -/
def intercept (options : Options) (pending : Pending) (tier : RuntimeDenyTier)
    (tool : InterceptableTool) (args : Args) (presented : Option String) (now : ℤ) (random : String) :
    Pending × InterceptOutcome :=
  match readOnlyNamespaceBreach options tool with
  | some breach => (pending, .denied breach)
  | none =>
  match tier.evaluate tool args with
  | some denied => (pending, .denied denied)
  | none =>
  if !tool.requiresConfirmation then (pending, .proceed args false)
  else if confirmationOwnerOf tool = .route then (pending, .proceed args false)
  else
    match presented.filter (· ≠ "") with
    | some token =>
      match pending.redeem options.store token tool.name args now with
      | (next, .error reason) => (next, .confirmation_rejected reason)
      | (next, .ok _) =>
        (next, .proceed (if declaresConfirmedFlag tool then withConfirmed args else args) true)
    | none =>
      let (next, minted) := pending.mint options.store tool.name args now random
      (next, .confirmation_required minted.token minted.expiresAt)

structure State where
  pending : Pending
  tier : RuntimeDenyTier

def State.start (tier : RuntimeDenyTier) : State := ⟨InsertionMap.empty, tier⟩

/-- What is called on one interceptor, its store and its deny tier. -/
inductive Event where
  | intercept (tool : InterceptableTool) (args : Args) (presented : Option String) (now : ℤ)
      (random : String)
  | mint (toolName : String) (args : Args) (now : ℤ) (random : String)
  | redeem (token toolName : String) (args : Args) (now : ℤ)
  | sweepExpired (now : ℤ)
  | addRule (id : String) (rule : DenyRule)
  | removeRule (id : String)
  | clearRules

/-- What a call returns. -/
inductive Answer where
  | intercepted (outcome : InterceptOutcome)
  | minted (confirmation : MintedConfirmation)
  | redeemed (result : Except ConfirmationRedeemFailure ℤ)
  | swept (dropped : ℕ)
  | done

def State.step (options : Options) (state : State) : Event → State × Answer
  | .intercept tool args presented now random =>
    let (pending, outcome) :=
      Confirm.intercept options state.pending state.tier tool args presented now random
    ({ state with pending }, .intercepted outcome)
  | .mint toolName args now random =>
    let (pending, confirmation) := state.pending.mint options.store toolName args now random
    ({ state with pending }, .minted confirmation)
  | .redeem token toolName args now =>
    let (pending, result) := state.pending.redeem options.store token toolName args now
    ({ state with pending }, .redeemed result)
  | .sweepExpired now =>
    let (pending, dropped) := state.pending.sweepExpired now
    ({ state with pending }, .swept dropped)
  | .addRule id rule => ({ state with tier := InsertionMap.set state.tier id rule }, .done)
  | .removeRule id => ({ state with tier := InsertionMap.delete state.tier id }, .done)
  | .clearRules => ({ state with tier := InsertionMap.empty }, .done)

def State.run (options : Options) (state : State) : List Event → State × List (Event × Answer)
  | [] => (state, [])
  | event :: rest =>
    let (next, answer) := state.step options event
    let (last, log) := next.run options rest
    (last, (event, answer) :: log)

end Droplet.Confirm
