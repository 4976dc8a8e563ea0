import Droplet.Filing.Undo
import Droplet.Lib.Histories
import Droplet.Lib.Stepping

/-! The calls of `applyProposal`, `rejectProposal`, `markNotSame` and `undoProposal` side by side, each cut
where it waits for the database or for the file check, and the automatic worker (`filing/auto-apply.ts`) that
makes such calls itself. -/

namespace Droplet.Filing

/-! ### Caps (`filing/caps.ts`) -/

structure CapState where
  appliedThisHour : ℕ
  createdToday : ℕ
  hourlyCap : ℕ
  dailyCap : ℕ
  hourlyReached : Bool
  dailyReached : Bool

def isCreate (kind : IngestProposalKind) : Bool := kind = .CREATE_CUSTOMER || kind = .CREATE_PROJECT

def capReachedFor (kind : IngestProposalKind) (caps : CapState) : Bool :=
  caps.hourlyReached || (isCreate kind && caps.dailyReached)

/-- The counters after one more apply. -/
def CapState.spend (caps : CapState) (kind : IngestProposalKind) : CapState :=
  let createdToday := if isCreate kind then caps.createdToday + 1 else caps.createdToday
  { caps with
    createdToday := createdToday
    appliedThisHour := caps.appliedThisHour + 1
    hourlyReached := caps.hourlyCap ≤ caps.appliedThisHour + 1
    dailyReached := caps.dailyCap ≤ createdToday }

def BOUNDED_MARKER : String := "so this one waits"

def AUTO_APPLY_PER_TICK : ℕ := 5

def RECONSIDER_LIMIT : ℕ := 25

def contains (text part : String) : Bool :=
  text.toList.tails.any fun tail => part.toList.isPrefixOf tail

/-- The proposals that `reconsiderBounded` may free; rows stand newest first. -/
def heldIds (db : Db) (caps : CapState) : List RowId :=
  let held := (db.proposals.findMany fun _ row => row.status = .PENDING && row.policyClass = .REVIEW &&
    row.policyReason.any fun reason => contains reason BOUNDED_MARKER).reverse
  ((held.take RECONSIDER_LIMIT).filter fun row => !capReachedFor row.2.kind caps).map Prod.fst

def freeHeld (db : Db) (ids : List RowId) : Db :=
  { db with
    proposals := db.proposals.updateMany
      (fun key row => ids.contains key && row.status = .PENDING && row.policyClass = .REVIEW)
      fun row => { row with policyClass := .AUTO, policyReason := none } }

def readyIds (db : Db) : List (RowId × IngestProposalKind) :=
  let ready := (db.proposals.findMany fun _ row =>
    row.status = .PENDING && row.policyClass = .AUTO).reverse
  (ready.take AUTO_APPLY_PER_TICK).map fun row => (row.1, row.2.kind)

/-- The refusals a tick walks past. -/
def isExpected (failure : Failure) : Bool :=
  failure ∈ [.NOT_PENDING, .SOURCE_CHANGED, .PAYLOAD_UNREADABLE, .NEVER_APPLIABLE, .CHOICE_REQUIRED,
    .CHOICE_NOT_OFFERED, .CUSTOMER_REQUIRED, .MONEY_MODULE_OFF, .PROPOSAL_NOT_FOUND]

inductive Call where
  | apply (id actorId : RowId) (chooseCompanyId : Option RowId)
  | reject (id actorId : RowId)
  | notSame (id companyId actorId : RowId)
  | undo (id actorId : RowId)

inductive CallStage where
  /-- Its first statement. -/
  | called (call : Call)
  /-- `resolveFileId` -/
  | source (id actorId : RowId) (chooseCompanyId : Option RowId) (pre : Preflight) (file : FileRef)
  | applyTransaction (id actorId : RowId) (chooseCompanyId : Option RowId) (pre : Preflight)
  | undoTransaction (id actorId : RowId) (proposal : IngestProposal)

/-- The time, the UUIDs drawn and, for the file check, the file id that is there. -/
structure Answer where
  now : Instant
  ids : NewIds
  resolved : Option ℕ

inductive Happened where
  /-- A statement that writes nothing. -/
  | reads
  | applied (id : RowId)
  | rejected (id : RowId)
  | notSame (id : RowId)
  | undone (id : RowId)
  | threw (failure : Failure)
  /-- A statement of the worker, or one outside filing. -/
  | other
  deriving DecidableEq

inductive Progress where
  | goes (stage : CallStage)
  | returns (db : Db) (what : Happened)

def serve (reading : Reading) (db : Db) (answer : Answer) : CallStage → Transaction Progress
  | .called (.apply id actorId chooseCompanyId) => do
      let pre ← applyPreflight reading db id
      return .goes (match pre.file with
        | some file => .source id actorId chooseCompanyId pre file
        | none => .applyTransaction id actorId chooseCompanyId pre)
  | .called (.reject id actorId) => do
      let rejected ← rejectProposal db id ⟨actorId, answer.now⟩
      return .returns rejected (.rejected id)
  | .called (.notSame id companyId actorId) => do
      let marked ← markNotSame reading db id companyId ⟨actorId, answer.now⟩
      return .returns marked (.notSame id)
  | .called (.undo id actorId) => do
      let proposal ← undoPreflight db id
      return .goes (.undoTransaction id actorId proposal)
  | .source id actorId chooseCompanyId pre file => do
      file.check answer.resolved
      return .goes (.applyTransaction id actorId chooseCompanyId pre)
  | .applyTransaction id actorId chooseCompanyId pre => do
      let done ← applyTransaction reading db id pre ⟨⟨actorId, answer.now⟩, answer.ids, chooseCompanyId⟩
      return .returns done.1 (.applied id)
  | .undoTransaction id actorId proposal => do
      let back ← undoTransaction reading db id proposal ⟨actorId, answer.now⟩
      return .returns back.db (.undone id)

/-- A tick of `runAutoApply` past its preflight. -/
structure Tick where
  /-- `settings.enabledById` -/
  actorId : RowId
  caps : CapState
  /-- The proposal at hand and the ones after it. -/
  current : RowId × IngestProposalKind
  rest : List (RowId × IngestProposalKind)

inductive WorkerStage where
  | held (actorId : RowId) (caps : CapState)
  | free (actorId : RowId) (caps : CapState) (ids : List RowId)
  | ready (actorId : RowId) (caps : CapState)
  /-- The write of `autoApplied` after `applyProposal` has returned. -/
  | mark (tick : Tick)

inductive Position where
  | calls (stage : CallStage) (tick : Option Tick)
  | works (stage : WorkerStage)

/-- A request handler or a tick, with how many calls it has ended. -/
structure Activity where
  ended : ℕ
  position : Position

def nextApply (actorId : RowId) (caps : CapState) :
    List (RowId × IngestProposalKind) → Option Position
  | [] => none
  | (id, kind) :: rest =>
    if capReachedFor kind caps then nextApply actorId caps rest
    else some (.calls (.called (.apply id actorId none)) (some ⟨actorId, caps, (id, kind), rest⟩))

def Tick.proceed (tick : Tick) (ended : ℕ) : Option Activity :=
  (nextApply tick.actorId tick.caps tick.rest).map fun position => ⟨ended, position⟩

def afterReturn (ended : ℕ) : Option Tick → Option Activity
  | none => none
  | some tick => some ⟨ended + 1, .works (.mark tick)⟩

/-- After a call has thrown: the worker goes on where the refusal is an expected one. -/
def afterThrow (ended : ℕ) (failure : Failure) : Option Tick → Option Activity
  | none => none
  | some tick => if isExpected failure then tick.proceed (ended + 1) else none

def work (db : Db) (ended : ℕ) : WorkerStage → Db × Option Activity
  | .held actorId caps =>
    if caps.hourlyReached && caps.dailyReached then (db, some ⟨ended, .works (.ready actorId caps)⟩)
    else (db, some ⟨ended, .works (.free actorId caps (heldIds db caps))⟩)
  | .free actorId caps ids => (freeHeld db ids, some ⟨ended, .works (.ready actorId caps)⟩)
  | .ready actorId caps =>
    (db, (nextApply actorId caps (readyIds db)).map fun position => ⟨ended, position⟩)
  | .mark tick =>
    let spent := { tick with caps := tick.caps.spend tick.current.2 }
    (db.updateProposal tick.current.1 fun row => { row with autoApplied := true },
      spent.proceed ended)

/-- One statement, as it was carried out. -/
structure Moment where
  /-- The activity that made it and which of its calls; `none` outside the four functions. -/
  call : Option (ℕ × ℕ)
  what : Happened
  before : Db
  after : Db

structure World where
  db : Db
  activities : List (Option Activity)
  trace : List Moment

inductive Event where
  | calls (call : Call)
  /-- A tick of the worker is past its preflight. -/
  | ticks (actorId : RowId) (caps : CapState)
  | serves (n : ℕ) (answer : Answer)
  /-- What activity `n` waits for fails. -/
  | fails (n : ℕ)
  | proposes (id : RowId) (proposal : IngestProposal)
  /-- Something else writes, but no proposal. -/
  | elsewhere (db : Db)
  | crashes

namespace World

def start (db : Db) : World where
  db := { db with proposals := .empty }
  activities := []
  trace := []

def record (world : World) (call : Option (ℕ × ℕ)) (what : Happened) (after : Db) : World :=
  { world with
    db := after
    trace := world.trace ++ [⟨call, what, world.db, after⟩] }

def setActivity (world : World) (n : ℕ) (activity : Option Activity) : World :=
  { world with activities := world.activities.set n activity }

def begin_ (world : World) (position : Position) : World :=
  { world with activities := world.activities ++ [some ⟨0, position⟩] }

def serves (reading : Reading) (world : World) (n : ℕ) (activity : Activity) (answer : Answer) :
    World :=
  match activity.position with
  | .calls stage tick =>
    match serve reading world.db answer stage with
    | .ok (.goes stage) =>
      (world.record (some (n, activity.ended)) .reads world.db).setActivity n
        (some ⟨activity.ended, .calls stage tick⟩)
    | .ok (.returns db what) =>
      (world.record (some (n, activity.ended)) what db).setActivity n
        (afterReturn activity.ended tick)
    | .error failure =>
      (world.record (some (n, activity.ended)) (.threw failure) world.db).setActivity n
        (afterThrow activity.ended failure tick)
  | .works stage =>
    let (db, next) := work world.db activity.ended stage
    (world.record none .other db).setActivity n next

def fails (world : World) (n : ℕ) (activity : Activity) : World :=
  match activity.position with
  | .calls _ tick =>
    (world.record (some (n, activity.ended)) (.threw .DRIVER) world.db).setActivity n
      (afterThrow activity.ended .DRIVER tick)
  | .works _ => world.setActivity n none

def step (reading : Reading) (world : World) : Event → World
  | .calls call => world.begin_ (.calls (.called call) none)
  | .ticks actorId caps => world.begin_ (.works (.held actorId caps))
  | .serves n answer =>
    match world.activities[n]? with
    | some (some activity) => world.serves reading n activity answer
    | _ => world
  | .fails n =>
    match world.activities[n]? with
    | some (some activity) => world.fails n activity
    | _ => world
  | .proposes id proposal =>
    match world.db.proposals.create id { proposal with status := .PENDING } with
    | some proposals => world.record none .other { world.db with proposals := proposals }
    | none => world
  | .elsewhere db => world.record none .other { db with proposals := world.db.proposals }
  | .crashes => { world with activities := world.activities.map fun _ => none }

/-- Everything that may happen from no proposal on. -/
def after (reading : Reading) (db : Db) (events : List Event) : World :=
  Stepping.run (step reading) (start db) events

end World

end Droplet.Filing
