import Droplet.Filing.Calls

/-! The budget of unattended filing: the caps (`filing/caps.ts`) as a tick of `runAutoApply`
(`filing/auto-apply.ts`) and the sweep of `filing/reconcile.ts` read them, over the calls of people and of
the worker. There is one tick at a time. -/

namespace Droplet.Filing

def HOUR_MS : ℤ := 60 * 60000

def DAY_MS : ℤ := 24 * HOUR_MS

/-- The caps of the settings. -/
structure Limits where
  hourlyApplyCap : ℕ
  dailyCreateCap : ℕ

/-- The rows a count of `readCaps` counts: applied by the box since `since_`. -/
def countedSince (since_ : Instant) (covers : IngestProposalKind → Bool) (row : IngestProposal) : Bool :=
  row.autoApplied && covers row.kind && row.appliedAt.any fun t => decide (since_ ≤ t)

def countSince (db : Db) (since_ : Instant) (covers : IngestProposalKind → Bool) : ℕ :=
  (db.proposals.findMany fun _ row => countedSince since_ covers row).length

/-- The counts of `readCaps` under way: its `now`, and what has come. -/
structure Counting where
  now : Instant
  appliedThisHour : Option ℕ
  createdToday : Option ℕ

def Counting.hour (counting : Counting) (db : Db) : Counting :=
  { counting with appliedThisHour := some (countSince db (counting.now - HOUR_MS) fun _ => true) }

def Counting.day (counting : Counting) (db : Db) : Counting :=
  { counting with createdToday := some (countSince db (counting.now - DAY_MS) isCreate) }

/-- What `readCaps` returns, when both counts have come. -/
def Counting.caps (limits : Limits) (counting : Counting) : Option CapState := do
  let appliedThisHour ← counting.appliedThisHour
  let createdToday ← counting.createdToday
  return {
    appliedThisHour := appliedThisHour
    createdToday := createdToday
    hourlyCap := limits.hourlyApplyCap
    dailyCap := limits.dailyCreateCap
    hourlyReached := limits.hourlyApplyCap ≤ appliedThisHour
    dailyReached := limits.dailyCreateCap ≤ createdToday }

/-- A reconcile sweep, from its `readCaps` on. -/
inductive Sweep where
  | counts (counting : Counting)
  /-- `reconsiderBounded`, with the proposals to free once they have been read. -/
  | frees (caps : CapState) (ids : Option (List RowId))

structure UnattendedApply where
  appliedAt : Instant
  id : RowId
  kind : IngestProposalKind

structure Box where
  world : World
  now : Instant
  /-- A tick whose caps are being counted. -/
  counting : Option Counting
  sweeps : List Sweep
  /-- What `runAutoApply` has applied. -/
  applies : List UnattendedApply

inductive BoxEvent where
  | passes (ms : ℕ)
  /-- A person's call. -/
  | calls (call : Call)
  | serves (n : ℕ) (ids : NewIds) (resolved : Option ℕ)
  | fails (n : ℕ)
  | proposes (id : RowId) (proposal : IngestProposal)
  | elsewhere (db : Db)
  /-- A tick is past the checks of its owner and module, and counts. -/
  | tick
  | countHour
  | countDay
  | countFails
  /-- Both counts have come, and the tick goes on. -/
  | counted (actorId : RowId)
  | sweep
  | sweepHour (n : ℕ)
  | sweepDay (n : ℕ)
  | sweepHeld (n : ℕ)
  | sweepFrees (n : ℕ)
  | crashes

/-- The worker is at it. -/
def Position.ofTick : Position → Bool
  | .calls _ tick => tick.isSome
  | .works _ => true

def World.ticking (world : World) : Bool :=
  world.activities.any fun activity => activity.any fun a => a.position.ofTick

/-- As `propose.ts` creates it. -/
def IngestProposal.fresh (proposal : IngestProposal) : IngestProposal :=
  { proposal with
    status := .PENDING
    decidedById := none
    decidedAt := none
    appliedAt := none
    autoApplied := false
    undoneById := none
    undoneAt := none
    undoMode := none
    created := {} }

/-- The proposal that activity `n` applies when it is served. -/
def World.appliesNow (reading : Reading) (world : World) (n : ℕ) (answer : Answer) :
    Option (RowId × IngestProposalKind) :=
  match world.activities[n]? with
  | some (some ⟨_, .calls stage (some tick)⟩) =>
    match serve reading world.db answer stage with
    | .ok (.returns _ (.applied id)) => some (id, tick.current.2)
    | _ => none
  | _ => none

variable (reading : Reading) (limits : Limits)

namespace Box

def start (db : Db) (now : Instant) : Box := ⟨World.start db, now, none, [], []⟩

def step_ (box : Box) (event : Event) : Box := { box with world := box.world.step reading event }

/-- Nothing but the database and the trace changes. -/
def write_ (box : Box) (db : Db) : Box := { box with world := box.world.record none .other db }

def serves (box : Box) (n : ℕ) (answer : Answer) : Box :=
  { box.step_ reading (.serves n answer) with
    applies := box.applies ++ ((box.world.appliesNow reading n answer).map fun applied =>
      ⟨box.now, applied.1, applied.2⟩).toList }

/-- The next sweep `n` does. -/
def sweeping (box : Box) (n : ℕ) (go : Sweep → Sweep) : Box :=
  { box with sweeps := box.sweeps.modify n go }

def sweepHeld (box : Box) (n : ℕ) : Box :=
  box.sweeping n fun
    | .counts counting =>
      match counting.caps limits with
      | some caps =>
        .frees caps (some (if caps.hourlyReached && caps.dailyReached then []
          else heldIds box.world.db caps))
      | none => .counts counting
    | other => other

def sweepFrees (box : Box) (n : ℕ) : Box :=
  match box.sweeps[n]? with
  | some (.frees caps (some ids)) =>
    (box.write_ (freeHeld box.world.db ids)).sweeping n fun _ => .frees caps none
  | _ => box

def step (box : Box) : BoxEvent → Box
  | .passes ms => { box with now := box.now + ms }
  | .calls call => box.step_ reading (.calls call)
  | .serves n ids resolved => box.serves reading n ⟨box.now, ids, resolved⟩
  | .fails n => box.step_ reading (.fails n)
  | .proposes id proposal => box.step_ reading (.proposes id proposal.fresh)
  | .elsewhere db => box.step_ reading (.elsewhere db)
  | .tick =>
    if box.world.ticking || box.counting.isSome then box
    else { box with counting := some ⟨box.now, none, none⟩ }
  | .countHour => { box with counting := box.counting.map fun counting => counting.hour box.world.db }
  | .countDay => { box with counting := box.counting.map fun counting => counting.day box.world.db }
  | .countFails => { box with counting := none }
  | .counted actorId =>
    match box.counting.bind (Counting.caps limits) with
    | some caps => { box.step_ reading (.ticks actorId caps) with counting := none }
    | none => box
  | .sweep => { box with sweeps := box.sweeps ++ [.counts ⟨box.now, none, none⟩] }
  | .sweepHour n => box.sweeping n fun
      | .counts counting => .counts (counting.hour box.world.db)
      | other => other
  | .sweepDay n => box.sweeping n fun
      | .counts counting => .counts (counting.day box.world.db)
      | other => other
  | .sweepHeld n => box.sweepHeld limits n
  | .sweepFrees n => box.sweepFrees n
  | .crashes => { box.step_ reading .crashes with counting := none, sweeps := [] }

def after (db : Db) (now : Instant) (events : List BoxEvent) : Box :=
  Stepping.run (step reading limits) (start db now) events

end Box

inductive Budget where
  | hourly
  | daily

def Budget.width : Budget → ℤ
  | .hourly => HOUR_MS
  | .daily => DAY_MS

def Budget.covers : Budget → IngestProposalKind → Bool
  | .hourly, _ => true
  | .daily, kind => isCreate kind

def Budget.cap (limits : Limits) : Budget → ℕ
  | .hourly => limits.hourlyApplyCap
  | .daily => limits.dailyCreateCap

/-- When `runAutoApply` applied what the budget covers. -/
def Box.spent (box : Box) (budget : Budget) : List Instant :=
  (box.applies.filter fun applied => budget.covers applied.kind).map UnattendedApply.appliedAt

end Droplet.Filing
