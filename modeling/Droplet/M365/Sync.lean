import Droplet.SyncPolicy
import Droplet.Lib.Stepping

/-! A delta cursor with the statements that change it (`m365/delta-cursor.service.ts`), and its runs
(`m365/m365-sync.service.ts`), cut where they wait for a grant, for Graph, for the page handler or for the
database. -/

namespace Droplet.M365

open SyncPolicy

universe u

inductive DeltaCursorState where
  | IDLE
  | SYNCING
  | BACKOFF
  | RESYNC_REQUIRED
  | FAILED
  deriving DecidableEq

def CLAIMABLE_STATES : List DeltaCursorState := [.IDLE, .BACKOFF, .RESYNC_REQUIRED]

structure DeltaLinks where
  /-- On the last page of a run. -/
  deltaLink : Option String
  nextLink : Option String

structure GraphPage (α : Type u) where
  items : List α
  links : DeltaLinks

structure Handled (α : Type u) where
  url : String
  page : GraphPage α

/-- The enumeration a position lies in: the delta link it began with, and its pages up to there. Only
proofs read it. -/
structure Progress (α : Type u) where
  since : Option String
  pages : List (Handled α)

structure DeltaCursor (α : Type u) where
  deltaLink : Option String
  resumeLink : Option String
  state : DeltaCursorState
  consecutiveFailures : ℕ
  nextAttemptAt : Option ℤ
  lastSyncedAt : Option ℤ
  /-- Of `resumeLink`. -/
  progress : Progress α

namespace DeltaCursor

variable {α : Type u}

/-- `create` of `upsertCursor`; its `update` is empty. -/
def created : DeltaCursor α where
  deltaLink := none
  resumeLink := none
  state := .IDLE
  consecutiveFailures := 0
  nextAttemptAt := none
  lastSyncedAt := none
  progress := ⟨none, []⟩

/-- Never attempted, or its backoff window has elapsed. -/
def due (now : ℤ) (cursor : DeltaCursor α) : Bool :=
  CLAIMABLE_STATES.contains cursor.state && match cursor.nextAttemptAt with
    | none => true
    | some next => next ≤ now

def recordSuccess (deltaLink : String) (now : ℤ) (cursor : DeltaCursor α) : DeltaCursor α :=
  { cursor with
    deltaLink := some deltaLink
    resumeLink := none
    state := .IDLE
    consecutiveFailures := 0
    nextAttemptAt := none
    lastSyncedAt := some now }

def recordCheckpoint (resumeLink : String) (progress : Progress α) (cursor : DeltaCursor α) :
    DeltaCursor α :=
  { cursor with
    resumeLink := some resumeLink
    state := .IDLE
    consecutiveFailures := 0
    nextAttemptAt := none
    progress }

/-- `waitMs` is what `computeBackoffMs` gives. -/
def recordFailure (err : SyncFailureLike) (now waitMs : ℤ) (cursor : DeltaCursor α) : DeltaCursor α :=
  match classifySyncFailure err with
  | .RESYNC_REQUIRED =>
    { cursor with
      state := .RESYNC_REQUIRED
      deltaLink := none
      resumeLink := none
      consecutiveFailures := 0
      nextAttemptAt := none }
  | .FATAL =>
    { cursor with
      state := .FAILED
      consecutiveFailures := cursor.consecutiveFailures + 1
      nextAttemptAt := none }
  | _ =>
    { cursor with
      state := .BACKOFF
      consecutiveFailures := cursor.consecutiveFailures + 1
      nextAttemptAt := some (now + waitMs) }

theorem recordFailure_links (err : SyncFailureLike) (now waitMs : ℤ) (cursor : DeltaCursor α) :
    let next := cursor.recordFailure err now waitMs
    next.deltaLink = cursor.deltaLink ∧ next.resumeLink = cursor.resumeLink ∧
        next.progress = cursor.progress ∨
      next.deltaLink = none ∧ next.resumeLink = none := by
  unfold recordFailure
  split
  · exact .inr ⟨rfl, rfl⟩
  · exact .inl ⟨rfl, rfl, rfl⟩
  · exact .inl ⟨rfl, rfl, rfl⟩

end DeltaCursor

variable {α : Type u}

def MAX_PAGES_PER_TICK : ℕ := 200

/-- What a run needs to know of its workload. -/
structure Setting where
  /-- `initialUrlFor` -/
  initialUrl : Option String
  /-- A page handler was given. -/
  handlePage : Bool

structure PageContext where
  fullEnumeration : Bool
  isFirstPage : Bool
  isLastPage : Bool

/-- A link is used where it is not empty. -/
def truthy (link : Option String) : Option String := link.filter fun text => text ≠ ""

inductive Stage (α : Type u) where
  /-- Is the workload enabled and covered by the grant, and the connection still the same? -/
  | gates
  | token (url : String)
  | page (url : String)
  | handler (url : String) (page : GraphPage α)
  | success (deltaLink : String)
  | checkpoint (resumeLink : String)
  | failure (err : SyncFailureLike)

structure Run (α : Type u) where
  /-- The columns of the cursor as it was claimed. -/
  deltaLink : Option String
  resumeLink : Option String
  pages : ℕ := 0
  stage : Stage α := .gates
  progress : Progress α

structure Told (α : Type u) where
  progress : Progress α
  page : Handled α
  context : PageContext

/-- A position that was stored by `recordSuccess`. -/
structure Stored (α : Type u) where
  progress : Progress α
  deltaLink : String

structure World (α : Type u) where
  cursor : DeltaCursor α
  run : Option (Run α)
  /-- The pages that were handled without error. -/
  handled : List (Handled α)
  told : List (Told α)
  stored : List (Stored α)

def World.start : World α := ⟨.created, none, [], [], []⟩

inductive Event (α : Type u) where
  /-- The cursor is claimed and its run begins. -/
  | claims (now : ℤ)
  | upserts
  /-- What the run waits for is done. -/
  | goes (now waitMs : ℤ)
  /-- A check ends the run, nothing is written. -/
  | refuses
  | page (page : GraphPage α)
  | fails (err : SyncFailureLike)
  /-- The process dies, or a statement throws that may have been applied. -/
  | crash (applied : Option (ℤ × ℤ))

namespace Run

def goes (run : Run α) (stage : Stage α) : Run α := { run with stage }

def context (run : Run α) (page : GraphPage α) : PageContext where
  fullEnumeration := run.deltaLink.isNone
  isFirstPage := run.pages = 1 && run.resumeLink.isNone
  isLastPage := page.links.deltaLink.isSome

/-- The head of the page loop; without a link there is nothing to resume from. -/
def loop (run : Run α) (url : Option String) : Option (Run α) :=
  match truthy url with
  | none => none
  | some url =>
    if run.pages < MAX_PAGES_PER_TICK then some (run.goes (.page url))
    else some (run.goes (.checkpoint url))

def advances (run : Run α) (page : GraphPage α) : Option (Run α) :=
  match truthy page.links.deltaLink with
  | some deltaLink => some (run.goes (.success deltaLink))
  | none => run.loop page.links.nextLink

def url (setting : Setting) (run : Run α) : Option String :=
  match truthy (run.resumeLink.or run.deltaLink) with
  | some url => some url
  | none => truthy setting.initialUrl

def extend (run : Run α) (page : Handled α) : Run α :=
  { run with progress := { run.progress with pages := run.progress.pages ++ [page] } }

end Run

def unsupportedWorkload : SyncFailureLike where
  statusCode := some 0
  code := some "UNSUPPORTED_WORKLOAD"

namespace World

variable (setting : Setting)

def claimed (cursor : DeltaCursor α) : Run α where
  deltaLink := cursor.deltaLink
  resumeLink := cursor.resumeLink
  progress := if cursor.resumeLink.isSome then cursor.progress else ⟨cursor.deltaLink, []⟩

def write (world : World α) (run : Run α) (now waitMs : ℤ) : World α :=
  match run.stage with
  | .success deltaLink =>
    { world with
      cursor := world.cursor.recordSuccess deltaLink now
      stored := world.stored ++ [⟨run.progress, deltaLink⟩] }
  | .checkpoint resumeLink =>
    { world with cursor := world.cursor.recordCheckpoint resumeLink run.progress }
  | .failure err => { world with cursor := world.cursor.recordFailure err now waitMs }
  | _ => world

/-- One step of `syncCursor`. -/
def react (world : World α) (run : Run α) (event : Event α) : World α :=
  match run.stage, event with
  | .gates, .goes _ _ =>
    match run.url setting with
    | some url => { world with run := some (run.goes (.token url)) }
    | none => { world with run := some (run.goes (.failure unsupportedWorkload)) }
  | .gates, .refuses => { world with run := none }
  | .token url, .goes _ _ => { world with run := run.loop url }
  | .token _, .refuses => { world with run := none }
  | .token _, .fails err => { world with run := some (run.goes (.failure err)) }
  | .page url, .page page =>
    let next := { run with pages := run.pages + 1 }
    if setting.handlePage then
      { world with
        run := some (next.goes (.handler url page))
        told := world.told ++ [⟨run.progress, ⟨url, page⟩, next.context page⟩] }
    else
      { world with
        run := (next.extend ⟨url, page⟩).advances page
        handled := world.handled ++ [⟨url, page⟩] }
  | .page _, .fails err => { world with run := some (run.goes (.failure err)) }
  | .handler url page, .goes _ _ =>
    { world with
      run := (run.extend ⟨url, page⟩).advances page
      handled := world.handled ++ [⟨url, page⟩] }
  | .handler _ _, .fails err => { world with run := some (run.goes (.failure err)) }
  | .success _, .goes now waitMs => { world.write run now waitMs with run := none }
  | .checkpoint _, .goes now waitMs => { world.write run now waitMs with run := none }
  | .failure _, .goes now waitMs => { world.write run now waitMs with run := none }
  | _, .crash (some (now, waitMs)) => { world.write run now waitMs with run := none }
  | _, .crash none => { world with run := none }
  | _, _ => world

def step (world : World α) (event : Event α) : World α :=
  match world.run, event with
  | none, .claims now =>
    if world.cursor.due now then { world with run := some (claimed world.cursor) } else world
  | none, _ => world
  | some run, event => world.react setting run event

def runs (world : World α) (events : List (Event α)) : World α :=
  Stepping.run (step setting) world events

end World

end Droplet.M365
