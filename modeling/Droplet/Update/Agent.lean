import Droplet.Update.Host

/-! The update agent (`services/update-agent/apply.ts`, `poller.ts`, `routes/updates.ts`): every task
of the orchestrator process, cut where it waits for the database, the network or the host, so that
between any two of its steps another task may move, the process may die or the box may reboot. -/

namespace Droplet.Update

/-- Where `applyPendingUpdate` waits. -/
inductive RunStage where
  | claim
  /-- The claim was taken by the caller. -/
  | handed
  | settings
  | floor (channel : String)
  | setup
  | parse
  | fetch
  | refs
  | pin
  | save
  | pull
  | stageConfigs
  | reconcile
  | refuse
  | clients
  | migrate
  | recreate
  | gate
  | swapSelf
  | rollbackConfigs
  | rollbackServices
  | rollbackGate
  | observe (target : Status) (failureReason : Option String) (outcome : Option Outcome)
  | write (seen target : Status) (failureReason : Option String) (outcome : Option Outcome)
  | release
  deriving DecidableEq

/-- A run of `applyPendingUpdate`: the row as it was read, and the refs it found. -/
structure Run where
  id : ℕ
  claimId : ClaimId
  seen : Row
  refs : Refs
  stage : RunStage
  /-- Dispatched by `POST /updates/apply-now`. -/
  now : Bool

def Run.manifest (run : Run) : ReleaseManifest := run.seen.release.manifest

/-- Where `resumeInterruptedApply` waits once it has found an `applying` row. -/
inductive ResumeStage where
  | parse
  | refs
  | listen
  | gate (listening : Bool)
  | rollbackConfigs
  | rollbackServices
  | swapBack
  | observe (target : Status) (failureReason : Option String) (outcome : Option Outcome)
  | write (seen target : Status) (failureReason : Option String) (outcome : Option Outcome)
  | enabled
  | start (missing : List ReleaseService)
  | startGate (started : List ReleaseService)
  | record (outcome : Outcome)

structure Resume where
  boot : ℕ
  id : ℕ
  seen : Row
  refs : Refs
  stage : ResumeStage

def Resume.manifest (resume : Resume) : ReleaseManifest := resume.seen.release.manifest

inductive PollStage where
  | known
  | floor
  | create

inductive ApplyNowStage where
  | check
  | pick
  | claim (id : ℕ) (claimId : ClaimId)
  | audit (id : ℕ) (claimId : ClaimId)
  | giveBack (id : ℕ) (claimId : ClaimId)

inductive Task where
  | done
  | run (run : Run)
  | resume (resume : Resume)
  /-- A resume that found no `applying` row looks for a `verifying` one. -/
  | retry
  | poll (stage : PollStage) (found : Release)
  | applyNow (stage : ApplyNowStage)
  | skip (id : ℕ)

/-- What a task is told when its wait is over. -/
inductive Answer where
  | done
  /-- The call threw, before or after it took effect. -/
  | threw (effective : Bool)
  | channel (name : String)
  | ready (yes : Bool)
  | refused (failureReason : String)
  | mismatch
  | transient
  | signatureRefused
  | registryAuth
  | recreated (left : List (String × Option String))
  | probed (probes : Probes)
  | listening (yes : Bool)
  | enabled (services : List String)
  | started (skipped : List String)

/-- What happened, for the statements about whole runs. -/
inductive Entry where
  | attempted (row : ℕ) (tree : Tree)
  | pinned (row : ℕ) (refs : Refs)
  | saved (row : ℕ) (tree : Tree)
  | staged (row : ℕ)
  | restored (row : ℕ) (tree : Tree)
  | recreated (row : ℕ) (target : RecreateTarget) (status : Status) (refs : Refs) (pins : Pins)
  | refsRead (boot row : ℕ) (refs : Refs)
  | gated (boot row : ℕ) (services : List ReleaseService) (probes : Probes)
  | reached (row : ℕ) (status : Status) (boot : ℕ) (tree : Tree)

/-- What a task does next: at most one statement, at most one call of the runner. -/
structure Reaction where
  db : DbWrite := .nothing
  host : HostOp := .nothing
  notes : List Entry := []
  /-- The new value of `applyNowInFlight`. -/
  inFlight : Option Bool := none
  task : Task

def Reaction.ended : Reaction := { task := .done }

namespace Run

variable (run : Run)

def stay : Reaction := { task := .run run }

def go (stage : RunStage) : Reaction := { task := .run { run with stage } }

/-- Every return and every error runs into the `finally` that hands the claim back. -/
def leave : Reaction := run.go .release

def finish : Reaction := { inFlight := if run.now then some false else none, task := .done }

/-- A wait that changes nothing. -/
def after (answer : Answer) (next : RunStage) : Reaction :=
  match answer with
  | .done => run.go next
  | .threw _ => run.leave
  | _ => run.stay

/-- A call of the runner, which may throw before or after its effect. -/
def call (answer : Answer) (op : HostOp) (next : RunStage) : Reaction :=
  match answer with
  | .done => { run.go next with host := op }
  | .threw true => { run.leave with host := op }
  | .threw false => run.leave
  | _ => run.stay

def setStatus (target : Status) (failureReason : Option String) (outcome : Option Outcome) :
    Reaction :=
  run.go (.observe target failureReason outcome)

def reject (failureReason : String) : Reaction := run.setStatus .rejected (some failureReason) none

/-- `row.channel !== channel`, or a row that is not strictly newer than the installed one. -/
def staleReason (table : Table) (channel : String) : Option String :=
  if run.seen.release.channel ≠ channel then some "channel_mismatch"
  else
    match table.installedRelease with
    | none => none
    | some installed =>
      if run.seen.release.builtAt ≤ (table.row installed).release.builtAt then some "not_newer"
      else none

def advanced : Status → RunStage
  | .verifying => .parse
  | .applying => .recreate
  | _ => .release

def restores (host : Host) (answer : Answer) (next : RunStage) : Reaction :=
  if (host.dirs run.id).preImage.isNone then run.leave
  else run.call answer (.restoreConfigs run.id) next

/-- `recreateServices`: a service that failed makes it throw, after the others were recreated. -/
def recreates (host : Host) (answer : Answer) (target : RecreateTarget) (next : RunStage) :
    Reaction :=
  if ((host.dirs run.id).override target).isNone then run.leave
  else
    match answer with
    | .recreated left =>
      { run.go (if left = [] then next else .release) with
        host := .recreate run.id target
          ((sidecars run.manifest run.refs).map ReleaseService.name) left }
    | .threw _ => run.leave
    | _ => run.stay

/-- `recreateSelfDetached` -/
def swapsSelf (host : Host) (answer : Answer) : Reaction :=
  if host.swapMaterial run.id .release then run.call answer (.launch run.id .release) .release
  else run.leave

/-- `claimDeviceUpdateForApply` -/
def takesClaim (table : Table) (host : Host) (answer : Answer) : Reaction :=
  match answer with
  | .done =>
    if (DbWrite.claim run.id run.claimId).hits table then
      { run.go .settings with
        db := .claim run.id run.claimId
        notes := [.attempted run.id host.tree] }
    else run.finish
  -- the claim may have landed, but the run never learnt of it
  | .threw true => { run.finish with db := .claim run.id run.claimId }
  | .threw false => run.finish
  | _ => run.stay

/-- A claim that was handed over is looked up. -/
def findsClaim (table : Table) (host : Host) (answer : Answer) : Reaction :=
  match answer with
  | .done =>
    if (table.row run.id).status.applicable && (table.row run.id).claim = some run.claimId then
      { task := .run { run with seen := table.row run.id, stage := .settings }
        notes := [.attempted run.id host.tree] }
    else run.leave
  | .threw _ => run.finish
  | _ => run.stay

def readsChannel (answer : Answer) : Reaction :=
  match answer with
  | .channel name => run.go (.floor name)
  | .threw _ => run.leave
  | _ => run.stay

/-- Never go backwards. -/
def readsFloor (table : Table) (channel : String) (answer : Answer) : Reaction :=
  match answer with
  | .done =>
    match run.staleReason table channel with
    | some reason => run.setStatus .superseded (some reason) none
    | none => run.go .setup
  | .threw _ => run.leave
  | _ => run.stay

def readsSetup (answer : Answer) : Reaction :=
  match answer with
  | .ready true =>
    if run.seen.status = .verifying then run.go .parse else run.setStatus .verifying none none
  | .ready false => run.leave
  | .threw _ => run.leave
  | _ => run.stay

def parses (answer : Answer) : Reaction :=
  match answer with
  | .refused reason => run.reject reason
  | _ => run.after answer .fetch

def fetches (answer : Answer) : Reaction :=
  match answer with
  | .mismatch => run.reject "configs_mismatch"
  | .transient => run.leave
  | _ => run.after answer .refs

def readsRefs (host : Host) (answer : Answer) : Reaction :=
  match answer with
  | .done => { task := .run { run with refs := host.refs, stage := .pin } }
  | .threw _ => run.leave
  | _ => run.stay

def pulls (answer : Answer) : Reaction :=
  match answer with
  | .signatureRefused => run.reject "image_signature_failed"
  | .registryAuth => run.leave
  | _ => run.after answer .stageConfigs

/-- A manifest without an orchestrator has no image to reconcile from. -/
def reconciles (answer : Answer) : Reaction :=
  if run.manifest.services.all fun service => service.name ≠ selfServiceName then run.go .refuse
  else
    match answer with
    | .done => run.go .clients
    | .threw _ => run.go .refuse
    | _ => run.stay

def gates (answer : Answer) (healthy unhealthy : RunStage) : Reaction :=
  match answer with
  | .probed probes =>
    match healthGate (sidecars run.manifest run.refs) probes with
    | none => run.go healthy
    | some _ => run.go unhealthy
  | .threw _ => run.leave
  | _ => run.stay

/-- The read of `transitionDeviceUpdate`. -/
def observes (table : Table) (answer : Answer) (target : Status) (failureReason : Option String)
    (outcome : Option Outcome) : Reaction :=
  match answer with
  | .done =>
    if target ∈ (table.row run.id).status.allowed then
      run.go (.write (table.row run.id).status target failureReason outcome)
    else run.leave
  | .threw _ => run.leave
  | _ => run.stay

/-- The guarded write of `transitionDeviceUpdate`. -/
def writes (table : Table) (answer : Answer) (seen target : Status) (failureReason : Option String)
    (outcome : Option Outcome) : Reaction :=
  match answer with
  | .done =>
    if (table.row run.id).status = seen then
      { run.go (advanced target) with
        db := .advance run.id seen target failureReason outcome }
    else run.leave
  | .threw true => { run.leave with db := .advance run.id seen target failureReason outcome }
  | .threw false => run.leave
  | _ => run.stay

def releases (answer : Answer) : Reaction :=
  match answer with
  | .done => { run.finish with db := .release run.id run.claimId }
  | .threw true => { run.finish with db := .release run.id run.claimId }
  | .threw false => run.finish
  | _ => run.stay

def react (table : Table) (host : Host) (answer : Answer) : Reaction :=
  match run.stage with
  | .claim => run.takesClaim table host answer
  | .handed => run.findsClaim table host answer
  | .settings => run.readsChannel answer
  | .floor channel => run.readsFloor table channel answer
  | .setup => run.readsSetup answer
  | .parse => run.parses answer
  | .fetch => run.fetches answer
  | .refs => run.readsRefs host answer
  | .pin => run.call answer (.pin run.id run.manifest run.refs) .save
  | .save => run.call answer (.save run.id) .pull
  | .pull => run.pulls answer
  | .stageConfigs => run.call answer (.stageConfigs run.id run.manifest.configs) .reconcile
  | .reconcile => run.reconciles answer
  | .refuse => run.restores host answer (.observe .rejected (some "env_reconcile_failed") none)
  | .clients => run.after answer .migrate
  | .migrate => run.after answer (.observe .applying none none)
  | .recreate => run.recreates host answer .release .gate
  | .gate => run.gates answer .swapSelf .rollbackConfigs
  | .swapSelf => run.swapsSelf host answer
  | .rollbackConfigs => run.restores host answer .rollbackServices
  | .rollbackServices => run.recreates host answer .previous .rollbackGate
  | .rollbackGate =>
    run.gates answer (.observe .rolledBack (some "health_gate_failed") (some .rolledBack))
      (.observe .failed (some "degraded_health") (some .rollbackFailed))
  | .observe target reason outcome => run.observes table answer target reason outcome
  | .write seen target reason outcome => run.writes table answer seen target reason outcome
  | .release => run.releases answer

end Run

namespace Resume

variable (resume : Resume)

def stay : Reaction := { task := .resume resume }

def go (stage : ResumeStage) : Reaction := { task := .resume { resume with stage } }

/-- The verdict of the gate over what runs now: both kinds of orchestrator wait to listen first. -/
def judge (unhealthy : Option String) : Reaction :=
  if runningTarget resume.manifest resume.refs then
    match unhealthy with
    | none => resume.go (.observe .committed none (some .startingServices))
    | some _ => resume.go .rollbackConfigs
  else
    match unhealthy with
    | none => resume.go (.observe .rolledBack (some "health_gate_failed") (some .rolledBack))
    | some _ => resume.go (.observe .failed (some "degraded_health") (some .rollbackFailed))

/-- `startNewlyEnabledServicesInner` catches whatever it runs into. -/
def startFailed : Reaction := resume.go (.record .servicesStartFailed)

def parses (answer : Answer) : Reaction :=
  match answer with
  | .done => resume.go .refs
  | .refused reason => resume.go (.observe .failed (some reason) none)
  | .threw _ => Reaction.ended
  | _ => resume.stay

def readsRefs (host : Host) (answer : Answer) : Reaction :=
  match answer with
  | .done =>
    { task := .resume { resume with refs := host.refs, stage := .listen }
      notes := [.refsRead resume.boot resume.id host.refs] }
  | .threw _ => Reaction.ended
  | _ => resume.stay

def listens (answer : Answer) : Reaction :=
  match answer with
  | .listening yes => resume.go (.gate yes)
  | .threw _ => Reaction.ended
  | _ => resume.stay

def gates (answer : Answer) (listening : Bool) : Reaction :=
  if listening then
    match answer with
    | .probed probes =>
      { resume.judge (healthGate (deployed resume.manifest resume.refs) probes) with
        notes := [.gated resume.boot resume.id (deployed resume.manifest resume.refs) probes] }
    | .threw _ => Reaction.ended
    | _ => resume.stay
  else resume.judge (some selfServiceName)

def rollsBackConfigs (host : Host) (answer : Answer) : Reaction :=
  if (host.dirs resume.id).preImage.isNone then Reaction.ended
  else
    match answer with
    | .done => { resume.go .rollbackServices with host := .restoreConfigs resume.id }
    | .threw true => { Reaction.ended with host := .restoreConfigs resume.id }
    | .threw false => Reaction.ended
    | _ => resume.stay

def rollsBackServices (host : Host) (answer : Answer) : Reaction :=
  if ((host.dirs resume.id).override .previous).isNone then Reaction.ended
  else
    match answer with
    | .recreated left =>
      { (if left = [] then resume.go .swapBack else Reaction.ended) with
        host := .recreate resume.id .previous
          ((sidecars resume.manifest resume.refs).map ReleaseService.name) left }
    | .threw _ => Reaction.ended
    | _ => resume.stay

def swapsBack (host : Host) (answer : Answer) : Reaction :=
  if host.swapMaterial resume.id .previous then
    match answer with
    | .done => { Reaction.ended with host := .launch resume.id .previous }
    | .threw true => { Reaction.ended with host := .launch resume.id .previous }
    | .threw false => Reaction.ended
    | _ => resume.stay
  else Reaction.ended

/-- The read of `transitionDeviceUpdate`. -/
def observes (table : Table) (answer : Answer) (target : Status) (failureReason : Option String)
    (outcome : Option Outcome) : Reaction :=
  match answer with
  | .done =>
    if target ∈ (table.row resume.id).status.allowed then
      resume.go (.write (table.row resume.id).status target failureReason outcome)
    else Reaction.ended
  | .threw _ => Reaction.ended
  | _ => resume.stay

/-- The guarded write of `transitionDeviceUpdate`. -/
def writes (table : Table) (answer : Answer) (seen target : Status) (failureReason : Option String)
    (outcome : Option Outcome) : Reaction :=
  match answer with
  | .done =>
    if (table.row resume.id).status = seen then
      { (if target = .committed then resume.go .enabled else Reaction.ended) with
        db := .advance resume.id seen target failureReason outcome }
    else Reaction.ended
  | .threw true => { Reaction.ended with db := .advance resume.id seen target failureReason outcome }
  | .threw false => Reaction.ended
  | _ => resume.stay

def asksEnabled (answer : Answer) : Reaction :=
  match answer with
  | .enabled services =>
    let missing := resume.manifest.services.filter fun service =>
      (resume.refs service.name).isNone && services.contains service.name
    if missing = [] then resume.go (.record .committed) else resume.go (.start missing)
  | .threw _ => resume.startFailed
  | _ => resume.stay

def starts (answer : Answer) (missing : List ReleaseService) : Reaction :=
  match answer with
  | .started skipped =>
    let started := missing.filter fun service => !skipped.contains service.name
    { (if started = [] then resume.go (.record .committed)
        else resume.go (.startGate started)) with
      host := .start (started.map fun service => (service.name, service.image)) }
  | .threw true =>
    { resume.startFailed with
      host := .start (missing.map fun service => (service.name, service.image)) }
  | .threw false => resume.startFailed
  | _ => resume.stay

def gatesStarted (answer : Answer) (started : List ReleaseService) : Reaction :=
  match answer with
  | .probed probes =>
    match healthGate started probes with
    | none => resume.go (.record .committed)
    | some _ => resume.startFailed
  | .threw _ => resume.startFailed
  | _ => resume.stay

def records (answer : Answer) (outcome : Outcome) : Reaction :=
  match answer with
  | .done => { Reaction.ended with db := .record resume.id outcome }
  | .threw true => { Reaction.ended with db := .record resume.id outcome }
  | .threw false => Reaction.ended
  | _ => resume.stay

def react (table : Table) (host : Host) (answer : Answer) : Reaction :=
  match resume.stage with
  | .parse => resume.parses answer
  | .refs => resume.readsRefs host answer
  | .listen => resume.listens answer
  | .gate listening => resume.gates answer listening
  | .rollbackConfigs => resume.rollsBackConfigs host answer
  | .rollbackServices => resume.rollsBackServices host answer
  | .swapBack => resume.swapsBack host answer
  | .observe target reason outcome => resume.observes table answer target reason outcome
  | .write seen target reason outcome => resume.writes table answer seen target reason outcome
  | .enabled => resume.asksEnabled answer
  | .start missing => resume.starts answer missing
  | .startGate started => resume.gatesStarted answer started
  | .record outcome => resume.records answer outcome

end Resume

def pollReact (table : Table) (stage : PollStage) (found : Release) (answer : Answer) : Reaction :=
  match answer with
  | .done =>
    match stage with
    | .known =>
      if (List.range table.count).any fun id => (table.row id).release.gitSha = found.gitSha then
        Reaction.ended
      else { task := .poll .floor found }
    | .floor =>
      match table.installedRelease with
      | none => { task := .poll .create found }
      | some installed =>
        if found.builtAt ≤ (table.row installed).release.builtAt then Reaction.ended
        else { task := .poll .create found }
    | .create => { Reaction.ended with db := .create found }
  | .threw true =>
    match stage with
    | .create => { Reaction.ended with db := .create found }
    | _ => Reaction.ended
  | .threw false => Reaction.ended
  | _ => { task := .poll stage found }

/-- `POST /updates/apply-now`; `fresh` is the claim id it draws. -/
def applyNowReact (table : Table) (inFlight : Bool) (fresh : ClaimId) (stage : ApplyNowStage)
    (answer : Answer) : Reaction :=
  match stage with
  | .check =>
    match answer with
    | .done =>
      if (table.newest fun row => row.status = .applying).isSome || inFlight then Reaction.ended
      else { task := .applyNow .pick }
    | .threw _ => { Reaction.ended with inFlight := some false }
    | _ => { task := .applyNow stage }
  | .pick =>
    match answer with
    | .done =>
      match table.newest fun row => row.status.applicable with
      | none => Reaction.ended
      | some id => { task := .applyNow (.claim id fresh) }
    | .threw _ => { Reaction.ended with inFlight := some false }
    | _ => { task := .applyNow stage }
  | .claim id claimId =>
    match answer with
    | .done =>
      let write := DbWrite.claim id claimId
      if write.hits table then
        { db := write, inFlight := some true, task := .applyNow (.audit id claimId) }
      else Reaction.ended
    -- the claim may have landed, but the route never learnt of it
    | .threw true => { Reaction.ended with db := .claim id claimId, inFlight := some false }
    | .threw false => { Reaction.ended with inFlight := some false }
    | _ => { task := .applyNow stage }
  | .audit id claimId =>
    match answer with
    | .done =>
      { task := .run
          { id, claimId, seen := table.row id, refs := fun _ => none, stage := .handed,
            now := true } }
    | .threw _ => { inFlight := some false, task := .applyNow (.giveBack id claimId) }
    | _ => { task := .applyNow stage }
  | .giveBack id claimId =>
    match answer with
    | .done => { Reaction.ended with db := .release id claimId }
    | .threw true => { Reaction.ended with db := .release id claimId }
    | .threw false => Reaction.ended
    | _ => { task := .applyNow stage }

def skipReact (id : ℕ) (answer : Answer) : Reaction :=
  let write := DbWrite.advance id .pending .superseded (some "skipped_by_operator") none
  match answer with
  | .done => { Reaction.ended with db := write }
  | .threw true => { Reaction.ended with db := write }
  | .threw false => Reaction.ended
  | _ => { task := .skip id }

/-- `applyPendingUpdate` without a claim: the newest row there is to apply. -/
def pickRun (table : Table) (fresh : ClaimId) : Task :=
  match table.newest fun row => row.status.applicable with
  | none => .done
  | some id =>
    .run
      { id, claimId := fresh, seen := table.row id, refs := fun _ => none, stage := .claim,
        now := false }

def retryReact (table : Table) (fresh : ClaimId) (answer : Answer) : Reaction :=
  match answer with
  | .done =>
    if (table.newest fun row => row.status = .verifying).isSome then
      { task := pickRun table fresh }
    else Reaction.ended
  | .threw _ => Reaction.ended
  | _ => { task := .retry }

def Task.react (table : Table) (host : Host) (inFlight : Bool) (fresh : ClaimId) (task : Task)
    (answer : Answer) : Reaction :=
  match task with
  | .done => Reaction.ended
  | .run work => work.react table host answer
  | .resume work => work.react table host answer
  | .retry => retryReact table fresh answer
  | .poll stage found => pollReact table stage found answer
  | .applyNow stage => applyNowReact table inFlight fresh stage answer
  | .skip id => skipReact id answer

structure Box where
  table : Table
  host : Host
  /-- The tasks of the orchestrator process. -/
  tasks : List Task
  alive : Bool
  applyNowInFlight : Bool
  boots : ℕ
  /-- Counts the steps; also the source of claim ids. -/
  now : ℕ
  /-- Newest first. -/
  trace : List Entry

def DbWrite.changes (table : Table) : DbWrite → List (ℕ × Status)
  | .advance id seen target _ _ => if (table.row id).status = seen then [(id, target)] else []
  | .create _ =>
    ((List.range table.count).filter fun id =>
      (table.row id).status = .pending ||
        ((table.row id).status = .verifying && (table.row id).claim.isNone)).map
      fun id => (id, .superseded)
  | _ => []

def HostOp.entries (table : Table) (host : Host) : HostOp → List Entry
  | .pin row _ refs => [.pinned row refs]
  | .save row => [.saved row host.tree]
  | .stageConfigs row _ => [.staged row]
  | .restoreConfigs row => [.restored row (((host.dirs row).preImage).getD host.tree)]
  | .recreate row target _ _ =>
    [.recreated row target (table.row row).status host.refs
      (((host.dirs row).override target).getD [])]
  | _ => []

namespace Box

variable (box : Box)

/-- What a task of the box does with an answer. -/
abbrev react (task : Task) (answer : Answer) : Reaction :=
  task.react box.table box.host box.applyNowInFlight box.now answer

def perform (i : ℕ) (reaction : Reaction) : Box :=
  { box with
    table := reaction.db.apply box.table box.now
    host := reaction.host.apply box.host
    tasks := box.tasks.set i reaction.task
    applyNowInFlight := reaction.inFlight.getD box.applyNowInFlight
    trace := reaction.notes ++ reaction.host.entries box.table box.host ++
      (reaction.db.changes box.table).map
        (fun change => .reached change.1 change.2 box.boots box.host.tree) ++ box.trace }

/-- The process is gone, and everything it was doing. -/
def die : Box := { box with tasks := [], alive := false, applyNowInFlight := false }

def spawn (task : Task) : Box := { box with tasks := box.tasks ++ [task] }

/-- A resume that has not come to its verdict yet holds the apply window back. -/
def resuming : Bool :=
  box.tasks.any fun task =>
    match task with
    | .retry => true
    | .resume resume =>
      match resume.stage with
      | .enabled | .start _ | .startGate _ | .record _ => false
      | _ => true
    | _ => false

/-- A boot: `resumeInterruptedApply` clears the claims of the process that is gone and looks for an
`applying` row before the server listens. -/
def boot : Box :=
  let table := box.table.clearClaims box.now
  { box with
    table
    alive := true
    boots := box.boots + 1
    tasks :=
      [match table.newest fun row => row.status = .applying with
        | none => .retry
        | some id =>
          .resume
            { boot := box.boots + 1, id, seen := table.row id, refs := fun _ => none,
              stage := .parse }] }

def setHelper (i : ℕ) (helper : Helper) (stage : HelperStage) : Box :=
  { box with host := { box.host with helpers := box.host.helpers.set i { helper with stage } } }

/-- `docker compose up` of the orchestrator alone: the process that ran is replaced. -/
def swapSelf (helper : Helper) : Box :=
  let op := HostOp.recreate helper.row helper.target [selfServiceName] []
  { box.die with
    host := op.apply box.host
    trace := op.entries box.table box.host ++ box.trace }

def afterSwap (target : RecreateTarget) : HelperStage :=
  match target with
  | .release => .restore
  | .previous => .rollback

def helperRestores (helper : Helper) : Box :=
  if ((box.host.dirs helper.row).preImage).isNone then box
  else
    let op := HostOp.restoreConfigs helper.row
    { box with
      host := op.apply box.host
      trace := op.entries box.table box.host ++ box.trace }

/-- `recreate-services --target previous` over `services.txt`. -/
def helperRollsBack (helper : Helper) (left : List (String × Option String)) : Box :=
  match (box.host.dirs helper.row).previous with
  | none => box
  | some pins =>
    let op := HostOp.recreate helper.row .previous (pins.map Prod.fst) left
    let after : Box :=
      { box with
        host := op.apply box.host
        trace := op.entries box.table box.host ++ box.trace }
    if (pins.map Prod.fst).contains selfServiceName then after.die else after

def helperStep (i : ℕ) (helper : Helper) (answer : Answer) : Box :=
  match helper.stage with
  | .swap =>
    match answer with
    | .done => (box.swapSelf helper).setHelper i helper .wait
    | .threw true => (box.swapSelf helper).setHelper i helper (afterSwap helper.target)
    | .threw false => box.setHelper i helper (afterSwap helper.target)
    | _ => box
  | .wait =>
    match answer with
    | .done => box.setHelper i helper .gone
    | .threw _ => box.setHelper i helper (afterSwap helper.target)
    | _ => box
  | .restore =>
    match answer with
    | .done => (box.helperRestores helper).setHelper i helper .rollback
    | .threw true => (box.helperRestores helper).setHelper i helper .rollback
    | .threw false => box.setHelper i helper .rollback
    | _ => box
  | .rollback =>
    match answer with
    | .recreated left => (box.helperRollsBack helper left).setHelper i helper .gone
    | _ => box
  | .gone => box

end Box

inductive Event where
  /-- `checkForUpdate` has verified this release. -/
  | poll (found : Release)
  /-- `applyPendingUpdate` without a claim: an apply window. -/
  | window
  | applyNow
  | skip
  /-- A task of the process gets its answer. -/
  | advance (i : ℕ) (answer : Answer)
  | helper (i : ℕ) (answer : Answer)
  /-- A helper is killed with the host. -/
  | helperDies (i : ℕ)
  | crash
  | boot

def Box.handle (box : Box) : Event → Box
  | .poll found => if box.alive then box.spawn (.poll .known found) else box
  | .window =>
    if box.alive && !box.resuming then box.spawn (pickRun box.table box.now) else box
  | .applyNow => if box.alive then box.spawn (.applyNow .check) else box
  | .skip =>
    match box.table.newest fun row => row.status = .pending with
    | some id => if box.alive then box.spawn (.skip id) else box
    | none => box
  | .advance i answer =>
    match box.tasks[i]? with
    | none => box
    | some task =>
      box.perform i
        (task.react box.table box.host box.applyNowInFlight box.now answer)
  | .helper i answer =>
    match box.host.helpers[i]? with
    | none => box
    | some helper => box.helperStep i helper answer
  | .helperDies i =>
    match box.host.helpers[i]? with
    | none => box
    | some helper => box.setHelper i helper .gone
  | .crash => box.die
  | .boot => if box.alive then box else box.boot

def Box.step (box : Box) (event : Event) : Box :=
  let after := box.handle event
  { after with now := box.now + 1 }

def Box.run (box : Box) (events : List Event) : Box := events.foldl Box.step box

def Box.fresh (host : Host) : Box where
  table := Table.empty
  host := { host with dirs := fun _ => ⟨none, none, none⟩, helpers := [] }
  tasks := []
  alive := false
  applyNowInFlight := false
  boots := 0
  now := 0
  trace := []

theorem Box.run_append (box : Box) (first second : List Event) :
    box.run (first ++ second) = (box.run first).run second := by
  simp only [Box.run, List.foldl_append]

theorem Box.run_induction {motive : Box → Prop} (host : Host) (start : motive (Box.fresh host))
    (kept : ∀ box event, motive box → motive (box.step event)) (events : List Event) :
    motive ((Box.fresh host).run events) := by
  induction events using List.reverseRecOn with
  | nil => exact start
  | append_singleton events event ih =>
    rw [Box.run_append]
    exact kept _ event ih

/-- Every event of a run meets a condition on it and on the box it comes to. -/
def Box.along (condition : Box → Event → Bool) : Box → List Event → Bool
  | _, [] => true
  | box, event :: events => condition box event && Box.along condition (box.step event) events

theorem Box.along_append (condition : Box → Event → Bool) (box : Box) (first second : List Event) :
    Box.along condition box (first ++ second) =
      (Box.along condition box first && Box.along condition (box.run first) second) := by
  induction first generalizing box with
  | nil => simp [Box.along, Box.run]
  | cons event first ih => simp [Box.along, ih, Box.run, Bool.and_assoc]

/-- What holds of a box before its first update and is kept by every step that meets the condition
holds all along. -/
theorem Box.along_induction {motive : Box → Prop} {condition : Box → Event → Bool} (host : Host)
    (start : motive (Box.fresh host))
    (kept : ∀ box event, motive box → condition box event → motive (box.step event))
    (events : List Event) (along : Box.along condition (Box.fresh host) events) :
    motive ((Box.fresh host).run events) := by
  induction events using List.reverseRecOn with
  | nil => exact start
  | append_singleton events event ih =>
    rw [Box.along_append, Bool.and_eq_true] at along
    have meets : condition ((Box.fresh host).run events) event := by
      simpa [Box.along] using along.2
    rw [Box.run_append]
    exact kept _ event (ih along.1) meets

end Droplet.Update
