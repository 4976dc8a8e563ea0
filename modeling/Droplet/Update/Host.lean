import Droplet.Update.Rows

/-! What the update agent does on the host: `services/update-agent/host-compose-runner.ts` and
`docker/ota/apply-update.sh`. -/

namespace Droplet.Update

/-- `SELF_SERVICE_NAME` -/
def selfServiceName : String := "orchestrator"

/-- The image that runs for each compose service. -/
abbrev Refs := String → Option String

inductive RecreateTarget where
  | release
  | previous
  deriving DecidableEq

abbrev Pins := List (String × String)

/-- `.data/updates/<id>`: the two overrides and the config tree saved before the release. -/
structure UpdateDir where
  release : Option Pins
  previous : Option Pins
  preImage : Option Tree

def UpdateDir.override (dir : UpdateDir) : RecreateTarget → Option Pins
  | .release => dir.release
  | .previous => dir.previous

/-- The steps of `self-swap-supervise`. -/
inductive HelperStage where
  | swap
  | wait
  | restore
  | rollback
  | gone
  deriving DecidableEq

structure Helper where
  row : ℕ
  target : RecreateTarget
  stage : HelperStage

structure Host where
  refs : Refs
  tree : Tree
  dirs : ℕ → UpdateDir
  helpers : List Helper

def deployed (manifest : ReleaseManifest) (refs : Refs) : List ReleaseService :=
  manifest.services.filter fun service => (refs service.name).isSome

def sidecars (manifest : ReleaseManifest) (refs : Refs) : List ReleaseService :=
  (deployed manifest refs).filter fun service => service.name ≠ selfServiceName

def selfServices (manifest : ReleaseManifest) (refs : Refs) : List ReleaseService :=
  (deployed manifest refs).filter fun service => service.name = selfServiceName

def ordered (manifest : ReleaseManifest) (refs : Refs) : List ReleaseService :=
  sidecars manifest refs ++ selfServices manifest refs

def releasePins (manifest : ReleaseManifest) (refs : Refs) : Pins :=
  (ordered manifest refs).map fun service => (service.name, service.image)

def previousPins (manifest : ReleaseManifest) (refs : Refs) : Pins :=
  (ordered manifest refs).filterMap fun service =>
    (refs service.name).map fun ref => (service.name, ref)

/-- `imageRefMatchesDigest` -/
def imageRefMatchesDigest (ref : Option String) (digest : String) : Bool :=
  match ref with
  | none => false
  | some ref => ref ≠ "" && (ref = digest || ("@" ++ digest).toList.isSuffixOf ref.toList)

def runningTarget (manifest : ReleaseManifest) (refs : Refs) : Bool :=
  match manifest.services.find? fun service => service.name = selfServiceName with
  | none => false
  | some self => imageRefMatchesDigest (refs selfServiceName) self.digest

/-- `DEFAULT_HEALTH_GATE.attempts` -/
def healthGateAttempts : ℕ := 24

/-- What the probes of a gate answer, by service and attempt. -/
abbrev Probes := String → ℕ → Bool

def becomesHealthy (probes : Probes) (service : ReleaseService) : Bool :=
  !service.http || (List.range healthGateAttempts).any (probes service.name)

def healthGate (services : List ReleaseService) (probes : Probes) : Option String :=
  (services.find? fun service => !becomesHealthy probes service).map ReleaseService.name

inductive HostOp where
  | nothing
  /-- The overrides of a snapshot. -/
  | pin (row : ℕ) (manifest : ReleaseManifest) (refs : Refs)
  /-- The pre-image of a snapshot. -/
  | save (row : ℕ)
  | stageConfigs (row : ℕ) (tree : Tree)
  | restoreConfigs (row : ℕ)
  /-- `left` says what runs for a service whose recreate failed. -/
  | recreate (row : ℕ) (target : RecreateTarget) (services : List String)
      (left : List (String × Option String))
  /-- `startServices`: the services have no container yet. -/
  | start (images : Pins)
  /-- `recreateSelfDetached`; an earlier helper of the same update is removed. -/
  | launch (row : ℕ) (target : RecreateTarget)

/-- What runs after `recreate-services`. -/
def recreatedRefs (refs : Refs) (pins : Pins) (services : List String)
    (left : List (String × Option String)) : Refs :=
  fun name =>
    if services.contains name then
      match left.lookup name with
      | some remains => remains
      | none => (pins.lookup name).or (refs name)
    else refs name

/-- `require_self_swap_material`: a helper must be able to roll back before it may swap. -/
def Host.swapMaterial (host : Host) (row : ℕ) (target : RecreateTarget) : Bool :=
  ((host.dirs row).override target).isSome && (host.dirs row).previous.isSome

def Host.setDir (host : Host) (row : ℕ) (dir : UpdateDir) : Host :=
  { host with dirs := fun other => if other = row then dir else host.dirs other }

def HostOp.apply (host : Host) : HostOp → Host
  | .nothing => host
  | .pin row manifest refs =>
    host.setDir row
      { host.dirs row with
        release := some (releasePins manifest refs)
        previous := some (previousPins manifest refs) }
  | .save row => host.setDir row { host.dirs row with preImage := some host.tree }
  | .stageConfigs _ tree => { host with tree }
  | .restoreConfigs row => { host with tree := ((host.dirs row).preImage).getD host.tree }
  | .recreate row target services left =>
    { host with
      refs := recreatedRefs host.refs (((host.dirs row).override target).getD []) services left }
  | .start images => { host with refs := fun name => (images.lookup name).or (host.refs name) }
  | .launch row target =>
    { host with
      helpers := host.helpers.map (fun helper =>
          if helper.row = row then { helper with stage := .gone } else helper) ++
        [⟨row, target, .swap⟩] }

end Droplet.Update
