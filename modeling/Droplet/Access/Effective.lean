import Droplet.Access.ToolDomains
import Droplet.Lib.InsertionMap

/-! What one person may do on this box (`services/effective-access.service.ts`): tier, role,
exceptions, workspace, connections and tools, composed in that order. -/

namespace Droplet.Access

open People (Role)
open Lib (InsertionMap)

inductive ConnectorLevel where
  | read
  | readWrite
  deriving DecidableEq

def ConnectorLevel.rank : ConnectorLevel → ℕ
  | .read => 0
  | .readWrite => 1

inductive ToolLevel where
  | view
  | use

def ToolLevel.rank : ToolLevel → ℕ
  | .view => 0
  | .use => 1

structure UsageDefaultFields where
  storageQuotaBytes : Option ℤ
  maxUploadSizeMb : Option ℤ
  llmDailyMessageCap : Option ℤ

structure ToolGrant where
  domain : String
  level : ToolLevel

structure ConnectorGrant where
  provider : String
  level : ConnectorLevel

structure AccessRoleGrantRows where
  mayOperateLocks : Bool
  cloudModelsAllowed : Bool
  usageDefaults : UsageDefaultFields
  featureGrants : List Feature
  toolGrants : List ToolGrant
  connectorGrants : List ConnectorGrant

inductive AccessExceptionEffect where
  | allow
  | deny
  deriving DecidableEq

structure AccessExceptionRow where
  id : String
  moduleId : ModuleId
  effect : AccessExceptionEffect
  level : Option FeatureLevel
  deriving DecidableEq

structure Connection where
  provider : String
  writeEnabled : Bool

inductive DepartmentKind where
  | household
  | department
  | team

structure DeptRight where
  id : String
  name : String
  kind : DepartmentKind
  right : String

structure AccessUser where
  id : String
  role : Role
  accessRole : Option AccessRoleGrantRows

structure EffectiveAccessInputs where
  user : AccessUser
  exceptions : List AccessExceptionRow
  workspaceModuleIds : Finset ModuleId
  cloudEscapeEnabled : Bool
  connections : List Connection
  usagePolicy : Option UsageDefaultFields
  deptRights : List DeptRight
  toolLayers : Option ToolLayers

inductive EffectiveUsageSource where
  | person
  | role
  | default

structure EffectiveUsageField where
  value : Option ℤ
  source : EffectiveUsageSource

def pickField (personValue roleValue : Option ℤ) : EffectiveUsageField :=
  match personValue, roleValue with
  | some value, _ => ⟨some value, .person⟩
  | none, some value => ⟨some value, .role⟩
  | none, none => ⟨none, .default⟩

structure EffectiveUsagePolicy where
  storageQuotaBytes : EffectiveUsageField
  maxUploadSizeMb : EffectiveUsageField
  llmDailyMessageCap : EffectiveUsageField

def resolveEffectiveUsage (person role : Option UsageDefaultFields) : EffectiveUsagePolicy where
  storageQuotaBytes := pickField (person.bind (·.storageQuotaBytes)) (role.bind (·.storageQuotaBytes))
  maxUploadSizeMb := pickField (person.bind (·.maxUploadSizeMb)) (role.bind (·.maxUploadSizeMb))
  llmDailyMessageCap :=
    pickField (person.bind (·.llmDailyMessageCap)) (role.bind (·.llmDailyMessageCap))

structure UsageWire where
  storageQuotaBytes : Option String
  maxUploadSizeMb : Option ℤ
  llmDailyMessageCap : Option ℤ
  source : EffectiveUsageSource
  storageQuotaBytesSource : EffectiveUsageSource
  maxUploadSizeMbSource : EffectiveUsageSource
  llmDailyMessageCapSource : EffectiveUsageSource

def usageWire (usage : EffectiveUsagePolicy) : UsageWire where
  storageQuotaBytes := usage.storageQuotaBytes.value.map toString
  maxUploadSizeMb := usage.maxUploadSizeMb.value
  llmDailyMessageCap := usage.llmDailyMessageCap.value
  source := usage.storageQuotaBytes.source
  storageQuotaBytesSource := usage.storageQuotaBytes.source
  maxUploadSizeMbSource := usage.maxUploadSizeMb.source
  llmDailyMessageCapSource := usage.llmDailyMessageCap.source

abbrev LevelByModule := InsertionMap ModuleId FeatureLevel

def setFeature (levels : LevelByModule) (feature : Feature) : LevelByModule :=
  levels.set feature.moduleId feature.level

def applyGrant (tier : Role) (levels : LevelByModule) (grant : Feature) : LevelByModule :=
  if isGateableModuleId grant.moduleId then
    match clampLevel tier grant.moduleId grant.level with
    | none => levels
    | some level => levels.set grant.moduleId level
  else levels

/-- The levels before the exceptions: the whole catalog of the tier for a person without a role. -/
def grantedLevels (tier : Role) (accessRole : Option AccessRoleGrantRows) : LevelByModule :=
  match accessRole with
  | none => (fullCatalogFeatures tier).foldl setFeature InsertionMap.empty
  | some role =>
    role.featureGrants.foldl (applyGrant tier)
      (alwaysOnFeatures.foldl setFeature InsertionMap.empty)

def applyException (tier : Role) (levels : LevelByModule) (row : AccessExceptionRow) :
    LevelByModule :=
  if isGateableModuleId row.moduleId then
    match row.effect with
    | .deny => levels.delete row.moduleId
    | .allow =>
      match clampLevel tier row.moduleId (row.level.getD .view) with
      | none => levels
      | some level => levels.set row.moduleId level
  else levels

def withExceptions (inputs : EffectiveAccessInputs) : LevelByModule :=
  inputs.exceptions.foldl (applyException inputs.user.role)
    (grantedLevels inputs.user.role inputs.user.accessRole)

def withinWorkspace (workspaceModuleIds : Finset ModuleId) (levels : LevelByModule) :
    LevelByModule :=
  levels.deleteWhere fun moduleId =>
    isGateableModuleId moduleId && !decide (moduleId ∈ workspaceModuleIds)

def withParents (levels : LevelByModule) : LevelByModule :=
  levels.deleteWhere fun moduleId =>
    !(satisfiedModuleIds moduleRequires levels.keys).contains moduleId

/-- `levelByModule` as the features are read from it. -/
def levelByModule (inputs : EffectiveAccessInputs) : LevelByModule :=
  withParents (withinWorkspace inputs.workspaceModuleIds (withExceptions inputs))

abbrev ConnectorLevels := InsertionMap String ConnectorLevel

def minConnectorLevel (a b : ConnectorLevel) : ConnectorLevel :=
  if a = .readWrite ∧ b = .readWrite then .readWrite else .read

def Connection.level (connection : Connection) : ConnectorLevel :=
  if connection.writeEnabled then .readWrite else .read

/-- One write-enabled connection of a provider is enough. -/
def addConnection (levels : ConnectorLevels) (connection : Connection) : ConnectorLevels :=
  levels.set connection.provider
    (if levels.get? connection.provider = some .readWrite then .readWrite else connection.level)

def connectionLevels (connections : List Connection) : ConnectorLevels :=
  connections.foldl addConnection InsertionMap.empty

/-- `record[key] = value` on an object literal: a text is no prototype. -/
def assign (record : ConnectorLevels) (key : String) (value : ConnectorLevel) : ConnectorLevels :=
  if key = "__proto__" then record else record.set key value

def applyConnectorGrant (connLevels : ConnectorLevels) (connectors : ConnectorLevels)
    (grant : ConnectorGrant) : ConnectorLevels :=
  match connLevels.get? grant.provider with
  | none => connectors
  | some connLevel => assign connectors grant.provider (minConnectorLevel grant.level connLevel)

def roleConnectors (role : AccessRoleGrantRows) (connLevels : ConnectorLevels) : ConnectorLevels :=
  role.connectorGrants.foldl (applyConnectorGrant connLevels) InsertionMap.empty

def roleConnectorGrants (role : AccessRoleGrantRows) : ConnectorLevels :=
  role.connectorGrants.foldl (fun record grant => assign record grant.provider grant.level)
    InsertionMap.empty

structure EffectiveAccessResult where
  tier : Role
  features : List Feature
  toolDomains : List String
  locks : Bool
  cloud : Bool
  connectors : ConnectorLevels
  connectorGrants : Option ConnectorLevels
  usage : UsageWire
  deptRights : List DeptRight
  exceptions : List AccessExceptionRow

/-- `LOCK_CAPABLE_TIERS` -/
def lockCapableTiers : List Role := [.owner, .admin, .family]

def layersOf (catalogLayer : List LayeredTool) (inputs : EffectiveAccessInputs) : ToolLayers :=
  inputs.toolLayers.getD ⟨catalogLayer, []⟩

def usageOf (inputs : EffectiveAccessInputs) : UsageWire :=
  usageWire (resolveEffectiveUsage inputs.usagePolicy
    (inputs.user.accessRole.map AccessRoleGrantRows.usageDefaults))

/-- The branch of an owner, whom nothing narrows but the box itself. -/
def ownerAccess (catalogLayer : List LayeredTool) (inputs : EffectiveAccessInputs) :
    EffectiveAccessResult where
  tier := inputs.user.role
  features := alwaysOnFeatures ++ gateableModuleIds.map fun moduleId => ⟨moduleId, .manage⟩
  toolDomains := toolDomainUniverse (layersOf catalogLayer inputs)
  locks := true
  cloud := inputs.cloudEscapeEnabled
  connectors := connectionLevels inputs.connections
  connectorGrants := none
  usage := usageOf inputs
  deptRights := inputs.deptRights
  exceptions := inputs.exceptions

def grantedDomains (allDomains : List String) (accessRole : Option AccessRoleGrantRows) :
    List String :=
  match accessRole with
  | none => allDomains
  | some role => role.toolGrants.map ToolGrant.domain

def toolDomainsOf (catalogLayer : List LayeredTool) (inputs : EffectiveAccessInputs) :
    List String :=
  let layers := layersOf catalogLayer inputs
  let allDomains := toolDomainUniverse layers
  allDomains.filter fun domain =>
    decide (domain ∈ tierReachableDomains inputs.user.role layers) &&
    decide (domain ∈ domainsForFeatures (levelByModule inputs).keys (runtimeOnlyDomains layers)) &&
    decide (domain ∈ grantedDomains allDomains inputs.user.accessRole)

def locksOf (inputs : EffectiveAccessInputs) : Bool :=
  let smartHomeOn := (levelByModule inputs).keys.contains .smartHome
  match inputs.user.accessRole with
  | none => smartHomeOn && lockCapableTiers.contains inputs.user.role
  | some role => role.mayOperateLocks && smartHomeOn

def cloudOf (inputs : EffectiveAccessInputs) : Bool :=
  match inputs.user.accessRole with
  | none => inputs.cloudEscapeEnabled
  | some role => inputs.cloudEscapeEnabled && role.cloudModelsAllowed

def connectorsOf (inputs : EffectiveAccessInputs) : ConnectorLevels :=
  let connLevels := connectionLevels inputs.connections
  match inputs.user.accessRole with
  | none =>
    if inputs.user.role = .admin then
      connLevels.entries.foldl (fun record entry => assign record entry.1 entry.2)
        InsertionMap.empty
    else InsertionMap.empty
  | some role => roleConnectors role connLevels

/-- `catalogLayer` is the compiled catalog of tools-core. -/
def computeEffectiveAccess (catalogLayer : List LayeredTool) (inputs : EffectiveAccessInputs) :
    EffectiveAccessResult :=
  if inputs.user.role = .owner then ownerAccess catalogLayer inputs
  else
    { tier := inputs.user.role
      features := (levelByModule inputs).entries.map fun entry => ⟨entry.1, entry.2⟩
      toolDomains := toolDomainsOf catalogLayer inputs
      locks := locksOf inputs
      cloud := cloudOf inputs
      connectors := connectorsOf inputs
      connectorGrants := inputs.user.accessRole.map roleConnectorGrants
      usage := usageOf inputs
      deptRights := inputs.deptRights
      exceptions := inputs.exceptions }

section Steps

variable (tier : Role)

variable (levels : LevelByModule)

theorem get?_applyGrant (grant : Feature) (moduleId : ModuleId) :
    (applyGrant tier levels grant).get? moduleId =
      if moduleId = grant.moduleId ∧ isGateableModuleId grant.moduleId then
        (clampLevel tier grant.moduleId grant.level).or (levels.get? moduleId)
      else levels.get? moduleId := by
  unfold applyGrant
  by_cases gateable : isGateableModuleId grant.moduleId
  · rw [if_pos gateable]
    cases clampLevel tier grant.moduleId grant.level with
    | none => simp
    | some level => simp [InsertionMap.get?_set, gateable]
  · simp [gateable]

theorem get?_applyException (row : AccessExceptionRow) (moduleId : ModuleId) :
    (applyException tier levels row).get? moduleId =
      if moduleId = row.moduleId ∧ isGateableModuleId row.moduleId then
        match row.effect with
        | .deny => none
        | .allow => (clampLevel tier row.moduleId (row.level.getD .view)).or (levels.get? moduleId)
      else levels.get? moduleId := by
  unfold applyException
  by_cases gateable : isGateableModuleId row.moduleId
  · rw [if_pos gateable]
    cases row.effect with
    | deny => simp [InsertionMap.get?_delete, gateable]
    | allow =>
      cases clampLevel tier row.moduleId (row.level.getD .view) with
      | none => simp
      | some level => simp [InsertionMap.get?_set, gateable]
  · simp [gateable]

theorem get?_setFeature (feature : Feature) (moduleId : ModuleId) :
    (setFeature levels feature).get? moduleId =
      if moduleId = feature.moduleId then some feature.level else levels.get? moduleId :=
  InsertionMap.get?_set _ _ _ _

theorem get?_withinWorkspace (workspaceModuleIds : Finset ModuleId) (levels : LevelByModule)
    (moduleId : ModuleId) : (withinWorkspace workspaceModuleIds levels).get? moduleId =
      if isGateableModuleId moduleId ∧ moduleId ∉ workspaceModuleIds then none
      else levels.get? moduleId := by
  rw [withinWorkspace, InsertionMap.get?_deleteWhere]
  simp

theorem get?_withParents (moduleId : ModuleId) :
    (withParents levels).get? moduleId =
      if moduleId ∈ satisfiedModuleIds moduleRequires levels.keys then levels.get? moduleId
      else none := by
  rw [withParents, InsertionMap.get?_deleteWhere]
  by_cases held : moduleId ∈ satisfiedModuleIds moduleRequires levels.keys
  · simp [held]
  · simp [held]

theorem get?_assign (record : ConnectorLevels) (key other : String) (value : ConnectorLevel) :
    (assign record key value).get? other =
      if other = key ∧ key ≠ "__proto__" then some value else record.get? other := by
  unfold assign
  by_cases proto : key = "__proto__"
  · simp [proto]
  · simp [proto, InsertionMap.get?_set]

end Steps

end Droplet.Access
