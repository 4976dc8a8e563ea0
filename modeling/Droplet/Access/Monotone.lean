import Droplet.Access.Shrinking

/-! Each stage of the composition keeps the order of its inputs. -/

namespace Droplet.Access

open People (Role)
open Lib (InsertionMap AtMost)

def LevelsBelow (levels' levels : LevelByModule) : Prop :=
  ∀ moduleId, AtMost FeatureLevel.rank (levels'.get? moduleId) (levels.get? moduleId)

variable {levels' levels : LevelByModule}

theorem LevelsBelow.keys (below : LevelsBelow levels' levels) : levels'.keys ⊆ levels.keys := by
  intro moduleId member
  rw [InsertionMap.mem_keys_iff] at member ⊢
  exact (below moduleId).isSome member

def alwaysOnLevels : LevelByModule := alwaysOnFeatures.foldl setFeature InsertionMap.empty

variable {moduleId : ModuleId}

theorem alwaysOnLevels_gateable (gateable : isGateableModuleId moduleId) :
    alwaysOnLevels.get? moduleId = none := by
  cases moduleId <;> first | rfl | cases gateable

section Grants

variable {tier : Role}

variable (grants : List Feature)

theorem applyGrants_source (levels : LevelByModule) {level : FeatureLevel}
    (held : (grants.foldl (applyGrant tier) levels).get? moduleId = some level) :
    levels.get? moduleId = some level ∨ ∃ grant ∈ grants, grant.moduleId = moduleId ∧
      isGateableModuleId moduleId ∧ clampLevel tier moduleId grant.level = some level := by
  induction grants generalizing levels with
  | nil => exact .inl held
  | cons head tail ih =>
    rcases ih _ held with before | ⟨grant, member, known⟩
    · rw [get?_applyGrant] at before
      split at before
      · rename_i same
        rcases Option.or_eq_some_iff.mp before with clamped | ⟨_, earlier⟩
        · rw [← same.1] at clamped
          exact .inr ⟨head, List.mem_cons_self, same.1.symm, same.1 ▸ same.2, clamped⟩
        · exact .inl earlier
      · exact .inl before
    · exact .inr ⟨grant, List.mem_cons_of_mem _ member, known⟩

theorem applyGrants_other (levels : LevelByModule)
    (other : isGateableModuleId moduleId → moduleId ∉ grants.map Feature.moduleId) :
    (grants.foldl (applyGrant tier) levels).get? moduleId = levels.get? moduleId := by
  induction grants generalizing levels with
  | nil => rfl
  | cons head tail ih =>
    rw [List.foldl_cons, ih]
    · rw [get?_applyGrant, if_neg]
      intro same
      have absent := other (same.1 ▸ same.2)
      rw [List.map_cons, List.mem_cons, not_or] at absent
      exact absent.1 same.1
    · intro gateable later
      exact other gateable (List.mem_cons_of_mem _ later)

theorem applyGrants_granted (levels : LevelByModule) (unique : (grants.map Feature.moduleId).Nodup)
    {grant : Feature} (member : grant ∈ grants) (gateable : isGateableModuleId grant.moduleId)
    {level : FeatureLevel} (clamped : clampLevel tier grant.moduleId grant.level = some level) :
    (grants.foldl (applyGrant tier) levels).get? grant.moduleId = some level := by
  induction grants generalizing levels with
  | nil => cases member
  | cons head tail ih =>
    rw [List.map_cons, List.nodup_cons] at unique
    rw [List.foldl_cons]
    rcases List.mem_cons.mp member with same | later
    · subst same
      rw [applyGrants_other tail _ fun _ => unique.1, get?_applyGrant, if_pos ⟨rfl, gateable⟩, clamped]
      rfl
    · exact ih _ unique.2 later

end Grants

theorem grantedLevels_mono {tier' tier : Role} (lower : tier'.rank ≤ tier.rank)
    {role' role : AccessRoleGrantRows} (below : RoleBelow role' role) (unique : role.KeysUnique) :
    LevelsBelow (grantedLevels tier' (some role')) (grantedLevels tier (some role)) := by
  intro moduleId level' held
  rcases applyGrants_source role'.featureGrants alwaysOnLevels held with
    alwaysOn | ⟨grant', member', same', gateable, clamped'⟩
  · refine ⟨level', ?_, le_refl _⟩
    rw [Option.mem_def, ← alwaysOn]
    apply applyGrants_other
    intro gateable
    rw [alwaysOnLevels_gateable gateable] at alwaysOn
    cases alwaysOn
  · obtain ⟨grant, member, same, less⟩ := below.features grant' member'
    obtain ⟨level, clamped, above⟩ := clampLevel_mono lower moduleId less clamped'
    have equal : grant.moduleId = moduleId := same.trans same'
    subst equal
    exact ⟨level, applyGrants_granted _ _ unique.features member gateable clamped, above⟩

theorem applyException_mono {tier' tier : Role} (lower : tier'.rank ≤ tier.rank)
    (legal : Legal tier' levels') (below : LevelsBelow levels' levels) (row : AccessExceptionRow) :
    LevelsBelow (applyException tier' levels' row) (applyException tier levels row) := by
  intro moduleId
  rw [get?_applyException, get?_applyException]
  split
  · rename_i same
    split
    · exact AtMost.none_left _ _
    · cases clamped' : clampLevel tier' row.moduleId (row.level.getD .view) with
      | some level' =>
        obtain ⟨level, clamped, above⟩ := clampLevel_mono lower row.moduleId (le_refl _) clamped'
        rw [clamped]
        exact AtMost.some_some above
      | none =>
        -- a tier that is refused here held nothing on this module before the row either
        intro level' held
        obtain ⟨top, known, _⟩ := legal moduleId level' held (same.1 ▸ same.2)
        rw [clampLevel_eq_none_iff, ← same.1] at clamped'
        rw [maxLevelFor, if_pos clamped'] at known
        cases known
  · exact below moduleId

theorem applyExceptions_mono {tier' tier : Role} (lower : tier'.rank ≤ tier.rank)
    (rows : List AccessExceptionRow) (legal : Legal tier' levels') (below : LevelsBelow levels' levels) :
    LevelsBelow (rows.foldl (applyException tier') levels')
      (rows.foldl (applyException tier) levels) := by
  induction rows generalizing levels' levels with
  | nil => exact below
  | cons head tail ih => exact ih (legal.applyException head) (applyException_mono lower legal below head)

theorem applyDenies_below (tier : Role) (rows : List AccessExceptionRow)
    (denies : ∀ row ∈ rows, row.effect = .deny) (below : LevelsBelow levels' levels) :
    LevelsBelow (rows.foldl (applyException tier) levels') levels := by
  induction rows generalizing levels' with
  | nil => exact below
  | cons head tail ih =>
    apply ih fun row member => denies row (List.mem_cons_of_mem _ member)
    intro moduleId
    rw [get?_applyException, denies head List.mem_cons_self]
    split
    · exact AtMost.none_left _ _
    · exact below moduleId

theorem withinWorkspace_mono {workspace' workspace : Finset ModuleId}
    (fewer : workspace' ⊆ workspace) (below : LevelsBelow levels' levels) :
    LevelsBelow (withinWorkspace workspace' levels') (withinWorkspace workspace levels) := by
  intro moduleId
  rw [get?_withinWorkspace, get?_withinWorkspace]
  split_ifs with out' out out
  · exact AtMost.none_left _ _
  · exact AtMost.none_left _ _
  · exact absurd ⟨out.1, fun inside => out.2 (fewer inside)⟩ out'
  · exact below moduleId

theorem withParents_mono (below : LevelsBelow levels' levels) :
    LevelsBelow (withParents levels') (withParents levels) := by
  intro moduleId
  rw [get?_withParents, get?_withParents]
  split_ifs with kept' kept kept
  · exact below moduleId
  · exact absurd (satisfiedModuleIds_mono below.keys kept') kept
  · exact AtMost.none_left _ _
  · exact AtMost.none_left _ _

section Inputs

variable {catalogLayer : List LayeredTool} {role' role : AccessRoleGrantRows}
variable {inputs' inputs : EffectiveAccessInputs}

theorem levelByModule_mono (below : InputsBelow catalogLayer role' role inputs' inputs)
    (unique : role.KeysUnique) : LevelsBelow (levelByModule inputs') (levelByModule inputs) := by
  apply withParents_mono
  apply withinWorkspace_mono below.workspace
  obtain ⟨added, denies, more⟩ := below.exceptions
  rw [withExceptions, withExceptions, more, List.foldl_append, below.held', below.held]
  apply applyDenies_below _ _ denies
  apply applyExceptions_mono below.tier _ (grantedLevels_legal _)
  exact grantedLevels_mono below.tier below.roles unique

theorem toolDomainUniverse_mono {layers' layers : ToolLayers} (below : LayersBelow layers' layers) :
    toolDomainUniverse layers' ⊆ toolDomainUniverse layers := by
  intro domain member
  rcases List.mem_append.mp member with compiled | atRuntime
  · exact List.mem_append_left _ compiled
  · exact List.mem_append_right _ (runtimeOnlyDomains_mono below atRuntime)

section

variable (below : InputsBelow catalogLayer role' role inputs' inputs)
include below

theorem toolDomainsOf_mono (unique : role.KeysUnique) :
    toolDomainsOf catalogLayer inputs' ⊆ toolDomainsOf catalogLayer inputs := by
  intro domain member
  rw [mem_toolDomainsOf] at member ⊢
  obtain ⟨known, reachable, owned, granted⟩ := member
  refine ⟨toolDomainUniverse_mono below.layers known,
    tierReachableDomains_mono below.tier below.layers reachable,
    domainsForFeatures_mono (levelByModule_mono below unique).keys
      (runtimeOnlyDomains_mono below.layers) owned, ?_⟩
  rw [below.held'] at granted
  rw [below.held]
  obtain ⟨grant', member', same'⟩ := List.mem_map.mp granted
  obtain ⟨grant, member, same⟩ := below.roles.tools grant' member'
  exact List.mem_map.mpr ⟨grant, member, same.trans same'⟩

theorem locksOf_mono (unique : role.KeysUnique) (locks : locksOf inputs') : locksOf inputs := by
  simp only [locksOf, below.held', below.held, Bool.and_eq_true, List.contains_iff_mem] at locks ⊢
  exact ⟨below.roles.locks locks.1, (levelByModule_mono below unique).keys locks.2⟩

theorem cloudOf_mono (cloud : cloudOf inputs') : cloudOf inputs := by
  simp only [cloudOf, below.held', below.held, Bool.and_eq_true] at cloud ⊢
  exact ⟨below.escape cloud.1, below.roles.cloud cloud.2⟩

end

end Inputs

def ConnectorsBelow (levels' levels : ConnectorLevels) : Prop :=
  ∀ provider, AtMost ConnectorLevel.rank (levels'.get? provider) (levels.get? provider)

theorem minConnectorLevel_mono {a' a b' b : ConnectorLevel} (left : a'.rank ≤ a.rank)
    (right : b'.rank ≤ b.rank) : (minConnectorLevel a' b').rank ≤ (minConnectorLevel a b).rank := by
  revert left right
  cases a' <;> cases a <;> cases b' <;> cases b <;> decide

theorem addConnection_above (levels : ConnectorLevels) (connection : Connection) :
    ConnectorsBelow levels (addConnection levels connection) := by
  intro provider level held
  rw [addConnection, InsertionMap.get?_set]
  split
  · rename_i same
    subst same
    refine ⟨_, rfl, ?_⟩
    cases level with
    | read => exact Nat.zero_le _
    | readWrite =>
      rw [if_pos (Option.mem_def.mp held)]
  · exact ⟨level, held, le_refl _⟩

theorem addConnections_above (connections : List Connection) (levels : ConnectorLevels) :
    ConnectorsBelow levels (connections.foldl addConnection levels) := by
  induction connections generalizing levels with
  | nil => exact fun _ => AtMost.refl _ _
  | cons head tail ih =>
    intro provider
    exact AtMost.trans (addConnection_above levels head provider) (ih _ provider)

theorem connectionLevels_connected {connections : List Connection} {connection : Connection}
    (member : connection ∈ connections) : ∃ level,
      (connectionLevels connections).get? connection.provider = some level ∧
        connection.level.rank ≤ level.rank := by
  obtain ⟨before, after, split⟩ := List.append_of_mem member
  rw [connectionLevels, split, List.foldl_append, List.foldl_cons]
  have here : AtMost ConnectorLevel.rank (some connection.level)
      ((addConnection (before.foldl addConnection InsertionMap.empty) connection).get?
        connection.provider) := by
    rw [addConnection, InsertionMap.get?_set, if_pos rfl]
    apply AtMost.some_some
    split
    · cases connection.level <;> decide
    · exact le_refl _
  exact AtMost.trans here (addConnections_above after _ connection.provider) _ rfl

theorem connectionLevels_mono {connections' connections : List Connection}
    (below : ∀ connection' ∈ connections', ∃ connection ∈ connections,
      connection.provider = connection'.provider ∧
        connection'.level.rank ≤ connection.level.rank) :
    ConnectorsBelow (connectionLevels connections') (connectionLevels connections) := by
  intro provider level' held
  obtain ⟨connection', member', provided', above'⟩ := connectionLevels_source held
  obtain ⟨connection, member, provided, above⟩ := below connection' member'
  obtain ⟨level, known, highest⟩ := connectionLevels_connected member
  rw [provided, provided'] at known
  exact ⟨level, known, le_trans above' (le_trans above highest)⟩

section Assigned

variable {α : Type} (key : α → String) (value : α → ConnectorLevel)

theorem assigned_other (list : List α) (record : ConnectorLevels) {other : String}
    (unassigned : other ≠ "__proto__" → other ∉ list.map key) :
    (list.foldl (fun record x => assign record (key x) (value x)) record).get? other =
      record.get? other := by
  induction list generalizing record with
  | nil => rfl
  | cons head tail ih =>
    rw [List.foldl_cons, ih]
    · rw [get?_assign, if_neg]
      intro same
      have absent := unassigned (same.1 ▸ same.2)
      rw [List.map_cons, List.mem_cons, not_or] at absent
      exact absent.1 same.1
    · intro ordinary later
      exact unassigned ordinary (List.mem_cons_of_mem _ later)

theorem assigned_value (list : List α) (record : ConnectorLevels) (unique : (list.map key).Nodup)
    {x : α} (member : x ∈ list) (ordinary : key x ≠ "__proto__") :
    (list.foldl (fun record x => assign record (key x) (value x)) record).get? (key x) =
      some (value x) := by
  induction list generalizing record with
  | nil => cases member
  | cons head tail ih =>
    rw [List.map_cons, List.nodup_cons] at unique
    rw [List.foldl_cons]
    rcases List.mem_cons.mp member with same | later
    · subst same
      rw [assigned_other key value tail _ fun _ => unique.1, get?_assign, if_pos ⟨rfl, ordinary⟩]
    · exact ih _ unique.2 later

end Assigned

theorem roleConnectorGrants_ordinary {role : AccessRoleGrantRows} {provider : String}
    {level : ConnectorLevel} (held : (roleConnectorGrants role).get? provider = some level) :
    provider ≠ "__proto__" := by
  intro proto
  rw [roleConnectorGrants,
    assigned_other ConnectorGrant.provider ConnectorGrant.level _ _ (fun not => absurd proto not)]
    at held
  cases held

theorem roleConnectorGrants_mono {role' role : AccessRoleGrantRows} (below : RoleBelow role' role)
    (unique : role.KeysUnique) : ConnectorsBelow (roleConnectorGrants role') (roleConnectorGrants role) := by
  intro provider level' held
  have ordinary := roleConnectorGrants_ordinary held
  obtain ⟨grant', member', provided', same'⟩ := roleConnectorGrants_source held
  obtain ⟨grant, member, provided, above⟩ := below.connectors grant' member'
  have equal : grant.provider = provider := provided.trans provided'
  subst equal same'
  exact ⟨grant.level, assigned_value ConnectorGrant.provider ConnectorGrant.level _ _
    unique.connectors member ordinary, above⟩

theorem applyConnectorGrants_connected {connLevels : ConnectorLevels} (grants : List ConnectorGrant)
    (connectors : ConnectorLevels) {provider : String} {connLevel : ConnectorLevel}
    (connected : connLevels.get? provider = some connLevel) :
    (grants.foldl (applyConnectorGrant connLevels) connectors).get? provider =
      (grants.foldl (fun record grant => assign record grant.provider
        (minConnectorLevel grant.level connLevel)) connectors).get? provider := by
  suffices ∀ connectors₁ connectors₂ : ConnectorLevels,
      connectors₁.get? provider = connectors₂.get? provider →
      (grants.foldl (applyConnectorGrant connLevels) connectors₁).get? provider =
        (grants.foldl (fun record grant => assign record grant.provider
          (minConnectorLevel grant.level connLevel)) connectors₂).get? provider from
    this _ _ rfl
  induction grants with
  | nil => exact fun _ _ equal => equal
  | cons head tail ih =>
    intro connectors₁ connectors₂ equal
    rw [List.foldl_cons, List.foldl_cons]
    apply ih
    unfold applyConnectorGrant
    split
    · rename_i absent
      rw [get?_assign, if_neg]
      · exact equal
      · intro same
        rw [← same.1, connected] at absent
        cases absent
    · rename_i level known
      rw [get?_assign, get?_assign]
      split
      · rename_i same
        rw [← same.1, connected] at known
        cases known
        rfl
      · exact equal

theorem roleConnectors_mono {role' role : AccessRoleGrantRows} (below : RoleBelow role' role)
    (unique : role.KeysUnique) {connLevels' connLevels : ConnectorLevels}
    (fewer : ConnectorsBelow connLevels' connLevels) :
    ConnectorsBelow (roleConnectors role' connLevels') (roleConnectors role connLevels) := by
  intro provider level' held
  obtain ⟨connLevel', connected', given', granted', same'⟩ := roleConnectors_source held
  have ordinary := roleConnectorGrants_ordinary granted'
  obtain ⟨connLevel, connected, above⟩ := fewer provider connLevel' connected'
  obtain ⟨grant', member', provided', equal'⟩ := roleConnectorGrants_source granted'
  obtain ⟨grant, member, provided, less⟩ := below.connectors grant' member'
  have equal : grant.provider = provider := provided.trans provided'
  subst equal same' equal'
  refine ⟨minConnectorLevel grant.level connLevel, ?_, minConnectorLevel_mono less above⟩
  rw [Option.mem_def, roleConnectors, applyConnectorGrants_connected _ _ connected]
  exact assigned_value ConnectorGrant.provider (fun row => minConnectorLevel row.level connLevel)
    _ _ unique.connectors member ordinary

section Result

variable {catalogLayer : List LayeredTool} {role' role : AccessRoleGrantRows}
variable {inputs' inputs : EffectiveAccessInputs}

section

variable (below : InputsBelow catalogLayer role' role inputs' inputs)
include below

theorem owner_noWider : NoWider (ownerAccess catalogLayer inputs') (ownerAccess catalogLayer inputs) where
  features := fun feature member => ⟨feature, member, rfl, le_refl _⟩
  toolDomains := toolDomainUniverse_mono below.layers
  locks := id
  cloud := below.escape
  connectors := connectionLevels_mono below.connections
  connectorGrants := fun _ impossible => nomatch impossible

theorem featuresOf_mono (unique : role.KeysUnique) {feature' : Feature} (member : feature' ∈ featuresOf inputs') :
    ∃ feature ∈ featuresOf inputs, feature.moduleId = feature'.moduleId ∧
      feature'.level.rank ≤ feature.level.rank := by
  have held := (mem_featuresOf inputs' feature').mp member
  obtain ⟨level, known, above⟩ := levelByModule_mono below unique _ _ held
  exact ⟨⟨feature'.moduleId, level⟩, (mem_featuresOf inputs _).mpr known, rfl, above⟩

theorem inputsBelow_noWider (unique : role.KeysUnique) :
    NoWider (computeEffectiveAccess catalogLayer inputs')
      (computeEffectiveAccess catalogLayer inputs) := by
  unfold computeEffectiveAccess
  by_cases owner : inputs.user.role = .owner
  · rw [if_pos owner, if_pos (below.owner.mpr owner)]
    exact owner_noWider below
  · rw [if_neg owner, if_neg fun other => owner (below.owner.mp other)]
    refine ⟨fun feature' member => featuresOf_mono below unique member,
      toolDomainsOf_mono below unique, locksOf_mono below unique, cloudOf_mono below, ?_, ?_⟩
    · simp only [connectorsOf, below.held', below.held]
      exact roleConnectors_mono below.roles unique (connectionLevels_mono below.connections)
    · intro grants' given
      simp only [below.held', below.held, Option.map_some] at given ⊢
      cases given
      exact ⟨_, rfl, roleConnectorGrants_mono below.roles unique⟩

end

end Result

theorem effective_access_monotone (catalogLayer : List LayeredTool)
    (inputs inputs' : EffectiveAccessInputs) (role : AccessRoleGrantRows)
    (held : inputs.user.accessRole = some role) (unique : role.KeysUnique)
    (shrinks : Shrinks inputs inputs') :
    NoWider (computeEffectiveAccess catalogLayer inputs')
      (computeEffectiveAccess catalogLayer inputs) := by
  obtain ⟨role', below⟩ := shrinks.below catalogLayer held
  exact inputsBelow_noWider below unique

/-- The family member loses `network` when the workspace does. -/
theorem workspace_without_network :
    NoWider
      (computeEffectiveAccess []
        { familyWithAdminGrants with
          workspaceModuleIds := familyWithAdminGrants.workspaceModuleIds.erase .network })
      (computeEffectiveAccess [] familyWithAdminGrants) :=
  effective_access_monotone [] familyWithAdminGrants _ _ rfl ⟨by decide, by decide, by decide⟩
    (Shrinks.workspaceModuleRemoved .network)

end Droplet.Access
