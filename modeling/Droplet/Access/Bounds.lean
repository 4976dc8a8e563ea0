import Droplet.Access.Effective

/-! No part of the composition hands out more than its bounds allow: the tier's floor, the workspace,
the parents of a module, the tools there are, the role and the connections. -/

namespace Droplet.Access

open People (Role)
open Lib (InsertionMap)

def Legal (tier : Role) (levels : LevelByModule) : Prop :=
  ∀ moduleId level, levels.get? moduleId = some level → isGateableModuleId moduleId →
    ∃ top, maxLevelFor tier moduleId = some top ∧ level.rank ≤ top.rank

variable {tier : Role}

theorem Legal.of_le {levels levels' : LevelByModule} (legal : Legal tier levels)
    (fewer : ∀ moduleId level, levels'.get? moduleId = some level →
      levels.get? moduleId = some level) : Legal tier levels' := by
  intro moduleId level held
  exact legal moduleId level (fewer moduleId level held)

theorem legal_empty : Legal tier InsertionMap.empty := by
  intro moduleId level held
  cases held

variable {levels : LevelByModule}

theorem Legal.setFeature (legal : Legal tier levels) {feature : Feature}
    (allowed : isGateableModuleId feature.moduleId →
      maxLevelFor tier feature.moduleId = some feature.level) :
    Legal tier (setFeature levels feature) := by
  intro moduleId level held gateable
  rw [get?_setFeature] at held
  split at held
  · rename_i same
    cases held
    subst same
    exact ⟨_, allowed gateable, le_refl _⟩
  · exact legal moduleId level held gateable

theorem Legal.setFeatures (features : List Feature) (legal : Legal tier levels)
    (allowed : ∀ feature ∈ features, isGateableModuleId feature.moduleId →
      maxLevelFor tier feature.moduleId = some feature.level) :
    Legal tier (features.foldl Access.setFeature levels) := by
  induction features generalizing levels with
  | nil => exact legal
  | cons head tail ih =>
    rw [List.foldl_cons]
    apply ih
    · exact legal.setFeature (allowed head List.mem_cons_self)
    · intro feature member
      exact allowed feature (List.mem_cons_of_mem _ member)

theorem alwaysOn_not_gateable (feature : Feature) (member : feature ∈ alwaysOnFeatures) :
    ¬ isGateableModuleId feature.moduleId := by
  rw [alwaysOnFeatures, List.mem_singleton] at member
  subst member
  decide

theorem fullCatalogFeatures_allowed (feature : Feature)
    (member : feature ∈ fullCatalogFeatures tier) (gateable : isGateableModuleId feature.moduleId) :
    maxLevelFor tier feature.moduleId = some feature.level := by
  rcases List.mem_append.mp member with alwaysOn | offered
  · exact absurd gateable (alwaysOn_not_gateable feature alwaysOn)
  · obtain ⟨moduleId, _, built⟩ := List.mem_filterMap.mp offered
    obtain ⟨level, top, same⟩ := Option.map_eq_some_iff.mp built
    subst same
    exact top

variable {moduleId : ModuleId}

theorem legal_clamped (legal : Legal tier levels) {requested level : FeatureLevel}
    (held : (clampLevel tier moduleId requested).or (levels.get? moduleId) = some level)
    (gateable : isGateableModuleId moduleId) :
    ∃ top, maxLevelFor tier moduleId = some top ∧ level.rank ≤ top.rank := by
  rcases Option.or_eq_some_iff.mp held with clamped | ⟨_, before⟩
  · exact clampLevel_le_max clamped
  · exact legal moduleId level before gateable

theorem Legal.applyGrant (legal : Legal tier levels) (grant : Feature) :
    Legal tier (applyGrant tier levels grant) := by
  intro moduleId level held gateable
  rw [get?_applyGrant] at held
  split at held
  · rename_i same
    rw [← same.1] at held
    exact legal_clamped legal held gateable
  · exact legal moduleId level held gateable

theorem Legal.applyException (legal : Legal tier levels) (row : AccessExceptionRow) :
    Legal tier (applyException tier levels row) := by
  intro moduleId level held gateable
  rw [get?_applyException] at held
  split at held
  · rename_i same
    split at held
    · cases held
    · rw [← same.1] at held
      exact legal_clamped legal held gateable
  · exact legal moduleId level held gateable

theorem foldl_legal {α : Type} {step : LevelByModule → α → LevelByModule}
    (kept : ∀ levels x, Legal tier levels → Legal tier (step levels x)) (list : List α)
    (legal : Legal tier levels) : Legal tier (list.foldl step levels) := by
  induction list generalizing levels with
  | nil => exact legal
  | cons head tail ih => exact ih (kept levels head legal)

theorem grantedLevels_legal (accessRole : Option AccessRoleGrantRows) :
    Legal tier (grantedLevels tier accessRole) := by
  cases accessRole with
  | none => exact Legal.setFeatures _ legal_empty fullCatalogFeatures_allowed
  | some role =>
    apply foldl_legal fun levels grant legal => legal.applyGrant grant
    apply Legal.setFeatures _ legal_empty
    intro feature member gateable
    exact absurd gateable (alwaysOn_not_gateable feature member)

theorem withExceptions_legal (inputs : EffectiveAccessInputs) : Legal inputs.user.role (withExceptions inputs) :=
  foldl_legal (fun _ row legal => legal.applyException row) _ (grantedLevels_legal _)

theorem get?_levelByModule {inputs : EffectiveAccessInputs} {level : FeatureLevel}
    (held : (levelByModule inputs).get? moduleId = some level) :
    (withExceptions inputs).get? moduleId = some level ∧
      (isGateableModuleId moduleId → moduleId ∈ inputs.workspaceModuleIds) := by
  rw [levelByModule, get?_withParents] at held
  split at held
  · rw [get?_withinWorkspace] at held
    split at held
    · cases held
    · rename_i inside
      exact ⟨held, fun gateable => by_contra fun outside => inside ⟨gateable, outside⟩⟩
  · cases held

theorem mem_keys_withParents (levels : LevelByModule) (moduleId : ModuleId) :
    moduleId ∈ (withParents levels).keys ↔
      moduleId ∈ satisfiedModuleIds moduleRequires levels.keys := by
  rw [InsertionMap.mem_keys_iff, get?_withParents]
  by_cases held : moduleId ∈ satisfiedModuleIds moduleRequires levels.keys
  · rw [if_pos held]
    have present := satisfiedModuleIds_subset _ held
    simpa [held] using (InsertionMap.mem_keys_iff _ _).mp present
  · simp [held]

theorem levelByModule_satisfied (inputs : EffectiveAccessInputs) :
    Satisfied moduleRequires (levelByModule inputs).keys := by
  intro moduleId member parent edge
  rw [levelByModule, mem_keys_withParents] at member ⊢
  exact satisfiedModuleIds_satisfied _ moduleId member parent edge

theorem levelByModule_legal (inputs : EffectiveAccessInputs) : Legal inputs.user.role (levelByModule inputs) :=
  (withExceptions_legal inputs).of_le fun _ _ held => (get?_levelByModule held).1

theorem Satisfied.of_requires {edges : ModuleId → Option ModuleId} {held : List ModuleId}
    (satisfied : Satisfied edges held) {moduleId ancestor : ModuleId}
    (needs : Relation.ReflTransGen (fun child parent => edges child = some parent) moduleId ancestor)
    (member : moduleId ∈ held) : ancestor ∈ held := by
  induction needs with
  | refl => exact member
  | tail _ edge ih => exact satisfied _ ih _ edge

theorem exceptions_denied (rows : List AccessExceptionRow)
    (noAllow : ∀ row ∈ rows, row.moduleId = moduleId → row.effect = .deny)
    (out : levels.get? moduleId = none) : (rows.foldl (applyException tier) levels).get? moduleId = none := by
  induction rows generalizing levels with
  | nil => exact out
  | cons head tail ih =>
    rw [List.foldl_cons]
    apply ih fun row member => noAllow row (List.mem_cons_of_mem _ member)
    rw [get?_applyException]
    split
    · rename_i same
      rw [noAllow head List.mem_cons_self same.1.symm]
    · exact out

variable {before after : List AccessExceptionRow}

theorem withExceptions_denied {inputs : EffectiveAccessInputs} {row : AccessExceptionRow}
    (split : inputs.exceptions = before ++ row :: after) (denies : row.effect = .deny)
    (gateable : isGateableModuleId row.moduleId)
    (noAllow : ∀ later ∈ after, later.moduleId = row.moduleId → later.effect = .deny) :
    (withExceptions inputs).get? row.moduleId = none := by
  rw [withExceptions, split, List.foldl_append, List.foldl_cons]
  apply exceptions_denied after noAllow
  rw [get?_applyException, if_pos ⟨rfl, gateable⟩, denies]

theorem minConnectorLevel_le_left (a b : ConnectorLevel) : (minConnectorLevel a b).rank ≤ a.rank := by
  cases a <;> cases b <;> decide

theorem minConnectorLevel_le_right (a b : ConnectorLevel) : (minConnectorLevel a b).rank ≤ b.rank := by
  cases a <;> cases b <;> decide

variable {level : ConnectorLevel} {provider : String}

theorem addConnections_source (connections : List Connection) (levels : ConnectorLevels)
    (held : (connections.foldl addConnection levels).get? provider = some level) :
    levels.get? provider = some level ∨
      ∃ connection ∈ connections, connection.provider = provider ∧
        level.rank ≤ connection.level.rank := by
  induction connections generalizing levels with
  | nil => exact .inl held
  | cons head tail ih =>
    rcases ih _ held with before | ⟨connection, member, known⟩
    · rw [addConnection, InsertionMap.get?_set] at before
      split at before
      · rename_i same
        subst same
        cases before
        split
        · rename_i wrote
          exact .inl wrote
        · exact .inr ⟨head, List.mem_cons_self, rfl, le_refl _⟩
      · exact .inl before
    · exact .inr ⟨connection, List.mem_cons_of_mem _ member, known⟩

theorem connectionLevels_source {connections : List Connection}
    (held : (connectionLevels connections).get? provider = some level) :
    ∃ connection ∈ connections, connection.provider = provider ∧
      level.rank ≤ connection.level.rank := by
  rcases addConnections_source connections _ held with impossible | source
  · cases impossible
  · exact source

variable {connLevels : ConnectorLevels}

theorem applyConnectorGrants_source (grants : List ConnectorGrant)
    (connectors raw : ConnectorLevels)
    (agree : ∀ provider level, connectors.get? provider = some level →
      ∃ connLevel, connLevels.get? provider = some connLevel ∧ ∃ given,
        raw.get? provider = some given ∧ level = minConnectorLevel given connLevel)
    (held : (grants.foldl (applyConnectorGrant connLevels) connectors).get? provider = some level) :
    ∃ connLevel, connLevels.get? provider = some connLevel ∧ ∃ given,
      (grants.foldl (fun record grant => assign record grant.provider grant.level) raw).get?
        provider = some given ∧ level = minConnectorLevel given connLevel := by
  induction grants generalizing connectors raw with
  | nil => exact agree provider level held
  | cons head tail ih =>
    rw [List.foldl_cons] at held ⊢
    refine ih _ _ ?_ held
    -- both records take the same key in one step
    intro other value known
    rw [get?_assign]
    unfold applyConnectorGrant at known
    split at known
    · rename_i absent
      obtain ⟨connLevel, connected, rest⟩ := agree other value known
      refine ⟨connLevel, connected, ?_⟩
      have differs : ¬ (other = head.provider ∧ head.provider ≠ "__proto__") := by
        intro same
        rw [← same.1, connected] at absent
        cases absent
      rw [if_neg differs]
      exact rest
    · rename_i connLevel connected
      rw [get?_assign] at known
      split at known
      · rename_i same
        cases known
        rw [if_pos same]
        exact ⟨connLevel, same.1 ▸ connected, head.level, rfl, rfl⟩
      · rename_i differs
        rw [if_neg differs]
        exact agree other value known

variable {role : AccessRoleGrantRows}

theorem roleConnectors_source (held : (roleConnectors role connLevels).get? provider = some level) :
    ∃ connLevel, connLevels.get? provider = some connLevel ∧ ∃ given,
      (roleConnectorGrants role).get? provider = some given ∧
        level = minConnectorLevel given connLevel := by
  refine applyConnectorGrants_source _ _ _ ?_ held
  intro other value impossible
  cases impossible

theorem assigned_source {α : Type} (key : α → String) (value : α → ConnectorLevel) (list : List α)
    (record : ConnectorLevels)
    (held : (list.foldl (fun record x => assign record (key x) (value x)) record).get? provider =
      some level) :
    record.get? provider = some level ∨ ∃ x ∈ list, key x = provider ∧ value x = level := by
  induction list generalizing record with
  | nil => exact .inl held
  | cons head tail ih =>
    rcases ih _ held with before | ⟨x, member, known⟩
    · rw [get?_assign] at before
      split at before
      · rename_i same
        cases before
        exact .inr ⟨head, List.mem_cons_self, same.1.symm, rfl⟩
      · exact .inl before
    · exact .inr ⟨x, List.mem_cons_of_mem _ member, known⟩

theorem roleConnectorGrants_source (held : (roleConnectorGrants role).get? provider = some level) :
    ∃ grant ∈ role.connectorGrants, grant.provider = provider ∧ grant.level = level := by
  rcases assigned_source ConnectorGrant.provider ConnectorGrant.level _ _ held with
    impossible | source
  · cases impossible
  · exact source

structure WithinBounds (layers : ToolLayers) (inputs : EffectiveAccessInputs)
    (result : EffectiveAccessResult) : Prop where
  inWorkspace : ∀ feature ∈ result.features, feature.moduleId ≠ .chat →
    feature.moduleId ∈ inputs.workspaceModuleIds
  belowTier : ∀ feature ∈ result.features, feature.moduleId ≠ .chat →
    ∃ top, maxLevelFor inputs.user.role feature.moduleId = some top ∧ feature.level.rank ≤ top.rank
  parentHeld : ∀ feature ∈ result.features, ∀ parent,
    moduleRequires feature.moduleId = some parent →
      ∃ held ∈ result.features, held.moduleId = parent
  reachable : ∀ domain ∈ result.toolDomains, domain ∈ tierReachableDomains inputs.user.role layers
  owned : ∀ domain ∈ result.toolDomains,
    (∃ feature ∈ result.features, feature.moduleId ∈ ownersByDomain domain) ∨
      isFeatureUngated domain ∨ domain ∈ runtimeOnlyDomains layers
  granted : ∀ role, inputs.user.accessRole = some role → ∀ domain ∈ result.toolDomains,
    ∃ grant ∈ role.toolGrants, grant.domain = domain
  connectorGranted : ∀ role, inputs.user.accessRole = some role → ∀ provider level,
    result.connectors.get? provider = some level →
      ∃ grant ∈ role.connectorGrants, grant.provider = provider ∧
        (roleConnectorGrants role).get? provider = some grant.level ∧ level.rank ≤ grant.level.rank
  connected : ∀ provider level, result.connectors.get? provider = some level →
    ∃ connection ∈ inputs.connections, connection.provider = provider ∧
      level.rank ≤ connection.level.rank
  locks : result.locks → ∃ feature ∈ result.features, feature.moduleId = .smartHome
  cloud : result.cloud → inputs.cloudEscapeEnabled
  denied : ∀ before row after, inputs.exceptions = before ++ row :: after → row.effect = .deny →
    (∀ later ∈ after, later.moduleId = row.moduleId → later.effect = .deny) →
    row.moduleId ≠ .chat → ∀ feature ∈ result.features,
      ¬ Relation.ReflTransGen (fun child parent => moduleRequires child = some parent)
        feature.moduleId row.moduleId

theorem gateable_of_ne_chat (other : moduleId ≠ .chat) : isGateableModuleId moduleId := by
  rw [← Bool.not_eq_false]
  exact fun not => other ((not_gateable_iff moduleId).mp not)

section Features

variable (inputs : EffectiveAccessInputs)

def featuresOf : List Feature := (levelByModule inputs).entries.map fun entry => ⟨entry.1, entry.2⟩

theorem mem_featuresOf (feature : Feature) :
    feature ∈ featuresOf inputs ↔
      (levelByModule inputs).get? feature.moduleId = some feature.level := by
  rw [InsertionMap.get?_eq_some_iff, featuresOf, List.mem_map]
  constructor
  · intro ⟨entry, member, same⟩
    subst same
    exact member
  · intro member
    exact ⟨_, member, rfl⟩

theorem exists_featuresOf (moduleId : ModuleId) :
    (∃ feature ∈ featuresOf inputs, feature.moduleId = moduleId) ↔
      moduleId ∈ (levelByModule inputs).keys := by
  rw [InsertionMap.mem_keys_iff, Option.isSome_iff_exists]
  constructor
  · intro ⟨feature, member, same⟩
    subst same
    exact ⟨_, (mem_featuresOf inputs feature).mp member⟩
  · intro ⟨level, held⟩
    exact ⟨⟨moduleId, level⟩, (mem_featuresOf inputs _).mpr held, rfl⟩

theorem mem_toolDomainsOf (catalogLayer : List LayeredTool) (domain : String) :
    domain ∈ toolDomainsOf catalogLayer inputs ↔
      domain ∈ toolDomainUniverse (layersOf catalogLayer inputs) ∧
      domain ∈ tierReachableDomains inputs.user.role (layersOf catalogLayer inputs) ∧
      domain ∈ domainsForFeatures (levelByModule inputs).keys
        (runtimeOnlyDomains (layersOf catalogLayer inputs)) ∧
      domain ∈ grantedDomains (toolDomainUniverse (layersOf catalogLayer inputs))
        inputs.user.accessRole := by
  rw [toolDomainsOf, List.mem_filter]
  simp only [Bool.and_eq_true, decide_eq_true_eq, and_assoc]

theorem toolDomain_owned {catalogLayer : List LayeredTool} {domain : String}
    (member : domain ∈ toolDomainsOf catalogLayer inputs) :
    (∃ feature ∈ featuresOf inputs, feature.moduleId ∈ ownersByDomain domain) ∨
      isFeatureUngated domain ∨ domain ∈ runtimeOnlyDomains (layersOf catalogLayer inputs) := by
  have passed := ((mem_toolDomainsOf inputs catalogLayer domain).mp member).2.2.1
  rcases (mem_domainsForFeatures _ _ _).mp passed with
    ⟨atRuntime, _⟩ | ⟨_, ⟨owner, claims, held⟩ | ⟨_, ungated⟩⟩
  · exact .inr (.inr atRuntime)
  · obtain ⟨feature, present, same⟩ := (exists_featuresOf inputs owner).mpr held
    exact .inl ⟨feature, present, same ▸ claims⟩
  · exact .inr (.inl ungated)

theorem locksOf_smartHome (locks : locksOf inputs) :
    ∃ feature ∈ featuresOf inputs, feature.moduleId = .smartHome := by
  rw [exists_featuresOf]
  unfold locksOf at locks
  cases role : inputs.user.accessRole with
  | none =>
    rw [role] at locks
    simp only [Bool.and_eq_true, List.contains_iff_mem] at locks
    exact locks.1
  | some rows =>
    rw [role] at locks
    simp only [Bool.and_eq_true, List.contains_iff_mem] at locks
    exact locks.2

theorem cloudOf_escape (cloud : cloudOf inputs) : inputs.cloudEscapeEnabled := by
  unfold cloudOf at cloud
  split at cloud
  · exact cloud
  · exact (Bool.and_eq_true _ _ ▸ cloud).1

theorem connectorsOf_connected (held : (connectorsOf inputs).get? provider = some level) :
    ∃ connection ∈ inputs.connections, connection.provider = provider ∧
      level.rank ≤ connection.level.rank := by
  unfold connectorsOf at held
  cases role : inputs.user.accessRole with
  | none =>
    rw [role] at held
    simp only at held
    split at held
    · rcases assigned_source Prod.fst Prod.snd _ _ held with impossible | ⟨entry, member, same, equal⟩
      · cases impossible
      · obtain ⟨entryProvider, entryLevel⟩ := entry
        subst same equal
        exact connectionLevels_source ((InsertionMap.get?_eq_some_iff _ _ _).mpr member)
    · cases held
  | some rows =>
    rw [role] at held
    obtain ⟨connLevel, connected, given, _, same⟩ := roleConnectors_source held
    obtain ⟨connection, member, provided, below⟩ := connectionLevels_source connected
    refine ⟨connection, member, provided, le_trans ?_ below⟩
    rw [same]
    exact minConnectorLevel_le_right _ _

theorem connectorsOf_granted (held : inputs.user.accessRole = some role)
    (connector : (connectorsOf inputs).get? provider = some level) :
    ∃ grant ∈ role.connectorGrants, grant.provider = provider ∧
      (roleConnectorGrants role).get? provider = some grant.level ∧
        level.rank ≤ grant.level.rank := by
  simp only [connectorsOf, held] at connector
  obtain ⟨connLevel, _, given, granted, same⟩ := roleConnectors_source connector
  obtain ⟨grant, member, provided, level⟩ := roleConnectorGrants_source granted
  subst level same
  exact ⟨grant, member, provided, granted, minConnectorLevel_le_left _ _⟩

theorem featuresOf_denied {row : AccessExceptionRow}
    (split : inputs.exceptions = before ++ row :: after) (denies : row.effect = .deny)
    (noAllow : ∀ later ∈ after, later.moduleId = row.moduleId → later.effect = .deny)
    (other : row.moduleId ≠ .chat) {feature : Feature} (member : feature ∈ featuresOf inputs) :
    ¬ Relation.ReflTransGen (fun child parent => moduleRequires child = some parent)
      feature.moduleId row.moduleId := by
  intro needs
  have held : feature.moduleId ∈ (levelByModule inputs).keys :=
    (exists_featuresOf inputs _).mp ⟨feature, member, rfl⟩
  have ancestor := (levelByModule_satisfied inputs).of_requires needs held
  obtain ⟨level, known⟩ :=
    Option.isSome_iff_exists.mp ((InsertionMap.mem_keys_iff _ _).mp ancestor)
  have gone := withExceptions_denied split denies (gateable_of_ne_chat other) noAllow
  rw [(get?_levelByModule known).1] at gone
  cases gone

end Features

theorem effective_access_bounded (catalogLayer : List LayeredTool) (inputs : EffectiveAccessInputs)
    (notOwner : inputs.user.role ≠ .owner) :
    WithinBounds (layersOf catalogLayer inputs) inputs
      (computeEffectiveAccess catalogLayer inputs) := by
  rw [computeEffectiveAccess, if_neg notOwner]
  have held : ∀ feature ∈ featuresOf inputs,
      (levelByModule inputs).get? feature.moduleId = some feature.level :=
    fun feature => (mem_featuresOf inputs feature).mp
  refine ⟨?_, ?_, ?_, ?_, ?_, ?_, ?_, ?_, ?_, ?_, ?_⟩
  · intro feature member other
    exact (get?_levelByModule (held feature member)).2 (gateable_of_ne_chat other)
  · intro feature member other
    exact levelByModule_legal inputs _ _ (held feature member) (gateable_of_ne_chat other)
  · intro feature member parent edge
    have present := (exists_featuresOf inputs _).mp ⟨feature, member, rfl⟩
    exact (exists_featuresOf inputs parent).mpr (levelByModule_satisfied inputs _ present _ edge)
  · intro domain member
    exact ((mem_toolDomainsOf inputs catalogLayer domain).mp member).2.1
  · intro domain member
    exact toolDomain_owned inputs member
  · intro role rows domain member
    have granted := ((mem_toolDomainsOf inputs catalogLayer domain).mp member).2.2.2
    rw [rows] at granted
    exact List.mem_map.mp granted
  · intro role rows provider level connector
    exact connectorsOf_granted inputs rows connector
  · intro provider level connector
    exact connectorsOf_connected inputs connector
  · exact locksOf_smartHome inputs
  · exact cloudOf_escape inputs
  · intro before row after split denies noAllow other feature member
    exact featuresOf_denied inputs split denies noAllow other member

section Example

/-- A family member whose role was written for an admin, on a box without `files`. -/
def familyWithAdminGrants : EffectiveAccessInputs where
  user :=
    { id := "u1"
      role := .family
      accessRole := some
        { mayOperateLocks := true
          cloudModelsAllowed := true
          usageDefaults := ⟨none, none, none⟩
          featureGrants := [⟨.network, .manage⟩, ⟨.docs, .act⟩, ⟨.smartHome, .manage⟩]
          toolGrants := [⟨"network", .use⟩, ⟨"data", .use⟩]
          connectorGrants := [⟨"eaglesoft", .readWrite⟩] } }
  exceptions := [⟨"e1", .smartHome, .allow, some .act⟩, ⟨"e2", .chat, .deny, none⟩]
  workspaceModuleIds := {.network, .docs, .smartHome}
  cloudEscapeEnabled := false
  connections := [⟨"eaglesoft", false⟩]
  usagePolicy := none
  deptRights := []
  toolLayers := some ⟨[⟨"get_network_status", "network", false, .catalog⟩], []⟩

theorem family_bounds_kept :
    WithinBounds (layersOf [] familyWithAdminGrants) familyWithAdminGrants
      (computeEffectiveAccess [] familyWithAdminGrants) ∧
    (computeEffectiveAccess [] familyWithAdminGrants).features =
      [⟨.chat, .act⟩, ⟨.network, .view⟩, ⟨.smartHome, .act⟩] :=
  ⟨effective_access_bounded [] familyWithAdminGrants (by decide), by decide⟩

/-- A deny on the always-on module removes nothing. -/
theorem chat_denied_stays : familyWithAdminGrants.user.role ≠ .owner ∧
    ∃ before row after, familyWithAdminGrants.exceptions = before ++ row :: after ∧
      row.effect = .deny ∧
      (∀ later ∈ after, later.moduleId = row.moduleId → later.effect = .deny) ∧
      ⟨row.moduleId, .act⟩ ∈ (computeEffectiveAccess [] familyWithAdminGrants).features :=
  ⟨by decide, [⟨"e1", .smartHome, .allow, some .act⟩], ⟨"e2", .chat, .deny, none⟩, [], by decide⟩

end Example

end Droplet.Access
