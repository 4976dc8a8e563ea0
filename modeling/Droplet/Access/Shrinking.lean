import Droplet.Access.Bounds

/-! Taking something away from the inputs of the composition never widens its result. -/

namespace Droplet.Access

open People (Role)
open Lib (InsertionMap AtMost)

/-- The primary keys of the grant tables: one row of a role for each module, domain and provider. -/
structure AccessRoleGrantRows.KeysUnique (role : AccessRoleGrantRows) : Prop where
  features : (role.featureGrants.map Feature.moduleId).Nodup
  tools : (role.toolGrants.map ToolGrant.domain).Nodup
  connectors : (role.connectorGrants.map ConnectorGrant.provider).Nodup

inductive RoleShrinks (role : AccessRoleGrantRows) : AccessRoleGrantRows → Prop
  | featureGrantRemoved (before : List Feature) (grant : Feature) (after : List Feature) :
      role.featureGrants = before ++ grant :: after →
      RoleShrinks role { role with featureGrants := before ++ after }
  | featureGrantLowered (before : List Feature) (grant : Feature) (after : List Feature)
      (level : FeatureLevel) : role.featureGrants = before ++ grant :: after →
      level.rank ≤ grant.level.rank →
      RoleShrinks role { role with featureGrants := before ++ { grant with level } :: after }
  | toolGrantRemoved (before : List ToolGrant) (grant : ToolGrant) (after : List ToolGrant) :
      role.toolGrants = before ++ grant :: after →
      RoleShrinks role { role with toolGrants := before ++ after }
  | toolGrantLowered (before : List ToolGrant) (grant : ToolGrant) (after : List ToolGrant)
      (level : ToolLevel) : role.toolGrants = before ++ grant :: after →
      level.rank ≤ grant.level.rank →
      RoleShrinks role { role with toolGrants := before ++ { grant with level } :: after }
  | connectorGrantRemoved (before : List ConnectorGrant) (grant : ConnectorGrant)
      (after : List ConnectorGrant) : role.connectorGrants = before ++ grant :: after →
      RoleShrinks role { role with connectorGrants := before ++ after }
  | connectorGrantLowered (before : List ConnectorGrant) (grant : ConnectorGrant)
      (after : List ConnectorGrant) (level : ConnectorLevel) :
      role.connectorGrants = before ++ grant :: after → level.rank ≤ grant.level.rank →
      RoleShrinks role { role with connectorGrants := before ++ { grant with level } :: after }
  | locksOff : RoleShrinks role { role with mayOperateLocks := false }
  | cloudModelsOff : RoleShrinks role { role with cloudModelsAllowed := false }

def EffectiveAccessInputs.withRole (inputs : EffectiveAccessInputs) (role : AccessRoleGrantRows) :
    EffectiveAccessInputs :=
  { inputs with user := { inputs.user with accessRole := some role } }

def EffectiveAccessInputs.withTier (inputs : EffectiveAccessInputs) (tier : Role) :
    EffectiveAccessInputs :=
  { inputs with user := { inputs.user with role := tier } }

inductive Shrinks (inputs : EffectiveAccessInputs) : EffectiveAccessInputs → Prop
  | role (role role' : AccessRoleGrantRows) : inputs.user.accessRole = some role →
      RoleShrinks role role' → Shrinks inputs (inputs.withRole role')
  | workspaceModuleRemoved (moduleId : ModuleId) :
      Shrinks inputs { inputs with workspaceModuleIds := inputs.workspaceModuleIds.erase moduleId }
  | cloudEscapeOff : Shrinks inputs { inputs with cloudEscapeEnabled := false }
  | writesDisabled (before : List Connection) (connection : Connection) (after : List Connection) :
      inputs.connections = before ++ connection :: after →
      Shrinks inputs
        { inputs with connections := before ++ { connection with writeEnabled := false } :: after }
  | connectionRemoved (before : List Connection) (connection : Connection)
      (after : List Connection) : inputs.connections = before ++ connection :: after →
      Shrinks inputs { inputs with connections := before ++ after }
  | denyAdded (row : AccessExceptionRow) : row.effect = .deny →
      Shrinks inputs { inputs with exceptions := inputs.exceptions ++ [row] }
  | runtimeToolDenied (catalog : List LayeredTool) (descriptors : List RuntimeDescriptorFacts)
      (lookup : ClassificationLookup) (serverId toolName : String) :
      inputs.toolLayers = some ⟨catalog, runtimeLayer descriptors lookup⟩ →
      Shrinks inputs { inputs with
        toolLayers := some ⟨catalog, runtimeLayer descriptors (denyTool serverId toolName lookup)⟩ }
  | runtimeToolWrites (catalog : List LayeredTool) (descriptors : List RuntimeDescriptorFacts)
      (lookup : ClassificationLookup) (serverId toolName : String) :
      inputs.toolLayers = some ⟨catalog, runtimeLayer descriptors lookup⟩ →
      Shrinks inputs { inputs with
        toolLayers :=
          some ⟨catalog, runtimeLayer descriptors (classifyAsWrite serverId toolName lookup)⟩ }
  | tierLowered (tier : Role) : inputs.user.role.isAssignable → tier.isAssignable →
      tier.rank ≤ inputs.user.role.rank → Shrinks inputs (inputs.withTier tier)

/-- Nothing of the left result is more than what the right one has. -/
structure NoWider (result' result : EffectiveAccessResult) : Prop where
  features : ∀ feature' ∈ result'.features, ∃ feature ∈ result.features,
    feature.moduleId = feature'.moduleId ∧ feature'.level.rank ≤ feature.level.rank
  toolDomains : result'.toolDomains ⊆ result.toolDomains
  locks : result'.locks → result.locks
  cloud : result'.cloud → result.cloud
  connectors : ∀ provider, AtMost ConnectorLevel.rank (result'.connectors.get? provider)
    (result.connectors.get? provider)
  connectorGrants : ∀ grants', result'.connectorGrants = some grants' → ∃ grants,
    result.connectorGrants = some grants ∧
      ∀ provider, AtMost ConnectorLevel.rank (grants'.get? provider) (grants.get? provider)

structure RoleBelow (role' role : AccessRoleGrantRows) : Prop where
  features : ∀ grant' ∈ role'.featureGrants, ∃ grant ∈ role.featureGrants,
    grant.moduleId = grant'.moduleId ∧ grant'.level.rank ≤ grant.level.rank
  tools : ∀ grant' ∈ role'.toolGrants, ∃ grant ∈ role.toolGrants, grant.domain = grant'.domain
  connectors : ∀ grant' ∈ role'.connectorGrants, ∃ grant ∈ role.connectorGrants,
    grant.provider = grant'.provider ∧ grant'.level.rank ≤ grant.level.rank
  locks : role'.mayOperateLocks → role.mayOperateLocks
  cloud : role'.cloudModelsAllowed → role.cloudModelsAllowed

theorem RoleBelow.refl (role : AccessRoleGrantRows) : RoleBelow role role where
  features := fun grant member => ⟨grant, member, rfl, le_refl _⟩
  tools := fun grant member => ⟨grant, member, rfl⟩
  connectors := fun grant member => ⟨grant, member, rfl, le_refl _⟩
  locks := id
  cloud := id

structure InputsBelow (catalogLayer : List LayeredTool) (role' role : AccessRoleGrantRows)
    (inputs' inputs : EffectiveAccessInputs) : Prop where
  held' : inputs'.user.accessRole = some role'
  held : inputs.user.accessRole = some role
  roles : RoleBelow role' role
  tier : inputs'.user.role.rank ≤ inputs.user.role.rank
  owner : inputs'.user.role = .owner ↔ inputs.user.role = .owner
  exceptions : ∃ added, (∀ row ∈ added, row.effect = .deny) ∧
    inputs'.exceptions = inputs.exceptions ++ added
  workspace : inputs'.workspaceModuleIds ⊆ inputs.workspaceModuleIds
  escape : inputs'.cloudEscapeEnabled → inputs.cloudEscapeEnabled
  connections : ∀ connection' ∈ inputs'.connections, ∃ connection ∈ inputs.connections,
    connection.provider = connection'.provider ∧
      connection'.level.rank ≤ connection.level.rank
  layers : LayersBelow (layersOf catalogLayer inputs') (layersOf catalogLayer inputs)

theorem InputsBelow.refl (catalogLayer : List LayeredTool) {role : AccessRoleGrantRows}
    {inputs : EffectiveAccessInputs} (held : inputs.user.accessRole = some role) :
    InputsBelow catalogLayer role role inputs inputs where
  held' := held
  held := held
  roles := RoleBelow.refl role
  tier := le_refl _
  owner := Iff.rfl
  exceptions := ⟨[], by simp⟩
  workspace := Finset.Subset.refl _
  escape := id
  connections := fun connection member => ⟨connection, member, rfl, le_refl _⟩
  layers := LayersBelow.refl _

theorem member_removed {α : Type} {list before after : List α} {x : α}
    (split : list = before ++ x :: after) {y : α} (member : y ∈ before ++ after) : y ∈ list := by
  rw [split]
  rcases List.mem_append.mp member with first | last
  · exact List.mem_append_left _ first
  · exact List.mem_append_right _ (List.mem_cons_of_mem _ last)

theorem bounded_replaced {α : Type} {Bounds : α → α → Prop} {list before after : List α}
    {x x' : α} (split : list = before ++ x :: after) (same : ∀ y, Bounds y y)
    (lower : Bounds x x') : ∀ y ∈ before ++ x' :: after, ∃ z ∈ list, Bounds z y := by
  intro y member
  rcases List.mem_append.mp member with first | last
  · exact ⟨y, split ▸ List.mem_append_left _ first, same y⟩
  · rcases List.mem_cons.mp last with rfl | later
    · exact ⟨x, split ▸ List.mem_append_right _ List.mem_cons_self, lower⟩
    · exact ⟨y, split ▸ List.mem_append_right _ (List.mem_cons_of_mem _ later), same y⟩

theorem RoleShrinks.below {role role' : AccessRoleGrantRows} (shrinks : RoleShrinks role role') :
    RoleBelow role' role := by
  have same := RoleBelow.refl role
  cases shrinks with
  | featureGrantRemoved before grant after split =>
    exact { same with features := fun grant' member => same.features grant' (member_removed split member) }
  | featureGrantLowered before grant after level split lower =>
    exact { same with
      features := bounded_replaced split (fun _ => ⟨rfl, le_refl _⟩) ⟨rfl, lower⟩ }
  | toolGrantRemoved before grant after split =>
    exact { same with tools := fun grant' member => same.tools grant' (member_removed split member) }
  | toolGrantLowered before grant after level split lower =>
    exact { same with
      tools := bounded_replaced split (fun _ => rfl) rfl }
  | connectorGrantRemoved before grant after split =>
    exact { same with
      connectors := fun grant' member => same.connectors grant' (member_removed split member) }
  | connectorGrantLowered before grant after level split lower =>
    exact { same with
      connectors := bounded_replaced split (fun _ => ⟨rfl, le_refl _⟩) ⟨rfl, lower⟩ }
  | locksOff => exact { same with locks := fun impossible => nomatch impossible }
  | cloudModelsOff => exact { same with cloud := fun impossible => nomatch impossible }

theorem Shrinks.below (catalogLayer : List LayeredTool) {inputs inputs' : EffectiveAccessInputs}
    (shrinks : Shrinks inputs inputs') {role : AccessRoleGrantRows} (held : inputs.user.accessRole = some role) :
    ∃ role', InputsBelow catalogLayer role' role inputs' inputs := by
  have same := InputsBelow.refl catalogLayer held
  cases shrinks with
  | role known role' stored shrinks =>
    have equal : known = role := Option.some.inj (stored.symm.trans held)
    subst equal
    exact ⟨role', { same with held' := rfl, roles := shrinks.below }⟩
  | workspaceModuleRemoved moduleId =>
    exact ⟨role, { same with workspace := Finset.erase_subset _ _ }⟩
  | cloudEscapeOff =>
    exact ⟨role, { same with escape := fun impossible => nomatch impossible }⟩
  | writesDisabled before connection after split =>
    exact ⟨role, { same with
      connections := bounded_replaced split (fun _ => ⟨rfl, le_refl _⟩) ⟨rfl, Nat.zero_le _⟩ }⟩
  | connectionRemoved before connection after split =>
    exact ⟨role, { same with
      connections := fun connection' member =>
        same.connections connection' (member_removed split member) }⟩
  | denyAdded row denies =>
    exact ⟨role, { same with exceptions := ⟨[row], by simpa using denies, rfl⟩ }⟩
  | runtimeToolDenied catalog descriptors lookup serverId toolName known =>
    refine ⟨role, { same with layers := ?_ }⟩
    simp only [layersOf, known, Option.getD_some]
    exact runtimeLayer_below (denyTool_below serverId toolName lookup) catalog descriptors
  | runtimeToolWrites catalog descriptors lookup serverId toolName known =>
    refine ⟨role, { same with layers := ?_ }⟩
    simp only [layersOf, known, Option.getD_some]
    exact runtimeLayer_below (classifyAsWrite_below serverId toolName lookup) catalog descriptors
  | tierLowered tier assignable assignable' lower =>
    refine ⟨role, { same with tier := lower, owner := ?_ }⟩
    constructor
    · intro owner
      rw [show tier = .owner from owner] at assignable'
      cases assignable'
    · intro owner
      rw [owner] at assignable
      cases assignable

end Droplet.Access
