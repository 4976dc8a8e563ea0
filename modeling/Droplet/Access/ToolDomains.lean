import Droplet.Access.Catalog
import Droplet.Lib.JsonParse

/-! The two layers of tools (`services/tool-layers.service.ts`) and the tool domains a tier reaches
through its features (`services/access-catalog.ts`). -/

namespace Droplet.Access

open People (Role)

/-- `TOOL_DOMAINS` of tools-core. -/
def compiledDomains : List String :=
  ["network", "files", "smart-home", "cameras", "switch", "calendar", "reminders", "notifications",
   "email", "memory", "pm", "money", "crm", "erp", "cloud", "business", "team_chat", "agent_runs",
   "routines", "workspace", "system", "data"]

inductive ToolLayerSource where
  | catalog
  | runtime (serverId : String)

structure LayeredTool where
  name : String
  domain : String
  requiresWrite : Bool
  source : ToolLayerSource

structure ToolLayers where
  catalog : List LayeredTool
  runtime : List LayeredTool

inductive RuntimeToolDomainSource where
  | operator
  | server
  | default
  deriving DecidableEq

structure RuntimeDescriptorFacts where
  name : String
  serverId : String
  domain : String
  domainSource : RuntimeToolDomainSource

/-- What the layer reads of a `RemoteToolClassification` row. -/
structure RemoteToolClassificationRow where
  requiresWrite : Bool
  denied : Bool

/-- `IMPORT_DEFAULT_CLASSIFICATION` -/
def importDefaultClassification : RemoteToolClassificationRow := ⟨true, false⟩

abbrev ClassificationLookup := String → String → Option RemoteToolClassificationRow

/-- The text before and after the first `__`. -/
def splitSeparator : List Char → Option (List Char × List Char)
  | [] => none
  | '_' :: '_' :: rest => some ([], rest)
  | c :: rest => (splitSeparator rest).map fun parts => (c :: parts.1, parts.2)

def parseNamespacedToolName (name : String) : Option (String × String) :=
  match splitSeparator name.toList with
  | none => none
  | some (serverId, wireName) =>
    if serverId = [] ∨ wireName = [] then none
    else some (String.ofList serverId, String.ofList wireName)

def wireNameOf (name : String) : String :=
  ((parseNamespacedToolName name).map Prod.snd).getD name

def runtimeTool (lookup : ClassificationLookup) (descriptor : RuntimeDescriptorFacts) :
    Option LayeredTool :=
  if descriptor.domainSource ≠ .operator then none
  else
    let row := lookup descriptor.serverId (wireNameOf descriptor.name)
    if (row.map RemoteToolClassificationRow.denied).getD false then none
    else some
      { name := descriptor.name
        domain := descriptor.domain
        requiresWrite := (row.getD importDefaultClassification).requiresWrite
        source := .runtime descriptor.serverId }

def runtimeLayer (descriptors : List RuntimeDescriptorFacts) (lookup : ClassificationLookup) :
    List LayeredTool :=
  descriptors.filterMap (runtimeTool lookup)

/-- The operator blocks the tool; whatever else its row says stays. -/
def denyTool (serverId toolName : String) (lookup : ClassificationLookup) : ClassificationLookup :=
  fun server tool =>
    if server = serverId ∧ tool = toolName then
      some { (lookup server tool).getD importDefaultClassification with denied := true }
    else lookup server tool

def classifyAsWrite (serverId toolName : String) (lookup : ClassificationLookup) :
    ClassificationLookup :=
  fun server tool =>
    if server = serverId ∧ tool = toolName then
      some { (lookup server tool).getD importDefaultClassification with requiresWrite := true }
    else lookup server tool

def allTools (layers : ToolLayers) : List LayeredTool := layers.catalog ++ layers.runtime

def populatedDomains (layers : ToolLayers) : List String :=
  ((allTools layers).map LayeredTool.domain).dedup

def readableDomains (layers : ToolLayers) : List String :=
  (((allTools layers).filter fun tool => !tool.requiresWrite).map LayeredTool.domain).dedup

/-- `sort()` compares UTF-16 code units. -/
def codeUnits (text : String) : List ℕ := text.toList.flatMap Json.charUnits

def runtimeOnlyDomains (layers : ToolLayers) : List String :=
  ((layers.runtime.map LayeredTool.domain).filter
    fun domain => !compiledDomains.contains domain).dedup.mergeSort
      fun a b => decide (codeUnits a ≤ codeUnits b)

def toolDomainUniverse (layers : ToolLayers) : List String :=
  compiledDomains ++ runtimeOnlyDomains layers

def tierReachableDomains (tier : Role) (layers : ToolLayers) : List String :=
  if tier = .owner ∨ tier = .admin then populatedDomains layers else readableDomains layers

/-- `OWNERS_BY_DOMAIN.get`: empty where no module claims the domain. -/
def ownersByDomain (domain : String) : List ModuleId :=
  modules.flatMap fun definition =>
    (definition.toolDomains.filter fun claimed => claimed = domain).map fun _ => definition.id

/-- The keys of `FEATURE_UNGATED_TOOL_DOMAINS`. -/
def featureUngatedToolDomains : List String :=
  ["system", "data", "agent_runs", "routines", "workspace", "erp", "cloud"]

def isFeatureUngated (domain : String) : Bool := featureUngatedToolDomains.contains domain

def domainsForFeatures (featureIds : List ModuleId) (runtimeDomains : List String) : List String :=
  runtimeDomains.filter (fun domain => ownersByDomain domain = []) ++
    compiledDomains.filter fun domain =>
      if ownersByDomain domain ≠ [] then
        (ownersByDomain domain).any fun owner => featureIds.contains owner
      else isFeatureUngated domain

theorem mem_populatedDomains (layers : ToolLayers) (domain : String) :
    domain ∈ populatedDomains layers ↔ ∃ tool ∈ allTools layers, tool.domain = domain := by
  simp [populatedDomains]

theorem mem_readableDomains (layers : ToolLayers) (domain : String) :
    domain ∈ readableDomains layers ↔
      ∃ tool ∈ allTools layers, tool.requiresWrite = false ∧ tool.domain = domain := by
  simp [readableDomains, and_assoc]

theorem mem_runtimeOnlyDomains (layers : ToolLayers) (domain : String) :
    domain ∈ runtimeOnlyDomains layers ↔
      (∃ tool ∈ layers.runtime, tool.domain = domain) ∧ domain ∉ compiledDomains := by
  simp [runtimeOnlyDomains, List.mem_mergeSort]

theorem mem_domainsForFeatures (featureIds : List ModuleId) (runtimeDomains : List String)
    (domain : String) : domain ∈ domainsForFeatures featureIds runtimeDomains ↔
      (domain ∈ runtimeDomains ∧ ownersByDomain domain = []) ∨
      (domain ∈ compiledDomains ∧
        ((∃ owner ∈ ownersByDomain domain, owner ∈ featureIds) ∨
          (ownersByDomain domain = [] ∧ isFeatureUngated domain))) := by
  rw [domainsForFeatures, List.mem_append, List.mem_filter, List.mem_filter]
  by_cases unclaimed : ownersByDomain domain = []
  · simp [unclaimed]
  · simp [unclaimed]

/-- Every tool of the left layers has one of its domain on the right, and one that does not write
if it does not write. -/
structure LayersBelow (layers' layers : ToolLayers) : Prop where
  catalog : layers'.catalog = layers.catalog
  runtime : ∀ tool' ∈ layers'.runtime, ∃ tool ∈ layers.runtime, tool.domain = tool'.domain ∧
    (tool'.requiresWrite = false → tool.requiresWrite = false)

theorem LayersBelow.refl (layers : ToolLayers) : LayersBelow layers layers :=
  ⟨rfl, fun tool member => ⟨tool, member, rfl, id⟩⟩

variable {layers' layers : ToolLayers}

theorem LayersBelow.allTools (below : LayersBelow layers' layers) :
    ∀ tool' ∈ allTools layers', ∃ tool ∈ allTools layers, tool.domain = tool'.domain ∧
      (tool'.requiresWrite = false → tool.requiresWrite = false) := by
  intro tool' member
  rcases List.mem_append.mp member with inCatalog | inRuntime
  · exact ⟨tool', List.mem_append_left _ (below.catalog ▸ inCatalog), rfl, id⟩
  · obtain ⟨tool, present, domain, write⟩ := below.runtime tool' inRuntime
    exact ⟨tool, List.mem_append_right _ present, domain, write⟩

theorem readable_populated (layers : ToolLayers) : readableDomains layers ⊆ populatedDomains layers := by
  intro domain member
  obtain ⟨tool, present, _, same⟩ := (mem_readableDomains layers domain).mp member
  exact (mem_populatedDomains layers domain).mpr ⟨tool, present, same⟩

section

variable (below : LayersBelow layers' layers)
include below

theorem populatedDomains_mono : populatedDomains layers' ⊆ populatedDomains layers := by
  intro domain member
  obtain ⟨tool', present', same'⟩ := (mem_populatedDomains layers' domain).mp member
  obtain ⟨tool, present, same, _⟩ := below.allTools tool' present'
  exact (mem_populatedDomains layers domain).mpr ⟨tool, present, same.trans same'⟩

theorem readableDomains_mono : readableDomains layers' ⊆ readableDomains layers := by
  intro domain member
  obtain ⟨tool', present', reads, same'⟩ := (mem_readableDomains layers' domain).mp member
  obtain ⟨tool, present, same, write⟩ := below.allTools tool' present'
  exact (mem_readableDomains layers domain).mpr ⟨tool, present, write reads, same.trans same'⟩

theorem runtimeOnlyDomains_mono : runtimeOnlyDomains layers' ⊆ runtimeOnlyDomains layers := by
  intro domain member
  obtain ⟨⟨tool', present', same'⟩, own⟩ := (mem_runtimeOnlyDomains layers' domain).mp member
  obtain ⟨tool, present, same, _⟩ := below.runtime tool' present'
  exact (mem_runtimeOnlyDomains layers domain).mpr ⟨⟨tool, present, same.trans same'⟩, own⟩

end

theorem domainsForFeatures_mono {featureIds' featureIds : List ModuleId}
    {runtimeDomains' runtimeDomains : List String} (fewer : featureIds' ⊆ featureIds)
    (less : runtimeDomains' ⊆ runtimeDomains) :
    domainsForFeatures featureIds' runtimeDomains' ⊆ domainsForFeatures featureIds runtimeDomains := by
  intro domain member
  rw [mem_domainsForFeatures] at member ⊢
  rcases member with ⟨atRuntime, unclaimed⟩ | ⟨compiled, owned | ungated⟩
  · exact .inl ⟨less atRuntime, unclaimed⟩
  · obtain ⟨owner, claims, held⟩ := owned
    exact .inr ⟨compiled, .inl ⟨owner, claims, fewer held⟩⟩
  · exact .inr ⟨compiled, .inr ungated⟩

theorem tierReachableDomains_mono {tier' tier : Role} (lower : tier'.rank ≤ tier.rank)
    (below : LayersBelow layers' layers) :
    tierReachableDomains tier' layers' ⊆ tierReachableDomains tier layers := by
  unfold tierReachableDomains
  split_ifs with high' high high
  · exact populatedDomains_mono below
  · exfalso
    rw [not_or] at high
    cases tier <;> cases tier' <;> simp_all [Role.rank]
  · exact List.Subset.trans (readableDomains_mono below) (readable_populated layers)
  · exact readableDomains_mono below

/-- Every row that was blocked or a write still is. -/
def LookupBelow (lookup' lookup : ClassificationLookup) : Prop :=
  ∀ descriptor tool', runtimeTool lookup' descriptor = some tool' →
    ∃ tool, runtimeTool lookup descriptor = some tool ∧ tool.domain = tool'.domain ∧
      (tool'.requiresWrite = false → tool.requiresWrite = false)

theorem runtimeLayer_below {lookup' lookup : ClassificationLookup}
    (stricter : LookupBelow lookup' lookup) (catalog : List LayeredTool)
    (descriptors : List RuntimeDescriptorFacts) :
    LayersBelow ⟨catalog, runtimeLayer descriptors lookup'⟩
      ⟨catalog, runtimeLayer descriptors lookup⟩ := by
  refine ⟨rfl, ?_⟩
  intro tool' member
  obtain ⟨descriptor, present, built⟩ := List.mem_filterMap.mp member
  obtain ⟨tool, known, same⟩ := stricter descriptor tool' built
  exact ⟨tool, List.mem_filterMap.mpr ⟨descriptor, present, known⟩, same⟩

theorem denyTool_below (serverId toolName : String) (lookup : ClassificationLookup) :
    LookupBelow (denyTool serverId toolName lookup) lookup := by
  intro descriptor tool' built
  by_cases same : descriptor.serverId = serverId ∧ wireNameOf descriptor.name = toolName
  · simp [runtimeTool, denyTool, same] at built
  · have kept : runtimeTool (denyTool serverId toolName lookup) descriptor =
        runtimeTool lookup descriptor := by
      simp only [runtimeTool, denyTool, if_neg same]
    exact ⟨tool', kept ▸ built, rfl, id⟩

theorem classifyAsWrite_below (serverId toolName : String) (lookup : ClassificationLookup) :
    LookupBelow (classifyAsWrite serverId toolName lookup) lookup := by
  intro descriptor tool' built
  by_cases same : descriptor.serverId = serverId ∧ wireNameOf descriptor.name = toolName
  · simp only [runtimeTool, classifyAsWrite, if_pos same] at built ⊢
    cases row : lookup descriptor.serverId (wireNameOf descriptor.name) with
    | none => grind [importDefaultClassification]
    | some row => grind
  · have kept : runtimeTool (classifyAsWrite serverId toolName lookup) descriptor =
        runtimeTool lookup descriptor := by
      simp only [runtimeTool, classifyAsWrite, if_neg same]
    exact ⟨tool', kept ▸ built, rfl, id⟩

end Droplet.Access
