import Droplet.People.Guard

/-! What a tier may hold on a module (`services/access-catalog.ts`), and which modules need which
others (`modules/module-registry.ts`). -/

namespace Droplet.Access

open People (Role)

inductive ModuleId where
  | chat
  | knowledge
  | files
  | docs
  | email
  | calendar
  | projects
  | voice
  | cameras
  | smartHome
  | network
  | managedSwitch
  | teamChat
  | contacts
  | crm
  | money
  | support
  deriving DecidableEq

inductive FeatureLevel where
  | view
  | act
  | manage
  deriving DecidableEq

/-- `FEATURE_LEVEL_RANK` -/
def FeatureLevel.rank : FeatureLevel → ℕ
  | .view => 0
  | .act => 1
  | .manage => 2

structure Feature where
  moduleId : ModuleId
  level : FeatureLevel
  deriving DecidableEq

def alwaysOnFeatures : List Feature := [⟨.chat, .act⟩]

structure CatalogLevelDef where
  level : FeatureLevel
  minTier : Option Role
  refuseBelowFloor : Bool

section Catalog

def unfloored (level : FeatureLevel) : CatalogLevelDef := ⟨level, none, false⟩

def floored (level : FeatureLevel) (minTier : Role) : CatalogLevelDef := ⟨level, some minTier, false⟩

def refusedBelow (level : FeatureLevel) (minTier : Role) : CatalogLevelDef :=
  ⟨level, some minTier, true⟩

/-- `CATALOG`, in the order of its keys. -/
def catalog : List (ModuleId × List CatalogLevelDef) :=
  [(.files, [unfloored .view, floored .act .family, floored .manage .family]),
   (.email, [unfloored .view, floored .act .family, floored .manage .family]),
   (.cameras, [unfloored .view, floored .act .family, floored .manage .family]),
   (.network, [unfloored .view, floored .act .admin, floored .manage .admin]),
   (.smartHome, [unfloored .view, floored .act .family, floored .manage .family]),
   (.calendar, [unfloored .view, floored .act .family, floored .manage .family]),
   (.docs, [unfloored .view, floored .act .family, floored .manage .family]),
   (.knowledge, [unfloored .view, floored .act .family, floored .manage .family]),
   (.projects, [refusedBelow .view .family, floored .act .family, floored .manage .family]),
   (.crm, [refusedBelow .view .family, floored .act .family, floored .manage .family]),
   (.money, [refusedBelow .view .family, floored .manage .admin]),
   (.support, [refusedBelow .view .family, floored .act .family, floored .manage .admin]),
   (.contacts, [unfloored .view, floored .act .family, floored .manage .family]),
   (.voice, [unfloored .view, unfloored .act, floored .manage .family]),
   (.managedSwitch, [unfloored .view, floored .manage .admin]),
   (.teamChat, [unfloored .view, unfloored .act])]

def gateableModuleIds : List ModuleId := catalog.map Prod.fst

def isGateableModuleId (moduleId : ModuleId) : Bool := gateableModuleIds.contains moduleId

def catalogLevels (moduleId : ModuleId) : List CatalogLevelDef := (catalog.lookup moduleId).getD []

end Catalog

theorem not_gateable_iff (moduleId : ModuleId) : isGateableModuleId moduleId = false ↔ moduleId = .chat := by
  cases moduleId <;> decide

def tierMayHold (tier : Role) (definition : CatalogLevelDef) : Bool :=
  match definition.minTier with
  | none => true
  | some minTier => decide (minTier.rank ≤ tier.rank)

def tierRefused (tier : Role) (moduleId : ModuleId) : Bool :=
  match (catalogLevels moduleId).find? (fun definition => definition.level = .view) with
  | none => false
  | some view => view.refuseBelowFloor && !tierMayHold tier view

/-- The loop of `maxLevelFor` and of `clampLevel`: the highest level that `mayHold` lets through. -/
def highestLevel (mayHold : CatalogLevelDef → Bool) (definitions : List CatalogLevelDef)
    (best : FeatureLevel) : FeatureLevel :=
  definitions.foldl
    (fun best definition =>
      if mayHold definition ∧ definition.level.rank > best.rank then definition.level else best)
    best

def maxLevelFor (tier : Role) (moduleId : ModuleId) : Option FeatureLevel :=
  if tierRefused tier moduleId then none
  else some (highestLevel (tierMayHold tier) (catalogLevels moduleId) .view)

def clampLevel (tier : Role) (moduleId : ModuleId) (requested : FeatureLevel) :
    Option FeatureLevel :=
  if tierRefused tier moduleId then none
  else some (highestLevel
    (fun definition => tierMayHold tier definition && definition.level.rank ≤ requested.rank)
    (catalogLevels moduleId) .view)

def fullCatalogFeatures (tier : Role) : List Feature :=
  alwaysOnFeatures ++
    gateableModuleIds.filterMap fun moduleId =>
      (maxLevelFor tier moduleId).map fun level => ⟨moduleId, level⟩

theorem highestLevel_le {mayHold mayHold' : CatalogLevelDef → Bool}
    (fewer : ∀ definition, mayHold definition → mayHold' definition)
    (definitions : List CatalogLevelDef) (best best' : FeatureLevel) (below : best.rank ≤ best'.rank) :
    (highestLevel mayHold definitions best).rank ≤
      (highestLevel mayHold' definitions best').rank := by
  induction definitions generalizing best best' with
  | nil => exact below
  | cons head tail ih =>
    simp only [highestLevel, List.foldl_cons] at ih ⊢
    apply ih
    have held := fewer head
    split_ifs with first second second
    · exact le_refl _
    · rw [not_and_or, not_lt] at second
      exact second.resolve_left (fun not => not (held first.1))
    · exact le_trans below (le_of_lt second.2)
    · exact below

theorem tierMayHold_mono {tier tier' : Role} (lower : tier'.rank ≤ tier.rank)
    (definition : CatalogLevelDef) (held : tierMayHold tier' definition) : tierMayHold tier definition := by
  obtain ⟨level, minTier, refuse⟩ := definition
  cases minTier with
  | none => rfl
  | some minTier =>
    simp only [tierMayHold, decide_eq_true_eq] at held ⊢
    exact le_trans held lower

theorem tierRefused_mono {tier tier' : Role} (lower : tier'.rank ≤ tier.rank) (moduleId : ModuleId)
    (refused : tierRefused tier moduleId) : tierRefused tier' moduleId := by
  unfold tierRefused at refused ⊢
  split at refused
  · cases refused
  · rename_i view _
    simp only [Bool.and_eq_true, Bool.not_eq_true'] at refused ⊢
    refine ⟨refused.1, ?_⟩
    apply Bool.eq_false_iff.mpr
    intro held
    exact Bool.eq_false_iff.mp refused.2 (tierMayHold_mono lower view held)

theorem clampLevel_eq_none_iff (tier : Role) (moduleId : ModuleId) (requested : FeatureLevel) :
    clampLevel tier moduleId requested = none ↔ tierRefused tier moduleId := by
  simp [clampLevel]

theorem clampLevel_le_max {tier : Role} {moduleId : ModuleId} {requested level : FeatureLevel}
    (clamped : clampLevel tier moduleId requested = some level) :
    ∃ top, maxLevelFor tier moduleId = some top ∧ level.rank ≤ top.rank := by
  unfold clampLevel at clamped
  split at clamped
  · cases clamped
  · rename_i allowed
    cases clamped
    refine ⟨_, by rw [maxLevelFor, if_neg allowed], ?_⟩
    apply highestLevel_le _ _ _ _ (le_refl _)
    intro definition held
    exact (Bool.and_eq_true _ _ ▸ held).1

theorem clampLevel_mono {tier tier' : Role} (lower : tier'.rank ≤ tier.rank) (moduleId : ModuleId)
    {requested requested' : FeatureLevel} (less : requested'.rank ≤ requested.rank)
    {level' : FeatureLevel} (clamped : clampLevel tier' moduleId requested' = some level') :
    ∃ level, clampLevel tier moduleId requested = some level ∧ level'.rank ≤ level.rank := by
  unfold clampLevel at clamped
  split at clamped
  · cases clamped
  · rename_i allowed
    cases clamped
    have stillAllowed : ¬ tierRefused tier moduleId := fun refused =>
      allowed (tierRefused_mono lower moduleId refused)
    refine ⟨_, by rw [clampLevel, if_neg stillAllowed], ?_⟩
    apply highestLevel_le _ _ _ _ (le_refl _)
    intro definition held
    simp only [Bool.and_eq_true, decide_eq_true_eq] at held ⊢
    exact ⟨tierMayHold_mono lower definition held.1, le_trans held.2 less⟩

/-- What the resolver reads of a `ModuleDef`. -/
structure ModuleDef where
  id : ModuleId
  toolDomains : List String
  requires : Option ModuleId

/-- `MODULES` -/
def modules : List ModuleDef :=
  [⟨.chat, [], none⟩,
   ⟨.teamChat, ["team_chat"], none⟩,
   ⟨.knowledge, ["memory"], none⟩,
   ⟨.files, ["files"], none⟩,
   ⟨.docs, [], some .files⟩,
   ⟨.email, ["email"], none⟩,
   ⟨.calendar, ["calendar", "reminders", "notifications"], none⟩,
   ⟨.projects, ["pm", "business"], none⟩,
   ⟨.crm, ["crm", "business"], none⟩,
   ⟨.money, ["money"], none⟩,
   ⟨.support, [], none⟩,
   ⟨.contacts, [], none⟩,
   ⟨.voice, [], none⟩,
   ⟨.cameras, ["cameras"], none⟩,
   ⟨.smartHome, ["smart-home"], none⟩,
   ⟨.network, ["network"], none⟩,
   ⟨.managedSwitch, ["switch"], none⟩]

/-- `MODULE_REQUIRES.get` -/
def moduleRequires (moduleId : ModuleId) : Option ModuleId :=
  (modules.find? fun definition => definition.id = moduleId).bind ModuleDef.requires

section Satisfied

variable (edges : ModuleId → Option ModuleId)

def parentHeld (out : List ModuleId) (id : ModuleId) : Bool :=
  match edges id with
  | none => true
  | some parent => out.contains parent

/-- One round of the loop: an id whose parent is gone by then is deleted. -/
def satisfiedRound (out : List ModuleId) : List ModuleId :=
  out.foldl (fun acc id => if parentHeld edges acc id then acc else acc.filter (· ≠ id)) out

/-- Rounds until nothing changed; no more rounds than there are ids to delete. -/
def satisfiedRounds : ℕ → List ModuleId → List ModuleId
  | 0, out => out
  | rounds + 1, out =>
    let next := satisfiedRound edges out
    if next.length = out.length then out else satisfiedRounds rounds next

def satisfiedModuleIds (held : List ModuleId) : List ModuleId :=
  satisfiedRounds edges held.length held

def Satisfied (held : List ModuleId) : Prop :=
  ∀ id ∈ held, ∀ parent, edges id = some parent → parent ∈ held

variable {edges}

theorem parentHeld_iff (out : List ModuleId) (id : ModuleId) :
    parentHeld edges out id ↔ ∀ parent, edges id = some parent → parent ∈ out := by
  unfold parentHeld
  cases edges id with
  | none | some => simp

theorem round_sublist (ids acc : List ModuleId) :
    (ids.foldl (fun acc id => if parentHeld edges acc id then acc else acc.filter (· ≠ id))
      acc).Sublist acc := by
  induction ids generalizing acc with
  | nil => exact List.Sublist.refl _
  | cons head tail ih =>
    rw [List.foldl_cons]
    split
    · exact ih acc
    · exact (ih _).trans List.filter_sublist

theorem round_keeps {closed : List ModuleId} (satisfied : Satisfied edges closed)
    (ids acc : List ModuleId) (within : closed ⊆ acc) :
    closed ⊆ ids.foldl
      (fun acc id => if parentHeld edges acc id then acc else acc.filter (· ≠ id)) acc := by
  induction ids generalizing acc with
  | nil => exact within
  | cons head tail ih =>
    rw [List.foldl_cons]
    split
    · exact ih acc within
    · rename_i orphan
      apply ih
      intro id member
      rw [List.mem_filter, decide_eq_true_eq]
      refine ⟨within member, ?_⟩
      intro same
      apply orphan
      rw [parentHeld_iff]
      intro parent edge
      exact within (satisfied head (same ▸ member) parent edge)

theorem round_unchanged (ids acc : List ModuleId)
    (same : (ids.foldl (fun acc id => if parentHeld edges acc id then acc else acc.filter (· ≠ id))
      acc).length = acc.length) :
    ∀ id ∈ ids, id ∈ acc → ∀ parent, edges id = some parent → parent ∈ acc := by
  induction ids with
  | nil =>
    intro id member
    cases member
  | cons head tail ih =>
    rw [List.foldl_cons] at same
    split at same
    · rename_i held
      intro id member present
      rcases List.mem_cons.mp member with rfl | later
      · exact (parentHeld_iff _ _).mp held
      · exact ih same id later present
    · rename_i orphan
      have shorter := (@round_sublist edges tail (acc.filter (· ≠ head))).length_le
      have whole : acc.filter (· ≠ head) = acc :=
        List.filter_sublist.eq_of_length_le (same ▸ shorter)
      rw [whole] at same
      intro id member present
      rcases List.mem_cons.mp member with rfl | later
      · rw [← whole, List.mem_filter] at present
        simp at present
      · exact ih same id later present

theorem satisfiedRounds_sublist (rounds : ℕ) (out : List ModuleId) :
    (satisfiedRounds edges rounds out).Sublist out := by
  induction rounds generalizing out with
  | zero => exact List.Sublist.refl _
  | succ rounds ih =>
    simp only [satisfiedRounds]
    split
    · exact List.Sublist.refl _
    · exact (ih _).trans (round_sublist _ _)

theorem satisfiedRounds_satisfied (rounds : ℕ) (out : List ModuleId) (enough : out.length ≤ rounds) :
    Satisfied edges (satisfiedRounds edges rounds out) := by
  induction rounds generalizing out with
  | zero =>
    have empty : out = [] := List.length_eq_zero_iff.mp (Nat.le_zero.mp enough)
    subst empty
    intro id member
    cases member
  | succ rounds ih =>
    simp only [satisfiedRounds]
    split
    · rename_i same
      intro id member
      exact round_unchanged out out same id member member
    · rename_i changed
      apply ih
      have shorter : (satisfiedRound edges out).length ≤ out.length :=
        (round_sublist _ _).length_le
      omega

theorem satisfiedRounds_keeps {closed : List ModuleId} (satisfied : Satisfied edges closed)
    (rounds : ℕ) (out : List ModuleId) (within : closed ⊆ out) : closed ⊆ satisfiedRounds edges rounds out := by
  induction rounds generalizing out with
  | zero => exact within
  | succ rounds ih =>
    simp only [satisfiedRounds]
    split
    · exact within
    · exact ih _ (round_keeps satisfied out out within)

theorem satisfiedModuleIds_subset (held : List ModuleId) : satisfiedModuleIds edges held ⊆ held :=
  (satisfiedRounds_sublist _ _).subset

theorem satisfiedModuleIds_satisfied (held : List ModuleId) : Satisfied edges (satisfiedModuleIds edges held) :=
  satisfiedRounds_satisfied _ _ (le_refl _)

/-- What is left is the largest part that needs nothing outside itself, so it grows with `held`. -/
theorem satisfiedModuleIds_mono {held held' : List ModuleId} (fewer : held' ⊆ held) :
    satisfiedModuleIds edges held' ⊆ satisfiedModuleIds edges held := by
  apply satisfiedRounds_keeps (satisfiedModuleIds_satisfied held')
  exact List.Subset.trans (satisfiedModuleIds_subset held') fewer

end Satisfied

end Droplet.Access
