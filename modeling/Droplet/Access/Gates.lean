import Droplet.Lib.Segments

/-! Which module's gate a request path meets (`modules/module-registry.ts`, `modules/module-mounts.ts`).
Paths are compared as Express compares them, percent-encoded, so that their letters are ASCII. -/

namespace Droplet.Access.Gates

open Segments (Under strip)

abbrev Path := List Char

/-- What the gates read of a `ModuleDef`. -/
structure ModuleDef (Id : Type) where
  id : Id
  routePrefixes : List Path
  ownedPaths : Option (List Path)
  deriving DecidableEq

def pathIsUnder (path prefix_ : Path) : Bool :=
  if !prefix_.isPrefixOf path then false
  else
    let rest := path.drop prefix_.length
    rest.isEmpty || rest.head? = some '/'

def toLowerCase (path : Path) : Path := path.map Char.toLower

def normalizeGatePath (path : Path) : Path :=
  let trimmed := if path.length > 1 then path.rdropWhile (· = '/') else path
  toLowerCase (if trimmed.isEmpty then ['/'] else trimmed)

section Gates

variable {Id : Type} [DecidableEq Id] (modules : List (ModuleDef Id))

def sort (paths : List Path) : List Path := paths.insertionSort (· ≤ ·)

def foreignSubPrefixes (moduleId : Id) (prefix_ : Path) : List Path :=
  sort ((modules.filter fun def_ => def_.id ≠ moduleId).flatMap fun def_ =>
    def_.routePrefixes.filter fun p => (prefix_ ++ ['/']).isPrefixOf p)

def foreignOwnedPaths (moduleId : Id) (prefix_ : Path) : List Path :=
  let nested := foreignSubPrefixes modules moduleId prefix_
  sort (((modules.filter fun def_ =>
    def_.id ≠ moduleId ∧ def_.routePrefixes.any fun p => p ∈ nested).flatMap fun def_ =>
      ((def_.ownedPaths.getD []).filter fun owned => pathIsUnder owned prefix_).map normalizeGatePath).dedup)

/-- The paths under the prefix that the module's gate applies to; `none` is all of them. -/
def gateScopeFor (def_ : ModuleDef Id) (prefix_ : Path) : Option (Path → Bool) :=
  let byForeign :=
    let foreign := foreignOwnedPaths modules def_.id prefix_
    if foreign.isEmpty then none else some fun fullPath => !decide (normalizeGatePath fullPath ∈ foreign)
  match def_.ownedPaths with
  | none => byForeign
  | some ownedPaths =>
    let owned := (ownedPaths.filter fun p => pathIsUnder p prefix_).map normalizeGatePath
    if owned.isEmpty then byForeign else some fun fullPath => decide (normalizeGatePath fullPath ∈ owned)

/-- `app.use(prefix, …)` takes a path in any letter case. -/
def mounted (path prefix_ : Path) : Bool := pathIsUnder (toLowerCase path) (toLowerCase prefix_)

def gated (def_ : ModuleDef Id) (path : Path) : Bool :=
  def_.routePrefixes.any fun prefix_ =>
    mounted path prefix_ && (gateScopeFor modules def_ prefix_).all fun applies => applies path

def nestedIn (moduleId : Id) (prefix_ : Path) : Bool :=
  modules.any fun def_ => def_.id ≠ moduleId && def_.routePrefixes.any fun outer =>
    (outer ++ ['/']).isPrefixOf prefix_

def ModuleDef.owns (def_ : ModuleDef Id) : List Path := def_.ownedPaths.getD []

/-- A registry as the gates need it. -/
structure WellFormed : Prop where
  distinct : ∀ def_ ∈ modules, ∀ other ∈ modules, def_.id = other.id → def_ = other
  plain : ∀ def_ ∈ modules, ∀ prefix_ ∈ def_.routePrefixes,
    toLowerCase prefix_ = prefix_ ∧ prefix_.getLast? ≠ some '/'
  apart : ∀ def_ ∈ modules, ∀ other ∈ modules, ∀ prefix_ ∈ def_.routePrefixes,
    prefix_ ∈ other.routePrefixes → def_ = other
  home : ∀ def_ ∈ modules, ∀ owned ∈ def_.owns, ∃ prefix_ ∈ def_.routePrefixes,
    pathIsUnder owned prefix_ = true
  nested : ∀ def_ ∈ modules, ∀ prefix_ ∈ def_.routePrefixes,
    (∃ owned ∈ def_.owns, pathIsUnder owned prefix_ = true) ↔ nestedIn modules def_.id prefix_ = true
  single : ∀ def_ ∈ modules, ∀ other ∈ modules, ∀ owned ∈ def_.owns, ∀ held ∈ other.owns,
    normalizeGatePath owned = normalizeGatePath held → def_ = other

end Gates

theorem pathIsUnder_iff {path prefix_ : Path} : pathIsUnder path prefix_ = true ↔ Under '/' path prefix_ := by
  simp only [pathIsUnder]
  constructor
  · intro under
    split at under
    · cases under
    next starts =>
      have starts : prefix_ <+: path := by simpa using starts
      obtain ⟨rest, rfl⟩ := starts
      refine ⟨rest, rfl, ?_⟩
      rw [List.drop_left] at under
      cases rest with
      | nil => simp
      | cons c rest => simpa using under
  · intro under
    obtain ⟨rest, rfl, starts⟩ := under
    have there : prefix_.isPrefixOf (prefix_ ++ rest) = true :=
      List.isPrefixOf_iff_prefix.mpr (List.prefix_append _ _)
    rw [there, List.drop_left]
    cases rest with
    | nil => rfl
    | cons c rest => simpa using starts

theorem toLower_slash (c : Char) : c.toLower = '/' ↔ c = '/' := by
  constructor
  · intro is
    rw [Char.toLower] at is
    split at is
    next capital =>
      have value := congrArg (fun c : Char => c.val.toNat) is
      obtain ⟨low, high⟩ := capital
      have low := UInt32.le_iff_toNat_le.mp low
      have high := UInt32.le_iff_toNat_le.mp high
      simp at value low high
      omega
    next => exact is
  · intro is
    rw [is]
    rfl

theorem strip_lower (path : Path) : strip '/' (toLowerCase path) = toLowerCase (strip '/' path) := by
  simp only [strip, toLowerCase, List.rdropWhile, ← List.map_reverse, List.dropWhile_map]
  congr 4
  funext c
  simp [toLower_slash]

theorem normalizeGatePath_eq (path : Path) : normalizeGatePath path =
    if strip '/' (toLowerCase path) = [] then ['/'] else strip '/' (toLowerCase path) := by
  rw [strip_lower]
  simp only [normalizeGatePath]
  split
  next long =>
    change toLowerCase (if (strip '/' path).isEmpty then ['/'] else strip '/' path) = _
    cases cut : strip '/' path with
    | nil | cons => rfl
  next short =>
    rcases path with _ | ⟨c, _ | ⟨d, rest⟩⟩
    · rfl
    · by_cases slash : c = '/'
      · subst slash
        rfl
      · simp [strip, List.rdropWhile, slash, toLowerCase]
    · simp at short

theorem normalizeGatePath_inj {path other : Path} : normalizeGatePath path = normalizeGatePath other ↔
    strip '/' (toLowerCase path) = strip '/' (toLowerCase other) := by
  have never : ∀ path : Path, strip '/' path ≠ ['/'] := by
    intro path is
    have last := List.rdropWhile_last_not (· = '/') path (by rw [strip] at is; rw [is]; simp)
    simp only [strip] at is
    simp [is] at last
  rw [normalizeGatePath_eq, normalizeGatePath_eq]
  constructor
  · intro same
    split at same
    next empty =>
      split at same
      next also => rw [empty, also]
      next => exact absurd same.symm (never _)
    next =>
      split at same
      next => exact absurd same (never _)
      next => exact same
  · intro same
    rw [same]

theorem Under.toLowerCase {path prefix_ : Path} (under : Under '/' path prefix_) :
    Under '/' (toLowerCase path) (toLowerCase prefix_) := by
  obtain ⟨rest, rfl, starts⟩ := under
  refine ⟨Gates.toLowerCase rest, List.map_append, ?_⟩
  cases rest with
  | nil => simp [Gates.toLowerCase]
  | cons c rest =>
    cases starts c rfl
    simp [Gates.toLowerCase]

section
variable {Id : Type} [DecidableEq Id] {modules : List (ModuleDef Id)} {def_ : ModuleDef Id}
  {path prefix_ : Path}

theorem mem_sort {paths : List Path} : path ∈ sort paths ↔ path ∈ paths := List.mem_insertionSort _

theorem mem_foreignOwnedPaths {moduleId : Id} : path ∈ foreignOwnedPaths modules moduleId prefix_ ↔
    ∃ other ∈ modules, other.id ≠ moduleId ∧
      (∃ p ∈ other.routePrefixes, prefix_ ++ ['/'] <+: p) ∧
      ∃ owned ∈ other.owns, pathIsUnder owned prefix_ = true ∧ normalizeGatePath owned = path := by
  have nested : ∀ p, p ∈ foreignSubPrefixes modules moduleId prefix_ ↔ ∃ other ∈ modules,
      other.id ≠ moduleId ∧ p ∈ other.routePrefixes ∧ prefix_ ++ ['/'] <+: p := by
    intro p
    simp [foreignSubPrefixes, mem_sort, and_assoc]
  simp only [foreignOwnedPaths, mem_sort, List.mem_dedup, List.mem_flatMap, List.mem_filter, List.mem_map,
    List.any_eq_true, decide_eq_true_eq, nested, ModuleDef.owns]
  constructor
  · intro there
    obtain ⟨other, ⟨inside, foreign, p, has, _, _, _, _, starts⟩, owned, ⟨owns, under⟩, is⟩ := there
    exact ⟨other, inside, foreign, ⟨p, has, starts⟩, owned, owns, under, is⟩
  · intro there
    obtain ⟨other, inside, foreign, ⟨p, has, starts⟩, owned, owns, under, is⟩ := there
    exact ⟨other, ⟨inside, foreign, p, has, other, inside, foreign, has, starts⟩, owned, ⟨owns, under⟩, is⟩

theorem scope_owned (declares : ∃ owned ∈ def_.owns, pathIsUnder owned prefix_ = true) :
    (gateScopeFor modules def_ prefix_).all (fun applies => applies path) = true ↔
      ∃ owned ∈ def_.owns, pathIsUnder owned prefix_ = true ∧
        normalizeGatePath owned = normalizeGatePath path := by
  obtain ⟨owned, owns, under⟩ := declares
  simp only [ModuleDef.owns] at owns ⊢
  cases declared : def_.ownedPaths with
  | none =>
    rw [declared] at owns
    cases owns
  | some paths =>
    rw [declared, Option.getD_some] at owns
    have some_ : ((paths.filter fun p => pathIsUnder p prefix_).map normalizeGatePath).isEmpty = false := by
      rw [List.isEmpty_eq_false_iff_exists_mem]
      exact ⟨_, List.mem_map_of_mem (List.mem_filter.mpr ⟨owns, under⟩)⟩
    simp only [gateScopeFor, declared, some_]
    simp [and_assoc]

theorem scope_foreign (declares : ¬ ∃ owned ∈ def_.owns, pathIsUnder owned prefix_ = true) :
    (gateScopeFor modules def_ prefix_).all (fun applies => applies path) = true ↔
      normalizeGatePath path ∉ foreignOwnedPaths modules def_.id prefix_ := by
  have foreign : (if (foreignOwnedPaths modules def_.id prefix_).isEmpty then none else some fun fullPath =>
        !decide (normalizeGatePath fullPath ∈ foreignOwnedPaths modules def_.id prefix_)).all
          (fun applies => applies path) = true ↔
      normalizeGatePath path ∉ foreignOwnedPaths modules def_.id prefix_ := by
    split
    next empty =>
      rw [List.isEmpty_iff.mp empty]
      simp
    next => simp
  cases declared : def_.ownedPaths with
  | none =>
    simp only [gateScopeFor, declared]
    exact foreign
  | some paths =>
    have none_ : ((paths.filter fun p => pathIsUnder p prefix_).map normalizeGatePath).isEmpty = true := by
      rw [List.isEmpty_iff, List.map_eq_nil_iff, List.filter_eq_nil_iff]
      intro owned owns under
      exact declares ⟨owned, by rw [ModuleDef.owns, declared]; exact owns, under⟩
    simp only [gateScopeFor, declared, none_]
    exact foreign

theorem nestedIn_iff {moduleId : Id} : nestedIn modules moduleId prefix_ = true ↔
    ∃ other ∈ modules, other.id ≠ moduleId ∧ ∃ outer ∈ other.routePrefixes,
      outer ++ ['/'] <+: prefix_ := by
  simp [nestedIn]

end

section
variable {Id : Type} [DecidableEq Id] {modules : List (ModuleDef Id)} (formed : WellFormed modules)
  {def_ other : ModuleDef Id} {path prefix_ : Path}
include formed

section

variable (inside : def_ ∈ modules)
include inside

theorem mounted_iff (has : prefix_ ∈ def_.routePrefixes) :
    mounted path prefix_ = true ↔ Under '/' (strip '/' (toLowerCase path)) prefix_ := by
  obtain ⟨lower, closed⟩ := formed.plain def_ inside prefix_ has
  rw [mounted, lower, pathIsUnder_iff, Segments.under_strip closed]

theorem mounted_of_owned {owned : Path} (has : prefix_ ∈ def_.routePrefixes)
    (under : pathIsUnder owned prefix_ = true) (same : normalizeGatePath owned = normalizeGatePath path) :
    mounted path prefix_ = true := by
  obtain ⟨lower, closed⟩ := formed.plain def_ inside prefix_ has
  rw [mounted_iff formed inside has, ← normalizeGatePath_inj.mp same, Segments.under_strip closed]
  have lowered := Under.toLowerCase (pathIsUnder_iff.mp under)
  rwa [lower] at lowered

theorem gated_iff : gated modules def_ path = true ↔
    (∃ owned ∈ def_.owns, normalizeGatePath owned = normalizeGatePath path) ∨
    ∃ prefix_ ∈ def_.routePrefixes, mounted path prefix_ = true ∧
      nestedIn modules def_.id prefix_ = false ∧
      normalizeGatePath path ∉ foreignOwnedPaths modules def_.id prefix_ := by
  simp only [gated, List.any_eq_true, Bool.and_eq_true]
  constructor
  · intro runs
    obtain ⟨prefix_, has, under, applies⟩ := runs
    by_cases declares : ∃ owned ∈ def_.owns, pathIsUnder owned prefix_ = true
    · obtain ⟨owned, owns, _, same⟩ := (scope_owned declares).mp applies
      exact .inl ⟨owned, owns, same⟩
    · refine .inr ⟨prefix_, has, under, ?_, (scope_foreign declares).mp applies⟩
      exact Bool.eq_false_iff.mpr fun nested => declares ((formed.nested def_ inside prefix_ has).mpr nested)
  · intro either
    rcases either with declared | enclosed
    · obtain ⟨owned, owns, same⟩ := declared
      obtain ⟨prefix_, has, under⟩ := formed.home def_ inside owned owns
      exact ⟨prefix_, has, mounted_of_owned formed inside has under same,
        (scope_owned ⟨owned, owns, under⟩).mpr ⟨owned, owns, under, same⟩⟩
    · obtain ⟨prefix_, has, under, outermost, free⟩ := enclosed
      refine ⟨prefix_, has, under, (scope_foreign ?_).mpr free⟩
      intro declares
      rw [(formed.nested def_ inside prefix_ has).mp declares] at outermost
      cases outermost

theorem mounted_either (inside' : other ∈ modules) {outer : Path}
    (has : prefix_ ∈ def_.routePrefixes) (has' : outer ∈ other.routePrefixes)
    (under : mounted path prefix_ = true) (under' : mounted path outer = true) (differ : def_ ≠ other) :
    outer ++ ['/'] <+: prefix_ ∨ prefix_ ++ ['/'] <+: outer := by
  have apart : prefix_ ≠ outer := fun same =>
    differ (formed.apart def_ inside other inside' prefix_ has (same ▸ has'))
  rw [mounted_iff formed inside has] at under
  rw [mounted_iff formed inside' has'] at under'
  rcases under.either under' with inner | inner
  · exact .inl (inner.strict apart)
  · exact .inr (inner.strict apart.symm)

theorem outermost (has : prefix_ ∈ def_.routePrefixes)
    (under : mounted path prefix_ = true) : ∃ other ∈ modules, ∃ outer ∈ other.routePrefixes,
      mounted path outer = true ∧ nestedIn modules other.id outer = false := by
  induction length : prefix_.length using Nat.strong_induction_on generalizing def_ prefix_ with
  | _ n ih =>
    cases nested : nestedIn modules def_.id prefix_ with
    | false => exact ⟨def_, inside, prefix_, has, under, nested⟩
    | true =>
      obtain ⟨other, inside', _, outer, has', starts⟩ := nestedIn_iff.mp nested
      have shorter : outer.length < n := by
        have := starts.length_le
        simp only [List.length_append, List.length_singleton] at this
        omega
      refine ih outer.length shorter inside' has' ?_ rfl
      rw [mounted_iff formed inside' has']
      rw [mounted_iff formed inside has] at under
      exact under.trans (Segments.under_of_strict starts).1

theorem outermost_unique (inside' : other ∈ modules) {outer : Path}
    (has : prefix_ ∈ def_.routePrefixes) (has' : outer ∈ other.routePrefixes)
    (under : mounted path prefix_ = true) (under' : mounted path outer = true)
    (free : nestedIn modules def_.id prefix_ = false) (free' : nestedIn modules other.id outer = false) :
    def_ = other := by
  by_contra differ
  have ids : other.id ≠ def_.id := fun same => differ (formed.distinct other inside' def_ inside same).symm
  rcases mounted_either formed inside inside' has has' under under' differ with inner | inner
  · rw [nestedIn_iff.mpr ⟨other, inside', ids, outer, has', inner⟩] at free
    cases free
  · rw [nestedIn_iff.mpr ⟨def_, inside, ids.symm, prefix_, has, inner⟩] at free'
    cases free'

theorem gated_declared {owned : Path} (owns : owned ∈ def_.owns)
    (same : normalizeGatePath owned = normalizeGatePath path) (inside' : other ∈ modules)
    (runs : gated modules other path = true) : other = def_ := by
  rcases (gated_iff formed inside').mp runs with declared | enclosed
  · obtain ⟨held, holds, also⟩ := declared
    exact formed.single other inside' def_ inside held holds owned owns (also.trans same.symm)
  · obtain ⟨outer, has', under', free', foreign⟩ := enclosed
    by_contra differ
    have ids : def_.id ≠ other.id := fun same => differ (formed.distinct def_ inside other inside' same).symm
    obtain ⟨prefix_, has, under⟩ := formed.home def_ inside owned owns
    have mounts := mounted_of_owned formed inside has under same
    rcases mounted_either formed inside inside' has has' mounts under' (Ne.symm differ) with inner | inner
    · refine foreign (mem_foreignOwnedPaths.mpr ⟨def_, inside, ids, ⟨prefix_, has, inner⟩, owned, owns, ?_,
        same⟩)
      exact pathIsUnder_iff.mpr ((pathIsUnder_iff.mp under).trans (Segments.under_of_strict inner).1)
    · rw [nestedIn_iff.mpr ⟨def_, inside, ids, prefix_, has, inner⟩] at free'
      cases free'

end

theorem gated_spelled {spelled : Path} (same : normalizeGatePath spelled = normalizeGatePath path)
    (inside : def_ ∈ modules) : gated modules def_ spelled = gated modules def_ path := by
  have mounts : ∀ prefix_ ∈ def_.routePrefixes,
      (mounted spelled prefix_ = true ↔ mounted path prefix_ = true) := by
    intro prefix_ has
    rw [mounted_iff formed inside has, mounted_iff formed inside has, normalizeGatePath_inj.mp same]
  rw [Bool.eq_iff_iff, gated_iff formed inside, gated_iff formed inside, same]
  refine or_congr Iff.rfl ?_
  constructor
  · intro enclosed
    obtain ⟨prefix_, has, under, rest⟩ := enclosed
    exact ⟨prefix_, has, (mounts prefix_ has).mp under, rest⟩
  · intro enclosed
    obtain ⟨prefix_, has, under, rest⟩ := enclosed
    exact ⟨prefix_, has, (mounts prefix_ has).mpr under, rest⟩

/-- A path under some prefix meets one gate, however it is spelled: that of the module that declares it, or
else that of the module that encloses it and is enclosed by none. -/
theorem path_meets_one_gate (registered : ∃ def_ ∈ modules, ∃ prefix_ ∈ def_.routePrefixes,
      mounted path prefix_ = true) :
    ∃ def_ ∈ modules, (∀ other ∈ modules, gated modules other path = true ↔ other = def_) ∧
      ((∃ owned ∈ def_.owns, normalizeGatePath owned = normalizeGatePath path) ∨
        (∀ other ∈ modules, ∀ owned ∈ other.owns, normalizeGatePath owned ≠ normalizeGatePath path) ∧
        ∃ prefix_ ∈ def_.routePrefixes, mounted path prefix_ = true ∧
          nestedIn modules def_.id prefix_ = false) ∧
      ∀ spelled, normalizeGatePath spelled = normalizeGatePath path →
        ∀ other ∈ modules, gated modules other spelled = gated modules other path := by
  have spelled : ∀ spelled, normalizeGatePath spelled = normalizeGatePath path →
      ∀ other ∈ modules, gated modules other spelled = gated modules other path :=
    fun _ same _ inside => gated_spelled formed same inside
  by_cases declared : ∃ def_ ∈ modules, ∃ owned ∈ def_.owns,
      normalizeGatePath owned = normalizeGatePath path
  · obtain ⟨def_, inside, owned, owns, same⟩ := declared
    refine ⟨def_, inside, ?_, .inl ⟨owned, owns, same⟩, spelled⟩
    intro other inside'
    constructor
    · intro runs
      exact gated_declared formed inside owns same inside' runs
    · intro is
      rw [is]
      exact (gated_iff formed inside).mpr (.inl ⟨owned, owns, same⟩)
  · have undeclared : ∀ other ∈ modules, ∀ owned ∈ other.owns,
        normalizeGatePath owned ≠ normalizeGatePath path :=
      fun other inside owned owns same => declared ⟨other, inside, owned, owns, same⟩
    obtain ⟨inner, inside', prefix', has', under'⟩ := registered
    obtain ⟨def_, inside, prefix_, has, under, free⟩ := outermost formed inside' has' under'
    refine ⟨def_, inside, ?_, .inr ⟨undeclared, prefix_, has, under, free⟩, spelled⟩
    intro other inside'
    rw [gated_iff formed inside']
    constructor
    · intro runs
      rcases runs with declares | enclosed
      · obtain ⟨owned, owns, same⟩ := declares
        exact absurd same (undeclared other inside' owned owns)
      · obtain ⟨outer, has', under', free', _⟩ := enclosed
        exact outermost_unique formed inside' inside has' has under' under free' free
    · intro is
      subst is
      refine .inr ⟨prefix_, has, under, free, ?_⟩
      intro foreign
      obtain ⟨another, inside'', _, _, owned, owns, _, same⟩ := mem_foreignOwnedPaths.mp foreign
      exact undeclared another inside'' owned owns same

end

def filesFamily : List (ModuleDef ℕ) :=
  [⟨0, ["/api/files/knowledge".toList],
      some ["/api/files/knowledge/recent".toList, "/api/files/knowledge/search".toList]⟩,
    ⟨1, ["/api/files".toList], none⟩,
    ⟨2, ["/api/files/docs".toList], some ["/api/files/docs/status".toList]⟩]

theorem files_family_wellFormed : WellFormed filesFamily :=
  ⟨by decide, by decide, by decide, by decide, by decide, by decide⟩

theorem recent_meets_one_gate : ∃ def_ ∈ filesFamily, ∀ other ∈ filesFamily,
    gated filesFamily other "/API/Files/Knowledge/Recent/".toList = true ↔ other = def_ := by
  have registered : ∃ def_ ∈ filesFamily, ∃ prefix_ ∈ def_.routePrefixes,
      mounted "/API/Files/Knowledge/Recent/".toList prefix_ = true := by decide
  obtain ⟨def_, inside, only, _⟩ := path_meets_one_gate files_family_wellFormed registered
  exact ⟨def_, inside, only⟩

/-- A nested module declares paths under each nested prefix, all of them under prefixes of its own. -/
def declares (modules : List (ModuleDef ℕ)) : Bool :=
  modules.all fun def_ => def_.routePrefixes.all (fun prefix_ => !nestedIn modules def_.id prefix_ ||
      def_.owns.any fun owned => pathIsUnder owned prefix_) &&
    def_.owns.all fun owned => def_.routePrefixes.any fun prefix_ => pathIsUnder owned prefix_

def gatesOf (modules : List (ModuleDef ℕ)) (path : String) : List ℕ :=
  (modules.filter fun def_ => gated modules def_ path.toList).map ModuleDef.id

/-- One prefix of two modules, one path declared by two, paths declared under a prefix that is nested in
none, and a prefix in capitals. -/
def crowded : List (ModuleDef ℕ) := [⟨0, ["/a".toList], none⟩, ⟨1, ["/a".toList], none⟩]

def twiceDeclared : List (ModuleDef ℕ) :=
  [⟨0, ["/a".toList], none⟩, ⟨1, ["/a/b".toList], some ["/a/b/c/d".toList]⟩,
    ⟨2, ["/a/b/c".toList], some ["/a/b/c/d".toList]⟩]

def unnested : List (ModuleDef ℕ) := [⟨0, ["/a".toList], some ["/a/b".toList]⟩]

def capitals : List (ModuleDef ℕ) := [⟨0, ["/A".toList], none⟩, ⟨1, ["/a/b".toList], none⟩]

theorem declaring_is_not_enough :
    (declares crowded = true ∧ gatesOf crowded "/a" = [0, 1]) ∧
      (declares twiceDeclared = true ∧ gatesOf twiceDeclared "/a/b/c/d" = [1, 2]) ∧
      (declares unnested = true ∧ gatesOf unnested "/a/c" = []) ∧
      declares capitals = true ∧ gatesOf capitals "/a/b" = [0, 1] := by
  decide

end Droplet.Access.Gates
