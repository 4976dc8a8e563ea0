import Droplet.Pm.Compile
import Droplet.Pm.FilterShape

/-! The references of a filter (`services/pm/filter/resolve.ts`, with `resolveDepartmentFilter` and
`expandDepartmentScope` of `pm-department.ts`): which rows still exist, and the filter without those that do
not. -/

namespace Droplet.Pm

open Sql JsText

inductive IdField where
  | state
  | label
  | cycle
  | module
  | parent
  | project
  | assignee
  | createdBy
  deriving DecidableEq

/-- `ID_FIELDS` -/
def PmFilterField.idField : PmFilterField → Option IdField
  | .state => some .state
  | .label => some .label
  | .cycle => some .cycle
  | .module => some .module
  | .parent => some .parent
  | .project => some .project
  | .assignee => some .assignee
  | .createdBy => some .createdBy
  | _ => none

structure DepartmentRow where
  id : String
  slug : String
  name : String
  parentId : Option String

structure PmRows where
  pmState : List String
  pmLabel : List String
  pmCycle : List String
  pmModule : List String
  pmWorkItem : List String
  pmProject : List String
  user : List String
  department : List DepartmentRow

def PmRows.ofField (db : PmRows) : IdField → List String
  | .state => db.pmState
  | .label => db.pmLabel
  | .cycle => db.pmCycle
  | .module => db.pmModule
  | .parent => db.pmWorkItem
  | .project => db.pmProject
  | .assignee => db.user
  | .createdBy => db.user

def existingIds (db : PmRows) (field : IdField) (ids : List String) : List String :=
  (db.ofField field).filter fun id => id ∈ ids

/-- What `resolveDepartmentFilter` makes of a reference. -/
inductive DepartmentRef where
  | noFilter
  | nobody
  | id (departmentId : String)
  | not_found

/-- How the database compares without regard to case: `equals` is `ILIKE`, and a word that ends in a single
escape it may refuse. -/
structure Lookup where
  folding : Folding
  refuses : String → List DepartmentRow → Bool
  refuses_escape : ∀ word rows, refuses word rows = true → word.toList.getLast? = some '\\'

def Lookup.likes (lookup : Lookup) (word : String) (row : DepartmentRow) : Bool :=
  ilike lookup.folding word.toList row.slug.toList || ilike lookup.folding word.toList row.name.toList

/-- It throws where the database refuses the word. -/
def resolveDepartmentFilter (lookup : Lookup) (db : PmRows) (raw : String) : Option DepartmentRef :=
  let needle := trim raw
  if needle.isEmpty then some .noFilter
  else if isNoneWord needle then some .nobody
  else if db.department.any fun row => row.id = needle then some (.id needle)
  else if lookup.refuses needle db.department then none
  else
    match db.department.find? (lookup.likes needle) with
    | some row => some (.id row.id)
    | none => some .not_found

def expandDepartmentScope (db : PmRows) (departmentId : String) : List String :=
  let rows := db.department.filter fun row => row.id = departmentId || row.parentId = some departmentId
  if rows.isEmpty then [departmentId] else rows.map DepartmentRow.id

/-- The words that a field takes instead of an id. -/
def isToken (v : String) : Bool := v = PM_FILTER_ME || v = PM_FILTER_NONE

def valuesOf (c : PmFilterCondition) : List String :=
  match c.value with
  | none => []
  | some (.bool _) => []
  | some (.str v) => [v]
  | some (.list values) => values

structure PmStaleRef where
  field : PmFilterField
  value : String
  deriving DecidableEq

structure ResolvedFilter where
  filter : PmFilter
  /-- The scopes of the departments, by the reference as it is written. -/
  departments : List (String × List String)
  stale : List PmStaleRef

def named (conditions : List PmFilterCondition) (field : IdField) : List String :=
  distinct ((conditions.filter fun c => c.field.idField = some field).flatMap fun c =>
    (valuesOf c).filter fun v => !isToken v)

def departmentRefs (conditions : List PmFilterCondition) : List String :=
  distinct ((conditions.filter fun c => c.field = .department).flatMap fun c =>
    (valuesOf c).filter fun v => !isNoneWord v)

def departmentsOf (lookup : Lookup) (db : PmRows) (refs : List String) : List (String × List String) :=
  refs.filterMap fun ref =>
    match resolveDepartmentFilter lookup db ref with
    | some (.id departmentId) => some (ref, expandDepartmentScope db departmentId)
    | _ => none

/-- The reference is found. -/
def finds (lookup : Lookup) (db : PmRows) (ref : String) : Bool :=
  match resolveDepartmentFilter lookup db ref with
  | some (.id _) => true
  | _ => false

def deadDepartments (lookup : Lookup) (db : PmRows) (refs : List String) : List String :=
  refs.filter fun ref => !finds lookup db ref

def isLive (alive : IdField → List String) (dead : List String) (field : PmFilterField) (v : String) : Bool :=
  if field = .department then isNoneWord v || v ∉ dead
  else
    match field.idField with
    | none => true
    | some idField => isToken v || v ∈ alive idField

section Prune
variable (live : PmFilterField → String → Bool)

/-- A condition without the values that are gone, and those. -/
def pruneCondition (c : PmFilterCondition) : Option PmFilter × List PmStaleRef :=
  let values := valuesOf c
  if values.isEmpty then (some (.leaf c), [])
  else
    let kept := values.filter (live c.field)
    let stale := (values.filter fun v => v ∉ kept).map fun v => ⟨c.field, v⟩
    if kept.length = values.length then (some (.leaf c), stale)
    else if kept.isEmpty then (none, stale)
    else (some (.leaf { c with value := some (.list kept) }), stale)

mutual

def prune : PmFilter → Option PmFilter × List PmStaleRef
  | .leaf c => pruneCondition live c
  | .group kind kids =>
    let (kept, stale) := pruneKids kids
    (if kept.isEmpty then (if kids.isEmpty then some (.group kind kids) else none)
      else some (.group kind kept), stale)

def pruneKids : List PmFilter → List PmFilter × List PmStaleRef
  | [] => ([], [])
  | kid :: rest =>
    let (one, stale) := prune kid
    let (others, later) := pruneKids rest
    (one.toList ++ others, stale ++ later)

end

end Prune

/-- What is returned when no look-up throws. -/
def rebuilt (lookup : Lookup) (db : PmRows) (filter : PmFilter) : ResolvedFilter :=
  let all := conditions filter
  let alive := fun field => existingIds db field (named all field)
  let refs := departmentRefs all
  let (pruned, stale) := prune (isLive alive (deadDepartments lookup db refs)) filter
  { filter := if stale.isEmpty then filter else normalizePmFilter (pruned.getD (.group .and []))
    departments := departmentsOf lookup db refs
    stale := stale }

def resolveFilterRefs (lookup : Lookup) (db : PmRows) (filter : PmFilter) : Option ResolvedFilter :=
  if (departmentRefs (conditions filter)).all fun ref => (resolveDepartmentFilter lookup db ref).isSome then
    some (rebuilt lookup db filter)
  else none

/-- Equal without regard to case. -/
def Lookup.same (lookup : Lookup) (word text : String) : Bool :=
  word.toList.map lookup.folding.fold = text.toList.map lookup.folding.fold

def DepartmentRow.named (lookup : Lookup) (word : String) (row : DepartmentRow) : Bool :=
  lookup.same word row.id || lookup.same word row.slug || lookup.same word row.name

/-- The id, the slug or the name of a department, in any case. -/
def namesDepartment (lookup : Lookup) (db : PmRows) (v : String) : Bool :=
  !(trim v).isEmpty && !isNoneWord (trim v) && db.department.any (DepartmentRow.named lookup (trim v))

/-- A reference, and no word of the field, to a row that does not exist. -/
def gone (exists_ : String → Bool) (db : PmRows) (field : PmFilterField) (v : String) : Bool :=
  if field = .department then !isNoneWord v && !exists_ v
  else
    match field.idField with
    | none => false
    | some idField => !isToken v && v ∉ db.ofField idField

def goneRefs (exists_ : String → Bool) (db : PmRows) (conditions : List PmFilterCondition) : List PmStaleRef :=
  conditions.flatMap fun c => ((valuesOf c).filter (gone exists_ db c.field)).map fun v => ⟨c.field, v⟩

variable {c : PmFilterCondition} {v : String}

theorem mem_named {conditions : List PmFilterCondition} {field : IdField} (there : c ∈ conditions)
    (is : c.field.idField = some field) (value : v ∈ valuesOf c) (plain : isToken v = false) :
    v ∈ named conditions field := by
  rw [named, mem_distinct, List.mem_flatMap]
  exact ⟨c, List.mem_filter.mpr ⟨there, by simpa using is⟩, List.mem_filter.mpr ⟨value, by simpa using plain⟩⟩

theorem mem_departmentRefs {conditions : List PmFilterCondition} (there : c ∈ conditions)
    (is : c.field = .department) (value : v ∈ valuesOf c) (plain : isNoneWord v = false) :
    v ∈ departmentRefs conditions := by
  rw [departmentRefs, mem_distinct, List.mem_flatMap]
  exact ⟨c, List.mem_filter.mpr ⟨there, by simpa using is⟩, List.mem_filter.mpr ⟨value, by simpa using plain⟩⟩

theorem isLive_eq (lookup : Lookup) (db : PmRows) {all : List PmFilterCondition} (there : c ∈ all)
    (value : v ∈ valuesOf c) :
    isLive (fun field => existingIds db field (named all field))
      (deadDepartments lookup db (departmentRefs all)) c.field v = !gone (finds lookup db) db c.field v := by
  unfold isLive gone
  by_cases is : c.field = .department
  · rw [if_pos is, if_pos is]
    cases plain : isNoneWord v with
    | true => rfl
    | false =>
      have inside := mem_departmentRefs there is value plain
      simp [deadDepartments, List.mem_filter, inside]
  · rw [if_neg is, if_neg is]
    cases field : c.field.idField with
    | none => rfl
    | some idField =>
      cases plain : isToken v with
      | true => rfl
      | false =>
        have inside := mem_named there field value plain
        simp [existingIds, inside]

section
variable (live : PmFilterField → String → Bool)

theorem prune_group (kind : GroupKind) (kids : List PmFilter) : prune live (.group kind kids) =
    (if (pruneKids live kids).1.isEmpty then (if kids.isEmpty then some (.group kind kids) else none)
      else some (.group kind (pruneKids live kids).1), (pruneKids live kids).2) := rfl

theorem pruneKids_cons (kid : PmFilter) (rest : List PmFilter) : pruneKids live (kid :: rest) =
    ((prune live kid).1.toList ++ (pruneKids live rest).1, (prune live kid).2 ++ (pruneKids live rest).2) :=
  rfl

def deadRefs (c : PmFilterCondition) : List PmStaleRef :=
  ((valuesOf c).filter fun v => !live c.field v).map fun v => ⟨c.field, v⟩

theorem pruneCondition_stale (c : PmFilterCondition) : (pruneCondition live c).2 = deadRefs live c := by
  have dead : ((valuesOf c).filter fun v => v ∉ (valuesOf c).filter (live c.field)) =
      (valuesOf c).filter fun v => !live c.field v := by
    refine List.filter_congr ?_
    intro v there
    simp [there]
  simp only [pruneCondition]
  split
  next empty => simp [deadRefs, List.isEmpty_iff.mp empty]
  next =>
    split
    · rw [dead]
      rfl
    · split <;> rw [dead] <;> rfl

theorem prune_stale (filter : PmFilter) : (prune live filter).2 = (conditions filter).flatMap (deadRefs live) := by
  induction filter using PmFilter.tree_induction with
  | leaf c =>
    rw [conditions, List.flatMap_singleton]
    exact pruneCondition_stale live c
  | group kind kids ih =>
    rw [prune_group, conditions]
    change (pruneKids live kids).2 = _
    induction kids with
    | nil => rfl
    | cons kid rest ihRest =>
      rw [pruneKids_cons, conditionsOf, List.flatMap_append]
      change (prune live kid).2 ++ (pruneKids live rest).2 = _
      rw [ih kid (.head _), ihRest fun other there => ih other (.tail _ there)]

inductive Left (c : PmFilterCondition) : PmFilterCondition → Prop where
  | whole (all : ∀ v ∈ valuesOf c, live c.field v = true) : Left c c
  | some_ {values : List String} (list : c.value = some (.list values))
      (kept : values.filter (live c.field) ≠ []) (dropped : ∃ v ∈ values, live c.field v = false) :
      Left c { c with value := some (.list (values.filter (live c.field))) }

theorem pruneCondition_left {pruned : PmFilter} (is : (pruneCondition live c).1 = some pruned) :
    ∃ after, pruned = .leaf after ∧ Left live c after := by
  have all_of_length : ((valuesOf c).filter (live c.field)).length = (valuesOf c).length →
      ∀ v ∈ valuesOf c, live c.field v = true :=
    fun same => List.length_filter_eq_length_iff.mp same
  simp only [pruneCondition] at is
  split at is
  next empty =>
    cases is
    refine ⟨c, rfl, .whole ?_⟩
    rw [List.isEmpty_iff.mp empty]
    nofun
  next =>
    split at is
    next same =>
      cases is
      exact ⟨c, rfl, .whole (all_of_length same)⟩
    next fewer =>
      split at is
      next => cases is
      next some_ =>
        cases is
        refine ⟨_, rfl, ?_⟩
        have dropped : ∃ v ∈ valuesOf c, live c.field v = false := by
          by_contra none
          refine fewer (List.length_filter_eq_length_iff.mpr ?_)
          intro v there
          by_contra dead
          exact none ⟨v, there, by simpa using dead⟩
        have kept : (valuesOf c).filter (live c.field) ≠ [] := by simpa using some_
        cases value : c.value with
        | none => simp [valuesOf, value] at kept
        | some value' =>
          cases value' with
          | bool flag => simp [valuesOf, value] at kept
          | str text =>
            obtain ⟨v, there, dead⟩ := dropped
            rw [valuesOf, value] at there kept
            cases List.mem_singleton.mp there
            simp [dead] at kept
          | list values =>
            rw [valuesOf, value] at dropped kept
            rw [show valuesOf c = values by rw [valuesOf, value]]
            exact .some_ value kept dropped

variable {live} in
theorem Left.kept {c after : PmFilterCondition} (left : Left live c after) : after.field = c.field ∧
    ∀ v ∈ valuesOf after, v ∈ valuesOf c ∧ live c.field v = true := by
  cases left with
  | whole all => exact ⟨rfl, fun v there => ⟨there, all v there⟩⟩
  | @some_ values list kept dropped =>
    refine ⟨rfl, ?_⟩
    intro v there
    obtain ⟨inside, lives⟩ := List.mem_filter.mp there
    exact ⟨by rw [valuesOf, list]; exact inside, lives⟩

variable {live} in
theorem Left.clean {c after : PmFilterCondition} (left : Left live c after)
    (ranges : ∀ field v, .between ∈ (PM_FILTER_FIELDS field).ops → live field v = true)
    (clean : CleanCondition c) : CleanCondition after := by
  cases left with
  | whole all => exact clean
  | @some_ values list kept dropped =>
    obtain ⟨op, value⟩ := clean
    refine ⟨op, ?_⟩
    change CleanValue (PM_FILTER_FIELDS c.field) c.op (some (.list (values.filter (live c.field))))
    rw [list] at value
    generalize is : c.op = kind at value op
    cases value with
    | single binary scalar =>
      rcases scalar.cases with text | flag
      · obtain ⟨_, text, same, _⟩ := text
        cases same
      · obtain ⟨_, flag, same⟩ := flag
        cases same
    | members set some_values few once scalars =>
      exact .members set kept ((List.length_filter_le _ _).trans few) (once.filter _)
        fun v there => scalars v (List.mem_of_mem_filter there)
    | bounds first last =>
      obtain ⟨v, _, dead⟩ := dropped
      rw [ranges c.field v op] at dead
      cases dead

/-- A tree that is pruned is no larger and no deeper, has no empty group that was not there, and in it is
what is left of the conditions. -/
structure Pruned (filter pruned : PmFilter) : Prop where
  few : size pruned ≤ size filter
  shallow : levels pruned ≤ levels filter
  full : Full filter → Full pruned
  left : ∀ after ∈ conditions pruned, ∃ c ∈ conditions filter, Left live c after

theorem prune_pruned (filter : PmFilter) {pruned : PmFilter} (is : (prune live filter).1 = some pruned) :
    Pruned live filter pruned := by
  induction filter using PmFilter.tree_induction generalizing pruned with
  | leaf c =>
    obtain ⟨after, rfl, left⟩ := pruneCondition_left live is
    refine ⟨le_rfl, le_rfl, fun _ => trivial, ?_⟩
    intro other there
    cases List.mem_singleton.mp there
    exact ⟨c, .head _, left⟩
  | group kind kids ih =>
    have each : sizeOfKids (pruneKids live kids).1 ≤ sizeOfKids kids ∧
        levelsOfKids (pruneKids live kids).1 ≤ levelsOfKids kids ∧
        (FullKids kids → FullKids (pruneKids live kids).1) ∧
        ∀ after ∈ conditionsOf (pruneKids live kids).1, ∃ c ∈ conditionsOf kids, Left live c after := by
      clear is
      induction kids with
      | nil => exact ⟨le_rfl, le_rfl, fun _ => trivial, fun after there => by cases there⟩
      | cons kid rest ihRest =>
        obtain ⟨few, shallow, full, left⟩ := ihRest fun other there => ih other (.tail _ there)
        rw [pruneKids_cons]
        simp only [sizeOfKids_append, levelsOfKids_append, conditionsOf_append]
        cases one : (prune live kid).1 with
        | none =>
          refine ⟨?_, ?_, fun all => full all.2, ?_⟩
          · simp only [Option.toList_none, sizeOfKids]
            omega
          · simp only [Option.toList_none, levelsOfKids]
            omega
          · intro after there
            obtain ⟨c, inside, is⟩ := left after there
            exact ⟨c, List.mem_append_right _ inside, is⟩
        | some pruned =>
          have own := ih kid (.head _) one
          have few' := own.few
          have shallow' := own.shallow
          refine ⟨?_, ?_, fun all => ⟨own.full all.1, full all.2⟩, ?_⟩
          · simp only [Option.toList_some, sizeOfKids]
            omega
          · simp only [Option.toList_some, levelsOfKids]
            omega
          · intro after there
            simp only [Option.toList_some, conditionsOf, List.append_nil, List.mem_append] at there
            rcases there with first | later
            · obtain ⟨c, inside, is⟩ := own.left after first
              exact ⟨c, List.mem_append_left _ inside, is⟩
            · obtain ⟨c, inside, is⟩ := left after later
              exact ⟨c, List.mem_append_right _ inside, is⟩
    obtain ⟨few, shallow, full, left⟩ := each
    rw [prune_group] at is
    change (if (pruneKids live kids).1.isEmpty then (if kids.isEmpty then some (.group kind kids) else none)
      else some (.group kind (pruneKids live kids).1)) = some pruned at is
    split at is
    · split at is
      next none_ =>
        cases is
        rw [List.isEmpty_iff] at none_
        subst none_
        exact ⟨le_rfl, le_rfl, fun full => full, fun after there => by cases there⟩
      next => cases is
    next some_ =>
      cases is
      refine ⟨?_, ?_, fun all => ⟨by simpa using some_, full all.2⟩, left⟩
      · simp only [size]
        omega
      · simp only [levels]
        omega

end

section
variable (lookup : Lookup) (db : PmRows) {Number : Type} {input : Json Number} {filter : PmFilter}

theorem resolve_stale (filter : PmFilter) :
    (rebuilt lookup db filter).stale = goneRefs (finds lookup db) db (conditions filter) := by
  change (prune _ filter).2 = _
  rw [prune_stale, goneRefs]
  refine List.flatMap_congr ?_
  intro c there
  rw [deadRefs]
  congr 1
  refine List.filter_congr ?_
  intro v value
  rw [isLive_eq lookup db there value, Bool.not_not]

theorem isLive_ranges (alive : IdField → List String) (dead : List String) (field : PmFilterField) (v : String)
    (range : .between ∈ (PM_FILTER_FIELDS field).ops) : isLive alive dead field v = true := by
  cases field <;> first | rfl | exact absurd range (by decide)

theorem resolve_cases (filter : PmFilter) :
    ((rebuilt lookup db filter).stale = [] ∧
      (rebuilt lookup db filter).filter = filter) ∨
    ∃ live : PmFilterField → String → Bool,
      (∀ c ∈ conditions filter, ∀ v ∈ valuesOf c, live c.field v = !gone (finds lookup db) db c.field v) ∧
      (∀ field v, .between ∈ (PM_FILTER_FIELDS field).ops → live field v = true) ∧
      ((rebuilt lookup db filter).filter = .group .and [] ∨
        ∃ pruned, (prune live filter).1 = some pruned ∧
          (rebuilt lookup db filter).filter = normalizePmFilter pruned) := by
  cases stale : (rebuilt lookup db filter).stale with
  | nil =>
    have same : (rebuilt lookup db filter).filter = filter :=
      if_pos (show (rebuilt lookup db filter).stale.isEmpty = true by rw [stale]; rfl)
    exact .inl ⟨rfl, same⟩
  | cons first rest =>
    refine .inr ⟨_, fun c there v value => isLive_eq lookup db there value, isLive_ranges _ _, ?_⟩
    have same : (rebuilt lookup db filter).filter = normalizePmFilter ((prune (isLive
        (fun field => existingIds db field (named (conditions filter) field))
        (deadDepartments lookup db (departmentRefs (conditions filter)))) filter).1.getD
          (.group .and [])) :=
      if_neg (show ¬(rebuilt lookup db filter).stale.isEmpty = true by rw [stale]; simp)
    rw [same]
    cases is : (prune (isLive (fun field => existingIds db field (named (conditions filter) field))
        (deadDepartments lookup db (departmentRefs (conditions filter)))) filter).1 with
    | none => exact .inl rfl
    | some pruned => exact .inr ⟨pruned, rfl, rfl⟩

/-- A condition that is returned names what a condition of the filter names, and only what is there. -/
structure Standing (filter : PmFilter) (after : PmFilterCondition) : Prop where
  clean : CleanCondition after
  values : ∀ v ∈ valuesOf after, gone (finds lookup db) db after.field v = false ∧
    ∃ c ∈ conditions filter, c.field = after.field ∧ v ∈ valuesOf c

section

variable (valid : validatePmFilter input = .ok filter)
include valid

theorem resolve_standing :
    ∀ after ∈ conditions (rebuilt lookup db filter).filter, Standing lookup db filter after := by
  obtain ⟨total, visited⟩ := validatePmFilter_visited input filter valid
  intro after there
  have stale := resolve_stale lookup db filter
  rcases resolve_cases lookup db filter with untouched | pruning
  · obtain ⟨none_, same⟩ := untouched
    rw [same] at there
    refine ⟨visited.conditions after there, ?_⟩
    intro v value
    refine ⟨?_, after, there, rfl, value⟩
    by_contra dead
    have inside : (⟨after.field, v⟩ : PmStaleRef) ∈ goneRefs (finds lookup db) db (conditions filter) :=
      List.mem_flatMap.mpr ⟨after, there, List.mem_map.mpr
        ⟨v, List.mem_filter.mpr ⟨value, by simpa using dead⟩, rfl⟩⟩
    rw [← stale, none_] at inside
    cases inside
  · obtain ⟨live, lives, ranges, empty | kept⟩ := pruning
    · rw [empty] at there
      cases there
    · obtain ⟨pruned, is, same⟩ := kept
      rw [same, normalize_conditions] at there
      obtain ⟨c, inside, left⟩ := (prune_pruned live filter is).left after there
      obtain ⟨field, values⟩ := left.kept
      refine ⟨left.clean ranges (visited.conditions c inside), ?_⟩
      intro v value
      obtain ⟨named, alive⟩ := values v value
      refine ⟨?_, c, inside, field.symm, named⟩
      rw [lives c inside v named] at alive
      rw [field]
      simpa using alive

theorem resolve_valid :
    validatePmFilter (toJson (rebuilt lookup db filter).filter) =
      .ok (rebuilt lookup db filter).filter := by
  obtain ⟨total, visited⟩ := validatePmFilter_visited input filter valid
  have counted := visited.counted
  have few := visited.few
  have shallow := visited.shallow
  have clean := fun after there => (resolve_standing lookup db valid after there).clean
  have full : Full filter ∨ filter = .group .and [] := visited.full.imp (fun full => full) And.left
  refine validatePmFilter_of_clean _ clean ?_ ?_ ?_ <;>
    rcases resolve_cases lookup db filter with untouched | pruning
  · rw [untouched.2]
    exact full
  · obtain ⟨live, _, _, empty | kept⟩ := pruning
    · exact .inr empty
    · obtain ⟨pruned, is, same⟩ := kept
      rw [same]
      rcases full with full | root
      · exact .inl (normalize_wide pruned ((prune_pruned live filter is).full full)).full
      · rw [root] at is
        cases is
        exact .inr rfl
  · rw [untouched.2]
    omega
  · obtain ⟨live, _, _, empty | kept⟩ := pruning
    · rw [empty]
      decide
    · obtain ⟨pruned, is, same⟩ := kept
      have bounds := normalize_bounds pruned
      have smaller := (prune_pruned live filter is).shallow
      rw [same]
      omega
  · rw [untouched.2]
    omega
  · obtain ⟨live, _, _, empty | kept⟩ := pruning
    · rw [empty]
      decide
    · obtain ⟨pruned, is, same⟩ := kept
      have bounds := normalize_bounds pruned
      have smaller := (prune_pruned live filter is).few
      rw [same]
      omega

theorem resolve_again_stale :
    goneRefs (finds lookup db) db (conditions (rebuilt lookup db filter).filter) = [] := by
  rw [goneRefs, List.flatMap_eq_nil_iff]
  intro after there
  rw [List.map_eq_nil_iff, List.filter_eq_nil_iff]
  intro v value
  rw [((resolve_standing lookup db valid after there).values v value).1]
  simp

end

end

/-- The department map, as the compiler asks it. -/
def ResolvedFilter.scope (resolved : ResolvedFilter) (v : String) : Option (Option (List String)) :=
  (resolved.departments.find? fun entry => entry.1 = v).map fun entry => some entry.2

/-- It does not throw that a department is unresolved. -/
def Unthrown {α : Type} (compiled : Compiled α) : Prop :=
  compiled ≠ .error (.query .departmentUnresolved)

theorem unthrown_ok {α : Type} (a : α) : Unthrown (.ok a) := nofun

theorem unthrown_bind {α β : Type} {compiled : Compiled α} {next : α → Compiled β}
    (first : Unthrown compiled) (rest : ∀ a, compiled = .ok a → Unthrown (next a)) :
    Unthrown (compiled >>= next) := by
  cases compiled with
  | error thrown =>
    intro is
    exact first (congrArg _ (Except.error.inj is))
  | ok a => exact rest a rfl

variable {map : String → Compiled String}

theorem unthrown_mapM (each : ∀ v, Unthrown (map v)) (values : List String) : Unthrown (values.mapM map) := by
  induction values with
  | nil => exact unthrown_ok _
  | cons v rest ih =>
    rw [List.mapM_cons]
    exact unthrown_bind (each v) fun _ _ => unthrown_bind ih fun _ _ => unthrown_ok _

theorem unthrown_ofRange {α : Type} (result : ZonedTime.Result α) : Unthrown (ofRange result) := by
  cases result <;> nofun

variable (ctx : PmFilterContext)

theorem unthrown_me (v : String) : Unthrown (Env.me ctx v) := by
  unfold Env.me
  split
  · exact unthrown_ok _
  · split
    · nofun
    · split
      · nofun
      · exact unthrown_ok _

theorem unthrown_setOp (c : PmFilterCondition) : Unthrown (setOp c) := by
  unfold setOp
  split <;> nofun

theorem unthrown_nullableScalar (col : IdColumn) (c : PmFilterCondition)
    (each : ∀ v, Unthrown (map v)) : Unthrown (nullableScalar col c map) := by
  refine unthrown_bind (unthrown_setOp c) fun pair _ => unthrown_bind (unthrown_mapM each pair.2) ?_
  intro values _
  cases pair.1 <;> exact unthrown_ok _

theorem unthrown_requiredScalar (col : IdColumn) (c : PmFilterCondition) : Unthrown (requiredScalar col c) :=
  unthrown_bind (unthrown_setOp c) fun _ _ => unthrown_ok _

theorem unthrown_stateGroup (c : PmFilterCondition) : Unthrown (stateGroup c) :=
  unthrown_bind (unthrown_setOp c) fun _ _ => unthrown_ok _

theorem unthrown_joinSet (rel : Relation) (c : PmFilterCondition) : Unthrown (joinSet rel c) := by
  refine unthrown_bind (unthrown_setOp c) fun pair _ => ?_
  rcases pair with ⟨kind, values⟩
  cases kind <;> exact unthrown_ok _

theorem unthrown_assignee (c : PmFilterCondition) : Unthrown (assignee ctx c) := by
  refine unthrown_bind (unthrown_setOp c) fun pair _ => ?_
  rcases pair with ⟨kind, values⟩
  cases kind with
  | isIn | notIn => exact unthrown_bind (unthrown_mapM (unthrown_me ctx) _) fun _ _ => unthrown_ok _
  | empty | notEmpty => exact unthrown_ok _

theorem unthrown_dateCondition (intl : ZonedTime.Intl) (col : DateColumn) (ctx : PmFilterContext)
    (c : PmFilterCondition) : Unthrown (dateCondition intl col ctx c) := by
  unfold dateCondition
  split
  · exact unthrown_ok _
  · exact unthrown_ok _
  · exact unthrown_bind (unthrown_ofRange _) fun _ _ => unthrown_bind (unthrown_ofRange _) fun _ _ => unthrown_ok _
  iterate 2 · exact unthrown_bind (unthrown_ofRange _) fun _ _ => unthrown_ok _
  · exact unthrown_bind (unthrown_ofRange _) fun _ _ => unthrown_bind (unthrown_ofRange _) fun _ _ => unthrown_ok _
  · nofun

theorem unthrown_departmentScopes (values : List String) (wantsNobody : Bool) (ids : List String)
    (known : ∀ v ∈ values, isNoneWord v = false → (ctx.departments v).isSome = true) :
    Unthrown (departmentScopes ctx values wantsNobody ids) := by
  induction values generalizing wantsNobody ids with
  | nil => exact unthrown_ok _
  | cons v rest ih =>
    have later := fun other there => known other (.tail _ there)
    rw [departmentScopes]
    split
    · exact ih _ _ later
    next plain =>
      obtain ⟨scope, is⟩ := Option.isSome_iff_exists.mp (known v (.head _) (by simpa using plain))
      rw [is]
      cases scope with
      | none | some => exact ih _ _ later

theorem setOp_values (clean : CleanCondition c) (is : c.field = .department)
    {pair : SetKind × List String} (op : setOp c = .ok pair) : ∀ v ∈ pair.2, v ∈ valuesOf c := by
  obtain ⟨legal, value⟩ := clean
  rw [is] at value
  unfold setOp at op
  generalize kind : c.op = k at value op
  generalize held : c.value = given at value op
  rw [valuesOf, held]
  cases value with
  | absent unary => rcases unary with rfl | rfl <;> cases op <;> nofun
  | @single _ value binary scalar =>
    have text : ∃ text, value = .str text := by
      rcases scalar.cases with text | flag
      · obtain ⟨_, text, same, _⟩ := text
        exact ⟨text, same⟩
      · exact absurd flag.1 (by decide)
    obtain ⟨text, rfl⟩ := text
    cases k <;> cases op <;> first | exact fun v there => there | exact nofun
  | members set some_values few once scalars =>
    rcases set with rfl | rfl <;> cases op <;> exact fun v there => there
  | bounds first last => cases op

theorem unthrown_department (clean : CleanCondition c) (is : c.field = .department)
    (known : ∀ v ∈ valuesOf c, isNoneWord v = false → (ctx.departments v).isSome = true) :
    Unthrown (department ctx c) := by
  refine unthrown_bind (unthrown_setOp c) fun pair op => ?_
  have values := setOp_values clean is op
  rcases pair with ⟨kind, named⟩
  have scopes := unthrown_departmentScopes ctx named false [] fun v there => known v (values v there)
  cases kind with
  | isIn | notIn => exact unthrown_bind scopes fun _ _ => unthrown_ok _
  | empty | notEmpty => exact unthrown_ok _

theorem unthrown_condition (intl : ZonedTime.Intl) (ctx : PmFilterContext)
    (clean : CleanCondition c) (known : c.field = .department → ∀ v ∈ valuesOf c, isNoneWord v = false →
      (ctx.departments v).isSome = true) : Unthrown (condition intl ctx c) := by
  unfold condition
  split
  case h_11 is => exact unthrown_department ctx clean is (known is)
  all_goals first
    | exact unthrown_nullableScalar _ _ unthrown_ok
    | exact unthrown_nullableScalar _ _ (unthrown_me ctx)
    | exact unthrown_requiredScalar _ _
    | exact unthrown_stateGroup _
    | exact unthrown_assignee ctx _
    | exact unthrown_joinSet _ _
    | exact unthrown_dateCondition intl _ ctx _
    | exact unthrown_ok _

theorem unthrown_node (intl : ZonedTime.Intl) (ctx : PmFilterContext) (filter : PmFilter)
    (each : ∀ c ∈ conditions filter, Unthrown (condition intl ctx c)) : Unthrown (node intl ctx filter) := by
  induction filter using PmFilter.tree_induction with
  | leaf c => exact each c (.head _)
  | group kind kids ih =>
    have all : Unthrown (nodes intl ctx kids) := by
      induction kids with
      | nil => exact unthrown_ok _
      | cons kid rest ihRest =>
        rw [nodes]
        refine unthrown_bind ?_ fun _ _ => unthrown_bind ?_ fun _ _ => unthrown_ok _
        · exact ih kid (.head _) fun c there => each c (mem_conditionsOf _ kid (.head _) c there)
        · exact ihRest (fun other inside => ih other (.tail _ inside))
            fun c there => each c (List.mem_append_right _ there)
    cases kind with
    | and | or => exact unthrown_bind all fun _ _ => unthrown_ok _

section
variable (lookup : Lookup) (db : PmRows) {Number : Type} {input : Json Number} {filter : PmFilter}

theorem resolve_scope (valid : validatePmFilter input = .ok filter) {after : PmFilterCondition}
    (there : after ∈ conditions (rebuilt lookup db filter).filter)
    (is : after.field = .department) (value : v ∈ valuesOf after) (plain : isNoneWord v = false) :
    ((rebuilt lookup db filter).scope v).isSome = true := by
  obtain ⟨alive, c, inside, same, named⟩ := (resolve_standing lookup db valid after there).values v value
  rw [gone, if_pos is, plain, finds] at alive
  have ref := mem_departmentRefs inside (same.trans is) named plain
  split at alive
  next departmentId found =>
    have entry : (v, expandDepartmentScope db departmentId) ∈
        (rebuilt lookup db filter).departments :=
      List.mem_filterMap.mpr ⟨v, ref, by rw [found]⟩
    rw [ResolvedFilter.scope, Option.isSome_map, List.find?_isSome]
    exact ⟨_, entry, by simp⟩
  next => cases alive

theorem resolve_same (filter : PmFilter) (clean : goneRefs (finds lookup db) db (conditions filter) = []) :
    (rebuilt lookup db filter).stale = [] ∧ (rebuilt lookup db filter).filter = filter := by
  have stale := (resolve_stale lookup db filter).trans clean
  exact ⟨stale, if_pos (by
    change (rebuilt lookup db filter).stale.isEmpty = true
    rw [stale]
    rfl)⟩

theorem resolve_compiles (intl : ZonedTime.Intl) (valid : validatePmFilter input = .ok filter)
    (ctx : PmFilterContext) (scopes : ctx.departments = (rebuilt lookup db filter).scope) :
    compileFilter intl (toJson (rebuilt lookup db filter).filter) ctx ≠
      .error .departmentUnresolved := by
  have each : Unthrown (node intl ctx (normalizePmFilter (rebuilt lookup db filter).filter)) := by
    refine unthrown_node intl ctx _ ?_
    intro c there
    rw [normalize_conditions] at there
    refine unthrown_condition intl ctx (resolve_standing lookup db valid c there).clean ?_
    intro is v value plain
    rw [scopes]
    exact resolve_scope lookup db valid there is value plain
  rw [compileFilter, resolve_valid lookup db valid]
  dsimp only
  split
  · cases compiled : node intl ctx (normalizePmFilter (rebuilt lookup db filter).filter) with
    | ok found => nofun
    | error thrown =>
      cases thrown with
      | range error => nofun
      | query error =>
        rw [compiled] at each
        intro is
        exact each (by rw [Except.error.inj is])
  · nofun

/-- What is asked of what a filter is resolved to. -/
structure Prunes (filter : PmFilter) (resolved : ResolvedFilter) : Prop where
  accepted : validatePmFilter (toJson resolved.filter) = .ok resolved.filter
  clean : ∀ ref ∈ resolved.stale, ∀ c ∈ conditions resolved.filter, c.field = ref.field →
    ref.value ∉ valuesOf c
  reported : resolved.stale = goneRefs (namesDepartment lookup db) db (conditions filter)
  untouched : resolved.stale = [] → resolved.filter = filter
  again : ∃ next, resolveFilterRefs lookup db resolved.filter = some next ∧ next.stale = [] ∧
    next.filter = resolved.filter
  compiles : ∀ (intl : ZonedTime.Intl) (ctx : PmFilterContext), ctx.departments = resolved.scope →
    compileFilter intl (toJson resolved.filter) ctx ≠ .error .departmentUnresolved

/-- A word that is no id is a pattern of a slug or a name only where a department is named so, and the other
way round, and the database takes it as a pattern. -/
def Spelled (word : String) : Prop :=
  word.isEmpty = false → isNoneWord word = false → (∀ row ∈ db.department, row.id ≠ word) →
    lookup.refuses word db.department = false ∧
      ((∃ row ∈ db.department, lookup.likes word row = true) ↔ ∃ row ∈ db.department, row.named lookup word = true)

theorem spelled_iff (v : String) : Spelled lookup db (trim v) ↔
    (resolveDepartmentFilter lookup db v).isSome = true ∧ finds lookup db v = namesDepartment lookup db v := by
  unfold Spelled finds namesDepartment resolveDepartmentFilter
  dsimp only
  generalize trim v = word
  cases empty : word.isEmpty with
  | true => simp
  | false =>
    cases nobody : isNoneWord word with
    | true => simp
    | false =>
      cases own : db.department.any fun row => row.id = word with
      | true =>
        obtain ⟨row, there, same⟩ := List.any_eq_true.mp own
        have is : row.id = word := of_decide_eq_true same
        have named : db.department.any (DepartmentRow.named lookup word) = true :=
          List.any_eq_true.mpr ⟨row, there, by simp [DepartmentRow.named, Lookup.same, is]⟩
        simp only [named, if_true, Bool.false_eq_true, if_false]
        exact ⟨fun _ => ⟨rfl, rfl⟩, fun _ _ _ other => absurd is (other row there)⟩
      | false =>
        have other : ∀ row ∈ db.department, row.id ≠ word := by simpa using own
        cases refused : lookup.refuses word db.department with
        | true =>
          refine ⟨fun spelled => ?_, fun found => ?_⟩
          · cases (spelled rfl rfl other).1
          · simp at found
        | false =>
          have found : (db.department.find? (lookup.likes word)).isSome = db.department.any (lookup.likes word) :=
            List.isSome_find?
          rw [← List.any_eq_true, ← List.any_eq_true, ← Bool.eq_iff_iff, ← found]
          simp only [Bool.false_eq_true, if_false, Bool.not_false, Bool.true_and, true_and]
          cases db.department.find? (lookup.likes word) with
          | none => exact ⟨fun spelled => ⟨rfl, spelled trivial trivial other⟩, fun found _ _ _ => found.2⟩
          | some row => exact ⟨fun spelled => ⟨rfl, spelled trivial trivial other⟩, fun found _ _ _ => found.2⟩

theorem mem_goneRefs {exists_ : String → Bool} {conditions : List PmFilterCondition} (there : c ∈ conditions)
    (is : c.field = .department) (value : v ∈ valuesOf c) (plain : isNoneWord v = false) :
    ⟨.department, v⟩ ∈ goneRefs exists_ db conditions ↔ exists_ v = false := by
  have same : gone exists_ db .department v = !exists_ v := by simp [gone, plain]
  simp only [goneRefs, List.mem_flatMap, List.mem_map, List.mem_filter, PmStaleRef.mk.injEq]
  constructor
  · intro reported
    obtain ⟨other, _, w, ⟨_, dead⟩, field, rfl⟩ := reported
    rw [field, same] at dead
    simpa using dead
  · intro absent
    exact ⟨c, there, v, ⟨value, by rw [is, same, absent]; rfl⟩, is, rfl⟩

/-- A filter whose dead references are dropped is accepted as it is, names nothing dead, and the compiler can
ask its departments; what is reported is what is gone, in order, and what was returned is returned again:
exactly where no department word is taken for a pattern of something else. -/
theorem resolve_prunes_the_dead_iff (valid : validatePmFilter input = .ok filter) :
    (∃ resolved, resolveFilterRefs lookup db filter = some resolved ∧ Prunes lookup db filter resolved) ↔
      ∀ c ∈ conditions filter, c.field = .department → ∀ v ∈ valuesOf c, isNoneWord v = false →
        Spelled lookup db (trim v) := by
  have stale := resolve_stale lookup db filter
  constructor
  · intro ⟨resolved, is, prunes⟩ c there field v value plain
    rw [resolveFilterRefs] at is
    split at is
    · rename_i each
      have some_ := List.all_eq_true.mp each v (mem_departmentRefs there field value plain)
      refine (spelled_iff lookup db v).mpr ⟨some_, ?_⟩
      have reported := prunes.reported
      rw [← Option.some.inj is, stale] at reported
      have found := @mem_goneRefs _ _ db (finds lookup db) _ there field value plain
      rw [reported, mem_goneRefs db there field value plain] at found
      cases names : namesDepartment lookup db v with
      | false => exact found.mp names
      | true =>
        rw [names] at found
        simpa using found
    · cases is
  · intro spelled
    have each (c : PmFilterCondition) (there : c ∈ conditions filter) (field : c.field = .department) (v : String)
        (value : v ∈ valuesOf c) (plain : isNoneWord v = false) :=
      (spelled_iff lookup db v).mp (spelled c there field v value plain)
    have returns (other : PmFilter) (within : ∀ c ∈ conditions other, c.field = .department → ∀ v ∈ valuesOf c,
        ∃ before ∈ conditions filter, before.field = .department ∧ v ∈ valuesOf before) :
        resolveFilterRefs lookup db other = some (rebuilt lookup db other) := by
      rw [resolveFilterRefs, if_pos]
      refine List.all_eq_true.mpr fun v named => ?_
      rw [departmentRefs, mem_distinct, List.mem_flatMap] at named
      obtain ⟨c, there, value⟩ := named
      obtain ⟨there, field⟩ := List.mem_filter.mp there
      obtain ⟨value, plain⟩ := List.mem_filter.mp value
      obtain ⟨before, inside, same, value⟩ := within c there (by simpa using field) v value
      exact (each before inside same v value (by simpa using plain)).1
    have reported : goneRefs (finds lookup db) db (conditions filter) =
        goneRefs (namesDepartment lookup db) db (conditions filter) := by
      refine List.flatMap_congr fun c there => congrArg _ (List.filter_congr fun v value => ?_)
      unfold gone
      split
      next field =>
        cases plain : isNoneWord v with
        | true => rfl
        | false => rw [(each c there field v value plain).2]
      next => rfl
    have standing := resolve_standing lookup db valid
    obtain ⟨settled, fixed⟩ := resolve_same lookup db _ (resolve_again_stale lookup db valid)
    refine ⟨_, returns filter fun c there field v value => ⟨c, there, field, value⟩,
      resolve_valid lookup db valid, ?_, stale.trans reported, ?_, ⟨_, returns _ ?_, settled, fixed⟩, ?_⟩
    · intro ref reported c there same value
      rw [stale, goneRefs] at reported
      obtain ⟨before, _, mapped⟩ := List.mem_flatMap.mp reported
      obtain ⟨v, dead, rfl⟩ := List.mem_map.mp mapped
      have lives := ((standing c there).values v value).1
      rw [same, (List.mem_filter.mp dead).2] at lives
      cases lives
    · intro none_
      exact (resolve_same lookup db filter (stale.symm.trans none_)).2
    · intro c there field v value
      obtain ⟨_, before, inside, same, value⟩ := (standing c there).values v value
      exact ⟨before, inside, same.trans field, value⟩
    · intro intl ctx scopes
      exact resolve_compiles lookup db intl valid ctx scopes

end

def exactCase : Lookup := ⟨⟨fun c => c, fun _ _ => rfl⟩, fun _ _ => false, nofun⟩

def onlyBugs : PmRows where
  pmState := []
  pmLabel := ["bug"]
  pmCycle := []
  pmModule := []
  pmWorkItem := []
  pmProject := []
  user := []
  department := [⟨"d1", "r-d", "Research", none⟩]

/-- Two labels, of which one exists, and departments. -/
def labelsOf (departments : List String) : PmFilter :=
  .group .and [.leaf ⟨.label, .isIn, some (.list ["bug", "late"])⟩,
    .leaf ⟨.department, .isIn, some (.list departments)⟩]

/-- The second department does not exist. -/
theorem labels_of_research_pruned :
    ∃ resolved, resolveFilterRefs exactCase onlyBugs (labelsOf ["Research", "ops"]) = some resolved ∧
      resolved.stale = [⟨.label, "late"⟩, ⟨.department, "ops"⟩] ∧
      Prunes exactCase onlyBugs (labelsOf ["Research", "ops"]) resolved := by
  have valid : validatePmFilter (toJson (labelsOf ["Research", "ops"])) = .ok (labelsOf ["Research", "ops"]) := by
    rfl
  have alike : ∀ c ∈ conditions (labelsOf ["Research", "ops"]), ∀ v ∈ valuesOf c,
      (resolveDepartmentFilter exactCase onlyBugs v).isSome = true ∧
        finds exactCase onlyBugs v = namesDepartment exactCase onlyBugs v := by decide
  obtain ⟨resolved, is, prunes⟩ := (resolve_prunes_the_dead_iff exactCase onlyBugs valid).mpr
    fun c there _ v value _ => (spelled_iff exactCase onlyBugs v).mpr (alike c there v value)
  exact ⟨resolved, is, prunes.reported.trans (by decide), prunes⟩

/-- No department is named so, but a slug is of this pattern. -/
theorem pattern_is_taken_for_a_name :
    ¬ ∃ resolved, resolveFilterRefs exactCase onlyBugs (labelsOf ["r_d"]) = some resolved ∧
      Prunes exactCase onlyBugs (labelsOf ["r_d"]) resolved := by
  intro ⟨resolved, is, prunes⟩
  have stale : (resolveFilterRefs exactCase onlyBugs (labelsOf ["r_d"])).map ResolvedFilter.stale =
      some [⟨.label, "late"⟩] := by decide
  rw [is, Option.map_some, prunes.reported] at stale
  exact absurd stale (by decide)

end Droplet.Pm
