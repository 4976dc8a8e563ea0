import Droplet.CalendarText
import Droplet.Pm.Compile
import Droplet.Pm.FilterShape

/-! What a filter says of a work item, in two-valued logic, and that its `where` is true of the
same rows. -/

namespace Droplet.Pm

open Sql ZonedTime Gregorian Fallible

def effectiveDepartment (row : PmWorkItem) : Option String :=
  match row.departmentId with
  | some id => some id
  | none => row.project.departmentId

/-- The person a value names. -/
def who (ctx : PmFilterContext) (v : String) : Option String :=
  if v = PM_FILTER_ME then ctx.userId else some v

def Matches (ctx : PmFilterContext) (row : PmWorkItem) : PmFilterField → String → Prop
  | .state, v => row.state.map PmState.id = some v
  | .stateGroup, v => ∃ state, row.state = some state ∧ state.group.name = v
  | .priority, v => row.priority.name = v
  | .assignee, v =>
    if v = PM_FILTER_NONE then row.assignees = []
    else ∃ user ∈ row.assignees, who ctx v = some user
  | .label, v => v ∈ row.labels
  | .cycle, v => row.cycleId = some v
  | .module, v => v ∈ row.modules
  | .department, v =>
    if isNoneWord v ∨ ctx.departments v = some none then effectiveDepartment row = none
    else ∃ scope, ctx.departments v = some (some scope) ∧
      ∃ id ∈ scope, effectiveDepartment row = some id
  | .project, v => row.project.id = v
  | .createdBy, v => ∃ user, who ctx v = some user ∧ row.createdById = some user
  | .parent, v => row.parentId = some v
  | _, _ => False

def Lacks (row : PmWorkItem) : PmFilterField → Prop
  | .state => row.state = none
  | .assignee => row.assignees = []
  | .label => row.labels = []
  | .cycle => row.cycleId = none
  | .module => row.modules = []
  | .department => effectiveDepartment row = none
  | .dueDate => row.dueDate = none
  | .startDate => row.startDate = none
  | .createdBy => row.createdById = none
  | .parent => row.parentId = none
  | _ => False

section

variable (intl : Intl) (ctx : PmFilterContext)

def tokenDay (token : String) : Option ℤ :=
  match Env.day intl ctx token with
  | .error _ => none
  | .ok ymd => (parseYmd ymd).toOption.map toDay

/-- The first instant of a day: midnight in UTC of a date, midnight of the viewer of a moment. -/
def firstInstant (storage : DateStorage) (day : ℤ) : Option ℤ :=
  match storage with
  | .date => some (day * DAY_MS)
  | .timestamp => (intl.resolve ctx.tz).map (fun zone =>
    zonedWallClockToUtc (ofDay day).year (ofDay day).month (ofDay day).day 0 0 0 zone)

def SinceDay (storage : DateStorage) (token : String) (t : ℤ) : Prop :=
  ∃ day start, tokenDay intl ctx token = some day ∧
    firstInstant intl ctx storage day = some start ∧ start ≤ t

def PastDay (storage : DateStorage) (token : String) (t : ℤ) : Prop :=
  ∃ day start, tokenDay intl ctx token = some day ∧
    firstInstant intl ctx storage (day + 1) = some start ∧ start ≤ t

def DateHolds (col : DateColumn) (row : PmWorkItem) (c : PmFilterCondition) (field : PmFilterField) :
    Prop :=
  match c.op with
  | .isEmpty => Lacks row field
  | .isNotEmpty => ¬ Lacks row field
  | .is => ∃ t, row.date col = some t ∧ SinceDay intl ctx (DATE_COLUMNS col) (valueText c.value) t ∧
      ¬ PastDay intl ctx (DATE_COLUMNS col) (valueText c.value) t
  | .before => ∃ t, row.date col = some t ∧
      ¬ SinceDay intl ctx (DATE_COLUMNS col) (valueText c.value) t
  | .after => ∃ t, row.date col = some t ∧ PastDay intl ctx (DATE_COLUMNS col) (valueText c.value) t
  | .between => ∃ t, row.date col = some t ∧
      SinceDay intl ctx (DATE_COLUMNS col) ((valueList c.value).getD 0 "") t ∧
      ¬ PastDay intl ctx (DATE_COLUMNS col) ((valueList c.value).getD 1 "") t
  | _ => False

end

def Inside (folding : Folding) (needle text : String) : Prop :=
  needle.toList.map folding.fold <:+: text.toList.map folding.fold

def TextHolds (folding : Folding) (row : PmWorkItem) (needle : String) : Prop :=
  Inside folding needle row.name ∨
    (∃ description, row.descriptionText = some description ∧ Inside folding needle description) ∨
    ∃ identifier n, parseWorkItemKey needle = some (identifier, n) ∧ row.sequenceId = n ∧
      row.project.identifier.toList.map folding.fold = identifier.toList.map folding.fold

/-- The set operations: `isNot`, `notIn` and `isNotEmpty` are negations. -/
def SetHolds (ctx : PmFilterContext) (c : PmFilterCondition) (row : PmWorkItem) : Prop :=
  match c.op with
  | .is => Matches ctx row c.field (valueText c.value)
  | .isIn => ∃ v ∈ valueList c.value, Matches ctx row c.field v
  | .isNot => ¬ Matches ctx row c.field (valueText c.value)
  | .notIn => ¬ ∃ v ∈ valueList c.value, Matches ctx row c.field v
  | .isEmpty => Lacks row c.field
  | .isNotEmpty => ¬ Lacks row c.field
  | _ => False

section

variable (intl : Intl) (ctx : PmFilterContext) (folding : Folding) (row : PmWorkItem)

def ConditionHolds (c : PmFilterCondition) : Prop :=
  match c.field with
  | .dueDate => DateHolds intl ctx .dueDate row c .dueDate
  | .startDate => DateHolds intl ctx .startDate row c .startDate
  | .createdAt => DateHolds intl ctx .createdAt row c .createdAt
  | .updatedAt => DateHolds intl ctx .updatedAt row c .updatedAt
  | .text => TextHolds folding row (valueText c.value)
  | .isArchived => row.isArchived = valueFlag c.value
  | _ => SetHolds ctx c row

mutual

def Holds : PmFilter → Prop
  | .leaf c => ConditionHolds intl ctx folding row c
  | .group .and kids => HoldsAll kids
  | .group .or kids => HoldsAny kids

def HoldsAll : List PmFilter → Prop
  | [] => True
  | kid :: rest => Holds kid ∧ HoldsAll rest

def HoldsAny : List PmFilter → Prop
  | [] => False
  | kid :: rest => Holds kid ∨ HoldsAny rest

end

def HoldsGroup : GroupKind → List PmFilter → Prop
  | .and => HoldsAll intl ctx folding row
  | .or => HoldsAny intl ctx folding row

variable (kind : GroupKind)

theorem holds_group (kids : List PmFilter) :
    Holds intl ctx folding row (.group kind kids) ↔ HoldsGroup intl ctx folding row kind kids := by
  cases kind <;> simp [Holds, HoldsGroup]

/-- Both, or either. -/
def Joined : GroupKind → Prop → Prop → Prop
  | .and, first, second => first ∧ second
  | .or, first, second => first ∨ second

theorem holdsGroup_append (front back : List PmFilter) :
    HoldsGroup intl ctx folding row kind (front ++ back) ↔
      Joined kind (HoldsGroup intl ctx folding row kind front)
        (HoldsGroup intl ctx folding row kind back) := by
  induction front with
  | nil => cases kind <;> simp [HoldsGroup, HoldsAll, HoldsAny, Joined]
  | cons kid front ih =>
    cases kind with
    | and =>
      simp only [HoldsGroup, List.cons_append, HoldsAll, Joined] at ih ⊢
      rw [ih, and_assoc]
    | or =>
      simp only [HoldsGroup, List.cons_append, HoldsAny, Joined] at ih ⊢
      rw [ih, or_assoc]

theorem holdsGroup_singleton (kid : PmFilter) :
    HoldsGroup intl ctx folding row kind [kid] ↔ Holds intl ctx folding row kid := by
  cases kind <;> simp [HoldsGroup, HoldsAll, HoldsAny]

theorem holdsGroup_spread (kid : PmFilter) :
    HoldsGroup intl ctx folding row kind (spread kind kid) ↔ Holds intl ctx folding row kid := by
  cases kid with
  | leaf c => exact holdsGroup_singleton intl ctx folding row kind _
  | group other kids =>
    simp only [spread]
    split
    · next same =>
      rw [same]
      exact (holds_group intl ctx folding row kind kids).symm
    · exact holdsGroup_singleton intl ctx folding row kind _

theorem holds_unwrap (kids : List PmFilter) :
    Holds intl ctx folding row (unwrap kind kids) ↔ HoldsGroup intl ctx folding row kind kids := by
  unfold unwrap
  split
  · exact (holdsGroup_singleton intl ctx folding row kind _).symm
  · exact holds_group intl ctx folding row kind kids

theorem holds_normalize (filter : PmFilter) :
    Holds intl ctx folding row (normalizePmFilter filter) ↔ Holds intl ctx folding row filter := by
  induction filter using PmFilter.tree_induction with
  | leaf c => rw [normalizePmFilter]
  | group kind kids ih =>
    rw [normalizePmFilter, holds_unwrap, holds_group]
    induction kids with
    | nil => rw [normalizeKids]
    | cons kid rest ihRest =>
      have first : HoldsGroup intl ctx folding row kind (spread kind (normalizePmFilter kid)) ↔
          HoldsGroup intl ctx folding row kind [kid] := by
        rw [holdsGroup_spread, holdsGroup_singleton]
        exact ih kid List.mem_cons_self
      have later := ihRest (fun other member => ih other (List.mem_cons_of_mem _ member))
      rw [normalizeKids, holdsGroup_append, ← List.singleton_append, holdsGroup_append]
      cases kind with
      | and => exact and_congr first later
      | or => exact or_congr first later

end

end Droplet.Pm
