import Droplet.Lib.Sql
import Droplet.Pm.Filter

/-! The filter compiler (`services/pm/filter/compile.ts`, with the days of `filter/dates.ts`,
`departmentWorkItemWhere` of `pm-department.ts` and `parseWorkItemKey` of `pm-links.ts`): a filter
becomes a `where` over work items, which the database evaluates in three-valued logic. -/

namespace Droplet.Pm

open Sql ZonedTime Gregorian

inductive PmStateGroup where
  | backlog
  | unstarted
  | started
  | completed
  | cancelled

def PmStateGroup.name : PmStateGroup → String
  | .backlog => "backlog"
  | .unstarted => "unstarted"
  | .started => "started"
  | .completed => "completed"
  | .cancelled => "cancelled"

inductive PmPriority where
  | urgent
  | high
  | medium
  | low
  | unset

def PmPriority.name : PmPriority → String
  | .urgent => "urgent"
  | .high => "high"
  | .medium => "medium"
  | .low => "low"
  | .unset => "none"

structure PmState where
  id : String
  group : PmStateGroup

structure PmProject where
  id : String
  identifier : String
  departmentId : Option String

/-- A row with the relations a filter reads: the state and the project it points at, and the ids
its join rows point at. -/
structure PmWorkItem where
  project : PmProject
  sequenceId : ℤ
  name : String
  descriptionText : Option String
  state : Option PmState
  priority : PmPriority
  parentId : Option String
  cycleId : Option String
  departmentId : Option String
  createdById : Option String
  startDate : Option ℤ
  dueDate : Option ℤ
  isArchived : Bool
  createdAt : ℤ
  updatedAt : ℤ
  assignees : List String
  labels : List String
  modules : List String

inductive IdColumn where
  | stateId
  | cycleId
  | parentId
  | createdById
  | departmentId
  | priority
  | projectId

inductive DateColumn where
  | dueDate
  | startDate
  | createdAt
  | updatedAt

inductive TextColumn where
  | name
  | descriptionText

inductive Relation where
  | labels
  | modules
  | assignees

inductive IdTest where
  | null
  | notNull
  | oneOf (values : List String)
  | notOneOf (values : List String)

inductive DateTest where
  | null
  | notNull
  | range (gte lt : Option ℤ)

inductive Quantifier where
  | exists_one
  | exists_none

inductive ProjectWhere where
  | departmentId (test : IdTest)
  | identifierEquals (text : String)
  | or (left right : ProjectWhere)

/-- `Prisma.PmWorkItemWhereInput`: an object of several keys is the `AND` of its keys. A relation
filter without an id list is `{}`. -/
inductive Where where
  | id (col : IdColumn) (test : IdTest)
  | date (col : DateColumn) (test : DateTest)
  | contains (col : TextColumn) (pattern : List Char)
  | sequenceId (n : ℤ)
  | isArchived (value : Bool)
  | stateGroup (test : IdTest)
  | project (test : ProjectWhere)
  | links (rel : Relation) (quantifier : Quantifier) (ids : Option (List String))
  | all (arms : List Where)
  | any (arms : List Where)

def PmWorkItem.id (row : PmWorkItem) : IdColumn → Option String
  | .stateId => row.state.map PmState.id
  | .cycleId => row.cycleId
  | .parentId => row.parentId
  | .createdById => row.createdById
  | .departmentId => row.departmentId
  | .priority => some row.priority.name
  | .projectId => some row.project.id

def PmWorkItem.date (row : PmWorkItem) : DateColumn → Option ℤ
  | .dueDate => row.dueDate
  | .startDate => row.startDate
  | .createdAt => some row.createdAt
  | .updatedAt => some row.updatedAt

def PmWorkItem.text (row : PmWorkItem) : TextColumn → Option String
  | .name => some row.name
  | .descriptionText => row.descriptionText

def PmWorkItem.links (row : PmWorkItem) : Relation → List String
  | .labels => row.labels
  | .modules => row.modules
  | .assignees => row.assignees

def IdTest.eval (value : Option String) : IdTest → Truth
  | .null => isNull value
  | .notNull => Sql.notNull value
  | .oneOf values => isIn values value
  | .notOneOf values => notIn values value

def DateTest.eval (value : Option ℤ) : DateTest → Truth
  | .null => isNull value
  | .notNull => Sql.notNull value
  | .range gte lt =>
    Sql.all [value.map (fun t => gte.all (fun low => decide (low ≤ t))),
      value.map (fun t => lt.all (fun high => decide (t < high)))]

/-- `contains` is `ILIKE` between two `%`, `equals` without regard to case is `ILIKE` as it
stands. -/
def ProjectWhere.eval (folding : Folding) (project : PmProject) : ProjectWhere → Truth
  | .departmentId test => test.eval project.departmentId
  | .identifierEquals text => some (ilike folding text.toList project.identifier.toList)
  | .or left right => Sql.any [left.eval folding project, right.eval folding project]

mutual

/-- What the database makes of a row. A relation filter on a state that is not there is false, and
`EXISTS` is never `NULL`. -/
def Where.eval (folding : Folding) (row : PmWorkItem) : Where → Truth
  | .id col test => test.eval (row.id col)
  | .date col test => test.eval (row.date col)
  | .contains col pattern =>
    (row.text col).map (fun text => ilike folding ('%' :: (pattern ++ ['%'])) text.toList)
  | .sequenceId n => some (decide (row.sequenceId = n))
  | .isArchived value => some (row.isArchived == value)
  | .stateGroup test =>
    match row.state with
    | none => some false
    | some state => test.eval (some state.group.name)
  | .project test => test.eval folding row.project
  | .links rel quantifier ids =>
    let found := (row.links rel).any (fun link => ids.all (fun list => decide (link ∈ list)))
    match quantifier with
    | .exists_one => some found
    | .exists_none => some (!found)
  | .all arms => Sql.all (Where.evals folding row arms)
  | .any arms => Sql.any (Where.evals folding row arms)

def Where.evals (folding : Folding) (row : PmWorkItem) : List Where → List Truth
  | [] => []
  | arm :: arms => Where.eval folding row arm :: Where.evals folding row arms

end

structure PmFilterContext where
  now : ℤ
  tz : String
  userId : Option String
  /-- The scopes of department references: `some none` is owned by nobody. -/
  departments : String → Option (Option (List String))

inductive QueryError where
  | invalidFilter
  | meUnavailable
  | departmentUnresolved
  | invalidTimezone

inductive Thrown where
  | query (error : QueryError)
  | range (error : RangeError)

abbrev Compiled := Except Thrown

def ofRange {α : Type} : Result α → Compiled α
  | .ok value => .ok value
  | .error error => .error (.range error)

/-- Of all characters only those of ASCII lower to the letters of the word. -/
def isNoneWord (v : String) : Bool := v.toList.map Char.toLower = PM_FILTER_NONE.toList

inductive ArmKind where
  | and
  | or

def combine (arms : List Where) (kind : ArmKind) : Where :=
  match arms with
  | [arm] => arm
  | arms =>
    match kind with
    | .and => .all arms
    | .or => .any arms

def escapeLike (s : String) : List Char := escape s.toList

inductive SetKind where
  | isIn
  | notIn
  | empty
  | notEmpty
  deriving DecidableEq

/-- `c.value as string`, `c.value as string[]` and `c.value as boolean`. -/
def valueText : Option PmFilterValue → String
  | some (.str v) => v
  | _ => ""

def valueList : Option PmFilterValue → List String
  | some (.list values) => values
  | _ => []

def valueFlag : Option PmFilterValue → Bool
  | some (.bool v) => v
  | _ => false

def setOp (c : PmFilterCondition) : Compiled (SetKind × List String) :=
  match c.op with
  | .is => .ok (.isIn, [valueText c.value])
  | .isIn => .ok (.isIn, valueList c.value)
  | .isNot => .ok (.notIn, [valueText c.value])
  | .notIn => .ok (.notIn, valueList c.value)
  | .isEmpty => .ok (.empty, [])
  | .isNotEmpty => .ok (.notEmpty, [])
  | _ => .error (.query .invalidFilter)

inductive DateStorage where
  | date
  | timestamp

variable (intl : Intl)

def todayIn (now : ℤ) (tz : String) : Result String :=
  (localPartsOf intl now tz).map LocalParts.ymd

def resolveDateToken (token today : String) : Result String :=
  match relativeDateOffsetDays token with
  | none => .ok token
  | some offset => ymdAddDays today offset

def utcMidnight (ymd : String) : Result ℤ := do
  let date ← parseYmd ymd
  return toDay date * DAY_MS

def dayStart (ymd : String) (storage : DateStorage) (tz : String) : Result ℤ :=
  match storage with
  | .date => utcMidnight ymd
  | .timestamp => zonedDateMinuteToUtc intl ymd 0 tz

def dayEnd (ymd : String) (storage : DateStorage) (tz : String) : Result ℤ := do
  let next ← ymdAddDays ymd 1
  dayStart intl next storage tz

namespace Env

def me (ctx : PmFilterContext) (v : String) : Compiled String :=
  if v ≠ PM_FILTER_ME then .ok v
  else
    match ctx.userId with
    | none => .error (.query .meUnavailable)
    | some user => if user = "" then .error (.query .meUnavailable) else .ok user

def day (ctx : PmFilterContext) (token : String) : Result String := do
  let today ← todayIn intl ctx.now ctx.tz
  resolveDateToken token today

end Env

def nullableScalar (col : IdColumn) (c : PmFilterCondition) (map : String → Compiled String) :
    Compiled Where := do
  let (kind, raw) ← setOp c
  let values ← raw.mapM map
  match kind with
  | .isIn => return .id col (.oneOf values)
  | .notIn => return .any [.id col .null, .id col (.notOneOf values)]
  | .empty => return .id col .null
  | .notEmpty => return .id col .notNull

def requiredScalar (col : IdColumn) (c : PmFilterCondition) : Compiled Where := do
  let (kind, values) ← setOp c
  return if kind = .isIn then .id col (.oneOf values) else .id col (.notOneOf values)

def stateGroup (c : PmFilterCondition) : Compiled Where := do
  let (kind, groups) ← setOp c
  return if kind = .isIn then .stateGroup (.oneOf groups)
    else .any [.id .stateId .null, .stateGroup (.notOneOf groups)]

def joinSet (rel : Relation) (c : PmFilterCondition) : Compiled Where := do
  let (kind, values) ← setOp c
  match kind with
  | .isIn => return .links rel .exists_one (some values)
  | .notIn => return .links rel .exists_none (some values)
  | .empty => return .links rel .exists_none none
  | .notEmpty => return .links rel .exists_one none

def assignee (ctx : PmFilterContext) (c : PmFilterCondition) : Compiled Where := do
  let (kind, values) ← setOp c
  match kind with
  | .empty => return .links .assignees .exists_none none
  | .notEmpty => return .links .assignees .exists_one none
  | .isIn =>
    let ids ← (values.filter (fun v => v ≠ PM_FILTER_NONE)).mapM (Env.me ctx)
    return combine
      ((if ids.length > 0 then [.links .assignees .exists_one (some ids)] else []) ++
        (if PM_FILTER_NONE ∈ values then [.links .assignees .exists_none none] else [])) .or
  | .notIn =>
    let ids ← (values.filter (fun v => v ≠ PM_FILTER_NONE)).mapM (Env.me ctx)
    return combine
      ((if ids.length > 0 then [.links .assignees .exists_none (some ids)] else []) ++
        (if PM_FILTER_NONE ∈ values then [.links .assignees .exists_one none] else [])) .and

def departmentWorkItemWhere : Option (List String) → Where
  | none => .all [.id .departmentId .null, .project (.departmentId .null)]
  | some ids => .any [.id .departmentId (.oneOf ids),
      .all [.id .departmentId .null, .project (.departmentId (.oneOf ids))]]

def hasDepartment : Where :=
  .any [.id .departmentId .notNull, .project (.departmentId .notNull)]

def departmentNotIn (ids : List String) : Where :=
  .any [.id .departmentId (.notOneOf ids),
    .all [.id .departmentId .null,
      .project (.or (.departmentId .null) (.departmentId (.notOneOf ids)))]]

/-- The loop over the values: whether nobody is wanted, and the ids so far. -/
def departmentScopes (ctx : PmFilterContext) : List String → Bool → List String →
    Compiled (Bool × List String)
  | [], wantsNobody, ids => .ok (wantsNobody, ids)
  | v :: rest, wantsNobody, ids =>
    if isNoneWord v then departmentScopes ctx rest true ids
    else
      match ctx.departments v with
      | none => .error (.query .departmentUnresolved)
      | some none => departmentScopes ctx rest true ids
      | some (some scope) =>
        departmentScopes ctx rest wantsNobody
          (scope.foldl (fun ids id => if id ∈ ids then ids else ids ++ [id]) ids)

def department (ctx : PmFilterContext) (c : PmFilterCondition) : Compiled Where := do
  let (kind, values) ← setOp c
  match kind with
  | .empty => return departmentWorkItemWhere none
  | .notEmpty => return hasDepartment
  | .isIn =>
    let (wantsNobody, ids) ← departmentScopes ctx values false []
    return combine
      ((if ids.length > 0 then [departmentWorkItemWhere (some ids)] else []) ++
        (if wantsNobody then [departmentWorkItemWhere none] else [])) .or
  | .notIn =>
    let (wantsNobody, ids) ← departmentScopes ctx values false []
    return combine
      ((if ids.length > 0 then [departmentNotIn ids] else []) ++
        (if wantsNobody then [hasDepartment] else [])) .and

def DATE_COLUMNS : DateColumn → DateStorage
  | .dueDate => .date
  | .startDate => .date
  | .createdAt => .timestamp
  | .updatedAt => .timestamp

def dateCondition (col : DateColumn) (ctx : PmFilterContext) (c : PmFilterCondition) :
    Compiled Where :=
  let start := fun token => ofRange (do
    let day ← Env.day intl ctx token
    dayStart intl day (DATE_COLUMNS col) ctx.tz)
  let finish := fun token => ofRange (do
    let day ← Env.day intl ctx token
    dayEnd intl day (DATE_COLUMNS col) ctx.tz)
  match c.op with
  | .isEmpty => .ok (.date col .null)
  | .isNotEmpty => .ok (.date col .notNull)
  | .is => do
      let gte ← start (valueText c.value)
      let lt ← finish (valueText c.value)
      return .date col (.range (some gte) (some lt))
  | .before => do
      let lt ← start (valueText c.value)
      return .date col (.range none (some lt))
  | .after => do
      let gte ← finish (valueText c.value)
      return .date col (.range (some gte) none)
  | .between => do
      let gte ← start ((valueList c.value).getD 0 "")
      let lt ← finish ((valueList c.value).getD 1 "")
      return .date col (.range (some gte) (some lt))
  | _ => .error (.query .invalidFilter)

/-- `/^([A-Za-z0-9]{1,10})-(\d{1,9})$/`. -/
def parseWorkItemKey (key : String) : Option (String × ℕ) :=
  let identifier := key.toList.takeWhile Char.isAlphanum
  match key.toList.dropWhile Char.isAlphanum with
  | '-' :: digits =>
    if 1 ≤ identifier.length ∧ identifier.length ≤ 10 ∧ digits.all Char.isDigit ∧
        1 ≤ digits.length ∧ digits.length ≤ 9 then
      some (String.ofList identifier, Decimal.value digits)
    else none
  | _ => none

def text (c : PmFilterCondition) : Where :=
  let needle := valueText c.value
  let pattern := escapeLike needle
  .any ([.contains .name pattern, .contains .descriptionText pattern] ++
    match parseWorkItemKey needle with
    | some (identifier, sequenceId) =>
      [.all [.sequenceId sequenceId, .project (.identifierEquals identifier)]]
    | none => [])

def condition (ctx : PmFilterContext) (c : PmFilterCondition) : Compiled Where :=
  match c.field with
  | .state => nullableScalar .stateId c .ok
  | .cycle => nullableScalar .cycleId c .ok
  | .parent => nullableScalar .parentId c .ok
  | .createdBy => nullableScalar .createdById c (Env.me ctx)
  | .priority => requiredScalar .priority c
  | .project => requiredScalar .projectId c
  | .stateGroup => stateGroup c
  | .assignee => assignee ctx c
  | .label => joinSet .labels c
  | .module => joinSet .modules c
  | .department => department ctx c
  | .dueDate => dateCondition intl .dueDate ctx c
  | .startDate => dateCondition intl .startDate ctx c
  | .createdAt => dateCondition intl .createdAt ctx c
  | .updatedAt => dateCondition intl .updatedAt ctx c
  | .text => .ok (text c)
  | .isArchived => .ok (.isArchived (valueFlag c.value))

mutual

def node (ctx : PmFilterContext) : PmFilter → Compiled Where
  | .group .and kids => do
      let arms ← nodes ctx kids
      return if arms.length = 0 then .all [] else combine arms .and
  | .group .or kids => do
      let arms ← nodes ctx kids
      return combine arms .or
  | .leaf c => condition intl ctx c

def nodes (ctx : PmFilterContext) : List PmFilter → Compiled (List Where)
  | [] => .ok []
  | kid :: rest => do
      let arm ← node ctx kid
      let arms ← nodes ctx rest
      return arm :: arms

end

def compileFilter {Number : Type} (filter : Json Number) (ctx : PmFilterContext) :
    Except QueryError Where :=
  match validatePmFilter filter with
  | .error _ => .error .invalidFilter
  | .ok valid =>
    if isValidIanaZone intl ctx.tz then
      match node intl ctx (normalizePmFilter valid) with
      | .ok compiled => .ok compiled
      | .error (.range _) => .error .invalidFilter
      | .error (.query error) => .error error
    else .error .invalidTimezone

end Droplet.Pm
