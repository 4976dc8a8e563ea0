import Droplet.ZonedTime
import Droplet.Lib.JsText

/-! The filter language of work items (`shared-types/src/pm-filter.ts`): the field table, the
validator and the canonical shape.

Strings are well-formed here. The source refuses a lone surrogate wherever it keeps a
string, so no filter it accepts has one. -/

namespace Droplet.Pm

open ZonedTime JsText

def PM_FILTER_MAX_DEPTH : ℕ := 4
def PM_FILTER_MAX_NODES : ℕ := 60
def PM_FILTER_MAX_VALUES : ℕ := 50
def PM_FILTER_TEXT_MAX : ℕ := 200
def PM_FILTER_ENCODED_MAX : ℕ := 4000
def PM_FILTER_ME : String := "me"
def PM_FILTER_NONE : String := "none"
def REF_MAX : ℕ := 100

inductive PmFilterOp where
  | is
  | isNot
  | isIn
  | notIn
  | before
  | after
  | between
  | isEmpty
  | isNotEmpty
  | contains
  deriving DecidableEq

def PmFilterOp.name : PmFilterOp → String
  | .is => "is"
  | .isNot => "isNot"
  | .isIn => "in"
  | .notIn => "notIn"
  | .before => "before"
  | .after => "after"
  | .between => "between"
  | .isEmpty => "isEmpty"
  | .isNotEmpty => "isNotEmpty"
  | .contains => "contains"

inductive PmFilterValueKind where
  | id
  | ref
  | enum
  | date
  | text
  | boolean
  deriving DecidableEq

inductive PmFilterField where
  | state
  | stateGroup
  | priority
  | assignee
  | label
  | cycle
  | module
  | department
  | project
  | dueDate
  | startDate
  | createdAt
  | updatedAt
  | createdBy
  | text
  | parent
  | isArchived
  deriving DecidableEq

def PmFilterField.name : PmFilterField → String
  | .state => "state"
  | .stateGroup => "stateGroup"
  | .priority => "priority"
  | .assignee => "assignee"
  | .label => "label"
  | .cycle => "cycle"
  | .module => "module"
  | .department => "department"
  | .project => "project"
  | .dueDate => "dueDate"
  | .startDate => "startDate"
  | .createdAt => "createdAt"
  | .updatedAt => "updatedAt"
  | .createdBy => "createdBy"
  | .text => "text"
  | .parent => "parent"
  | .isArchived => "isArchived"

def PM_FILTER_FIELD_NAMES : List PmFilterField :=
  [.state, .stateGroup, .priority, .assignee, .label, .cycle, .module, .department, .project,
    .dueDate, .startDate, .createdAt, .updatedAt, .createdBy, .text, .parent, .isArchived]

structure PmFilterFieldSpec where
  kind : PmFilterValueKind
  ops : List PmFilterOp
  options : List String := []

def SET_OPS : List PmFilterOp := [.is, .isNot, .isIn, .notIn, .isEmpty, .isNotEmpty]
def REQUIRED_SET_OPS : List PmFilterOp := [.is, .isNot, .isIn, .notIn]
def NULLABLE_DATE_OPS : List PmFilterOp := [.is, .before, .after, .between, .isEmpty, .isNotEmpty]
def DATE_OPS : List PmFilterOp := [.is, .before, .after, .between]
def PM_STATE_GROUPS : List String := ["backlog", "unstarted", "started", "completed", "cancelled"]
def PM_PRIORITIES : List String := ["urgent", "high", "medium", "low", "none"]

/-- The tokens of a field are for its picker: the validator does not read them. -/
def PM_FILTER_FIELDS : PmFilterField → PmFilterFieldSpec
  | .state => { kind := .id, ops := SET_OPS }
  | .stateGroup => { kind := .enum, ops := REQUIRED_SET_OPS, options := PM_STATE_GROUPS }
  | .priority => { kind := .enum, ops := REQUIRED_SET_OPS, options := PM_PRIORITIES }
  | .assignee => { kind := .id, ops := SET_OPS }
  | .label => { kind := .id, ops := SET_OPS }
  | .cycle => { kind := .id, ops := SET_OPS }
  | .module => { kind := .id, ops := SET_OPS }
  | .department => { kind := .ref, ops := SET_OPS }
  | .project => { kind := .id, ops := REQUIRED_SET_OPS }
  | .dueDate => { kind := .date, ops := NULLABLE_DATE_OPS }
  | .startDate => { kind := .date, ops := NULLABLE_DATE_OPS }
  | .createdAt => { kind := .date, ops := DATE_OPS }
  | .updatedAt => { kind := .date, ops := DATE_OPS }
  | .createdBy => { kind := .id, ops := SET_OPS }
  | .text => { kind := .text, ops := [.contains] }
  | .parent => { kind := .id, ops := SET_OPS }
  | .isArchived => { kind := .boolean, ops := [.is] }

inductive PmFilterValue where
  | str (value : String)
  | bool (value : Bool)
  | list (values : List String)

structure PmFilterCondition where
  field : PmFilterField
  op : PmFilterOp
  value : Option PmFilterValue

inductive GroupKind where
  | and
  | or
  deriving DecidableEq

def GroupKind.name : GroupKind → String
  | .and => "and"
  | .or => "or"

inductive PmFilter where
  | group (kind : GroupKind) (kids : List PmFilter)
  | leaf (condition : PmFilterCondition)

def isLeapYear (y : ℕ) : Bool := y % 4 = 0 && (y % 100 ≠ 0 || y % 400 = 0)

def monthLengths (y : ℕ) : List ℕ :=
  [31, if isLeapYear y then 29 else 28, 31, 30, 31, 30, 31, 31, 30, 31, 30, 31]

def isCalendarDate (y mo d : ℕ) : Bool :=
  if y < 1 ∨ mo < 1 ∨ mo > 12 ∨ d < 1 then false else decide (d ≤ (monthLengths y).getD (mo - 1) 0)

def MAX_OFFSET_DAYS : ℕ := 3650
def MAX_OFFSET_WEEKS : ℕ := 520

/-- `/^([+-])(\d{1,4})([dw])$/`: the sign, the number and the unit. -/
def matchRelative (token : String) : Option (Char × ℕ × Char) :=
  match token.toList with
  | sign :: rest =>
    match rest.getLast? with
    | some unit =>
      if (sign = '+' ∨ sign = '-') ∧ (unit = 'd' ∨ unit = 'w') ∧ rest.dropLast.all Char.isDigit ∧
          1 ≤ rest.dropLast.length ∧ rest.dropLast.length ≤ 4 then
        some (sign, Decimal.value rest.dropLast, unit)
      else none
    | none => none
  | [] => none

def relativeDateOffsetDays (token : String) : Option ℤ :=
  if token = "today" then some 0
  else if token = "yesterday" then some (-1)
  else if token = "tomorrow" then some 1
  else
    match matchRelative token with
    | none => none
    | some (sign, n, unit) =>
      if (if unit = 'd' then n > MAX_OFFSET_DAYS else n > MAX_OFFSET_WEEKS) then none
      else
        let days : ℤ := if unit = 'w' then (n : ℤ) * 7 else n
        some (if sign = '-' then -days else days)

def isPmDateToken (token : String) : Bool :=
  match matchYmd token with
  | some (y, mo, d) => isCalendarDate y mo d
  | none => (relativeDateOffsetDays token).isSome

inductive PathStep where
  | key (name : String)
  | index (i : ℕ)

structure Issue where
  error : String
  path : List PathStep

variable {Number : Type}

/-- `/^[A-Za-z0-9_.:-]{1,64}$/`. -/
def isId (text : String) : Bool :=
  text.toList.all (fun c => c.isAlphanum || decide (c ∈ ['_', '.', ':', '-'])) &&
    decide (1 ≤ text.toList.length ∧ text.toList.length ≤ 64)

def hasControlChar (text : String) : Bool :=
  text.toList.any (fun c => decide (c.toNat < 0x20 ∨ c.toNat = 0x7F))

def trimmedText (max : ℕ) (raw : String) (path : List PathStep) : Except Issue PmFilterValue :=
  let v := trim raw
  if utf16Length v = 0 ∨ utf16Length v > max ∨ hasControlChar v then
    .error ⟨"filter_value_invalid", path⟩
  else .ok (.str v)

def scalar (spec : PmFilterFieldSpec) (raw : Json Number) (path : List PathStep) :
    Except Issue PmFilterValue :=
  match spec.kind, raw with
  | .boolean, .bool value => .ok (.bool value)
  | .boolean, _ => .error ⟨"filter_value_invalid", path⟩
  | .id, .str text => if isId text then .ok (.str text) else .error ⟨"filter_value_invalid", path⟩
  | .enum, .str text =>
    if text ∈ spec.options then .ok (.str text) else .error ⟨"filter_value_invalid", path⟩
  | .date, .str text =>
    if isPmDateToken text then .ok (.str text) else .error ⟨"filter_value_invalid", path⟩
  | .ref, .str text => trimmedText REF_MAX text path
  | .text, .str text => trimmedText PM_FILTER_TEXT_MAX text path
  | _, _ => .error ⟨"filter_value_invalid", path⟩

/-- The entries of a list from index `i` on, each as text. -/
def scalars (spec : PmFilterFieldSpec) (path : List PathStep) :
    ℕ → List (Json Number) → Except Issue (List String)
  | _, [] => .ok []
  | i, entry :: rest =>
    match scalar spec entry (path ++ [.index i]) with
    | .error failure => .error failure
    | .ok (.str v) =>
      match scalars spec path (i + 1) rest with
      | .error failure => .error failure
      | .ok others => .ok (v :: others)
    | .ok _ => .error ⟨"filter_value_invalid", path ++ [.index i]⟩

def distinct (values : List String) : List String :=
  values.foldl (fun out v => if v ∈ out then out else out ++ [v]) []

def validateValue (spec : PmFilterFieldSpec) (op : PmFilterOp) (raw : Option (Json Number))
    (path : List PathStep) : Except Issue (Option PmFilterValue) :=
  match op with
  | .isEmpty | .isNotEmpty =>
    match raw with
    | none => .ok none
    | some _ => .error ⟨"filter_value_unexpected", path⟩
  | .isIn | .notIn =>
    match raw with
    | some (.arr items) =>
      if items.length = 0 ∨ items.length > PM_FILTER_MAX_VALUES then
        .error ⟨"filter_value_invalid", path⟩
      else (scalars spec path 0 items).map (fun values => some (.list (distinct values)))
    | _ => .error ⟨"filter_value_invalid", path⟩
  | .between =>
    match raw with
    | some (.arr items) =>
      if items.length ≠ 2 then .error ⟨"filter_value_invalid", path⟩
      else (scalars spec path 0 items).map (fun values => some (.list values))
    | _ => .error ⟨"filter_value_invalid", path⟩
  | .is | .isNot | .before | .after | .contains =>
    match raw with
    | none => .error ⟨"filter_value_missing", path⟩
    | some value => (scalar spec value path).map some

/-- `Object.keys`. -/
def keysOf (members : List (String × Json Number)) : List String := (members.map Prod.fst).dedup

/-- A condition, from the members of its object. -/
def visitLeaf (raw : Json Number) (keys : List String) (path : List PathStep) :
    Except Issue PmFilter :=
  match keys.find? (fun key => decide (key ∉ ["field", "op", "value"])) with
  | some key => .error ⟨"filter_unknown_key", path ++ [.key key]⟩
  | none =>
    match (raw.field "field").bind (fun value =>
        match value with
        | .str name => PM_FILTER_FIELD_NAMES.find? (fun field => field.name == name)
        | _ => none) with
    | none => .error ⟨"filter_unknown_field", path ++ [.key "field"]⟩
    | some field =>
      match (raw.field "op").bind (fun value =>
          match value with
          | .str name => (PM_FILTER_FIELDS field).ops.find? (fun op => op.name == name)
          | _ => none) with
      | none => .error ⟨"filter_op_not_allowed", path ++ [.key "op"]⟩
      | some op =>
        (validateValue (PM_FILTER_FIELDS field) op (raw.field "value")
          (path ++ [.key "value"])).map (fun value => .leaf ⟨field, op, value⟩)

/-- The children of a group from index `i` on, with the count of nodes before them. -/
def visitKids (visit : Json Number → List PathStep → ℕ → Except Issue (PmFilter × ℕ))
    (path : List PathStep) : ℕ → List (Json Number) → ℕ → Except Issue (List PmFilter × ℕ)
  | _, [], nodes => .ok ([], nodes)
  | i, kid :: rest, nodes =>
    match visit kid (path ++ [.index i]) nodes with
    | .error failure => .error failure
    | .ok (child, counted) =>
      match visitKids visit path (i + 1) rest counted with
      | .error failure => .error failure
      | .ok (children, total) => .ok (child :: children, total)

/-- `and` before `or`, as the object is asked for them. -/
def groupKey (members : List (String × Json Number)) : Option GroupKind :=
  if "and" ∈ members.map Prod.fst then some .and
  else if "or" ∈ members.map Prod.fst then some .or
  else none

/-- A node at some depth, after `nodes` others. There is room for groups down to the greatest
depth, so the room ends where the check of the depth fails. -/
def visit : ℕ → ℕ → Json Number → List PathStep → ℕ → Except Issue (PmFilter × ℕ)
  | room, depth, raw, path, nodes =>
    if nodes + 1 > PM_FILTER_MAX_NODES then .error ⟨"filter_too_large", path⟩
    else
      match raw with
      | .obj members =>
        match groupKey members with
        | some kind =>
          if (keysOf members).length ≠ 1 then .error ⟨"filter_group_invalid", path⟩
          else if depth > PM_FILTER_MAX_DEPTH then .error ⟨"filter_too_deep", path⟩
          else
            match raw.field kind.name with
            | some (.arr kids) =>
              if kids.length = 0 ∧ ¬ (kind = .and ∧ depth = 0) then
                .error ⟨"filter_group_empty", path ++ [.key kind.name]⟩
              else
                match room with
                | 0 => .error ⟨"filter_too_deep", path⟩
                | room + 1 =>
                  (visitKids (visit room (depth + 1)) (path ++ [.key kind.name]) 0 kids
                    (nodes + 1)).map (fun result => (.group kind result.1, result.2))
            | _ => .error ⟨"filter_group_invalid", path ++ [.key kind.name]⟩
        | none => (visitLeaf raw (keysOf members) path).map (fun leaf => (leaf, nodes + 1))
      | _ => .error ⟨"filter_node_invalid", path⟩

/-- The clean copy, or what is wrong and where. -/
def validatePmFilter (input : Json Number) : Except Issue PmFilter :=
  (visit (PM_FILTER_MAX_DEPTH + 1) 0 input [] 0).map Prod.fst

def spread (kind : GroupKind) : PmFilter → List PmFilter
  | .group other kids => if other = kind then kids else [.group other kids]
  | .leaf condition => [.leaf condition]

def unwrap (kind : GroupKind) : List PmFilter → PmFilter
  | [one] => one
  | merged => .group kind merged

mutual

def normalizePmFilter : PmFilter → PmFilter
  | .leaf condition => .leaf condition
  | .group kind kids => unwrap kind (normalizeKids kind kids)

def normalizeKids (kind : GroupKind) : List PmFilter → List PmFilter
  | [] => []
  | kid :: rest => spread kind (normalizePmFilter kid) ++ normalizeKids kind rest

end

end Droplet.Pm
