import Droplet.Lib.Fallible
import Droplet.Pm.Filter

/-! What the validator lets through and what normalising keeps: the conditions of a filter,
its size, and how deep its groups go. -/

namespace Droplet.Pm

open ZonedTime JsText Fallible

@[elab_as_elim]
theorem PmFilter.tree_induction {motive : PmFilter → Prop} (leaf : ∀ condition, motive (.leaf condition))
    (group : ∀ kind kids, (∀ kid ∈ kids, motive kid) → motive (.group kind kids))
    (filter : PmFilter) : motive filter :=
  PmFilter.rec (motive_1 := motive) (motive_2 := fun kids => ∀ kid ∈ kids, motive kid)
    group leaf (by simp)
    (fun kid rest one others => by
      intro member inside
      rcases List.mem_cons.mp inside with rfl | later
      · exact one
      · exact others member later)
    filter

mutual

/-- `pmFilterConditions`. -/
def conditions : PmFilter → List PmFilterCondition
  | .leaf condition => [condition]
  | .group _ kids => conditionsOf kids

def conditionsOf : List PmFilter → List PmFilterCondition
  | [] => []
  | kid :: rest => conditions kid ++ conditionsOf rest

end

mutual

/-- Groups and conditions. -/
def size : PmFilter → ℕ
  | .leaf _ => 1
  | .group _ kids => 1 + sizeOfKids kids

def sizeOfKids : List PmFilter → ℕ
  | [] => 0
  | kid :: rest => size kid + sizeOfKids rest

end

mutual

/-- How many nodes are above one another. -/
def levels : PmFilter → ℕ
  | .leaf _ => 1
  | .group _ kids => 1 + levelsOfKids kids

def levelsOfKids : List PmFilter → ℕ
  | [] => 0
  | kid :: rest => max (levels kid) (levelsOfKids rest)

end

mutual

/-- No group is empty. -/
def Full : PmFilter → Prop
  | .leaf _ => True
  | .group _ kids => kids ≠ [] ∧ FullKids kids

def FullKids : List PmFilter → Prop
  | [] => True
  | kid :: rest => Full kid ∧ FullKids rest

end

variable (front back : List PmFilter)

@[simp]
theorem conditionsOf_append : conditionsOf (front ++ back) = conditionsOf front ++ conditionsOf back := by
  induction front with
  | nil => rfl
  | cons kid rest ih => simp only [List.cons_append, conditionsOf, ih, List.append_assoc]

@[simp]
theorem sizeOfKids_append : sizeOfKids (front ++ back) = sizeOfKids front + sizeOfKids back := by
  induction front with
  | nil => simp [sizeOfKids]
  | cons kid rest ih => simp only [List.cons_append, sizeOfKids, ih, Nat.add_assoc]

@[simp]
theorem levelsOfKids_append : levelsOfKids (front ++ back) = max (levelsOfKids front) (levelsOfKids back) := by
  induction front with
  | nil => simp [levelsOfKids]
  | cons kid rest ih => simp only [List.cons_append, levelsOfKids, ih, max_assoc]

variable (kids : List PmFilter)

theorem fullKids_iff : FullKids kids ↔ ∀ kid ∈ kids, Full kid := by
  induction kids with
  | nil => simp [FullKids]
  | cons kid rest ih => simp [FullKids, ih]

theorem mem_conditionsOf (kid : PmFilter) (member : kid ∈ kids) (condition : PmFilterCondition)
    (inside : condition ∈ conditions kid) : condition ∈ conditionsOf kids := by
  induction kids with
  | nil => cases member
  | cons first rest ih =>
    simp only [conditionsOf]
    rcases List.mem_cons.mp member with rfl | later
    · exact List.mem_append_left _ inside
    · exact List.mem_append_right _ (ih later)

variable (filter : PmFilter)

theorem levels_pos : 1 ≤ levels filter := by
  cases filter <;> simp [levels]

theorem levels_le_kids (kid : PmFilter) (member : kid ∈ kids) : levels kid ≤ levelsOfKids kids := by
  induction kids with
  | nil => cases member
  | cons first rest ih =>
    simp only [levelsOfKids]
    rcases List.mem_cons.mp member with rfl | later
    · omega
    · have below := ih later
      omega

def valueJson : PmFilterValue → Json Empty
  | .str value => .str value
  | .bool value => .bool value
  | .list values => .arr (values.map Json.str)

def CleanScalar (spec : PmFilterFieldSpec) (value : PmFilterValue) : Prop :=
  ∀ path, scalar spec (valueJson value) path = .ok value

inductive CleanValue (spec : PmFilterFieldSpec) : PmFilterOp → Option PmFilterValue → Prop
  | absent {op : PmFilterOp} (unary : op = .isEmpty ∨ op = .isNotEmpty) : CleanValue spec op none
  | single {op : PmFilterOp} {value : PmFilterValue}
      (binary : op ∈ [.is, .isNot, .before, .after, .contains]) (scalar : CleanScalar spec value) :
      CleanValue spec op (some value)
  | members {op : PmFilterOp} {values : List String} (set : op = .isIn ∨ op = .notIn)
      (some_values : values ≠ []) (few : values.length ≤ PM_FILTER_MAX_VALUES)
      (once : values.Nodup) (scalars : ∀ value ∈ values, CleanScalar spec (.str value)) :
      CleanValue spec op (some (.list values))
  | bounds {first last : String} (from_token : CleanScalar spec (.str first))
      (to_token : CleanScalar spec (.str last)) :
      CleanValue spec .between (some (.list [first, last]))

structure CleanCondition (condition : PmFilterCondition) : Prop where
  op : condition.op ∈ (PM_FILTER_FIELDS condition.field).ops
  value : CleanValue (PM_FILTER_FIELDS condition.field) condition.op condition.value

variable {Number : Type}

theorem trimmedText_clean (max : ℕ) (raw : String) (path : List PathStep) (value : PmFilterValue)
    (returns : trimmedText max raw path = .ok value) :
    ∃ text, value = .str text ∧ text ≠ "" ∧ ∀ other, trimmedText max text other = .ok value := by
  simp only [trimmedText] at returns
  split at returns
  · cases returns
  · next fits =>
    cases returns
    refine ⟨trim raw, rfl, ?_, ?_⟩
    · intro empty
      rw [empty] at fits
      exact fits (.inl rfl)
    · intro other
      simp only [trimmedText, trim_trim]
      rw [if_neg fits]

variable (spec : PmFilterFieldSpec) (raw : Json Number)

theorem scalar_of_text (path : List PathStep) (value : PmFilterValue)
    (other : spec.kind ≠ .boolean) (returns : scalar spec raw path = .ok value) : ∃ text, raw = .str text := by
  unfold scalar at returns
  split at returns
  · next same => exact absurd same other
  · next same _ => exact absurd same other
  iterate 5 · exact ⟨_, rfl⟩
  · cases returns

theorem scalar_text_clean (nonempty : "" ∉ spec.options) (raw : String) (path : List PathStep)
    (value : PmFilterValue) (other : spec.kind ≠ .boolean)
    (returns : scalar spec (Json.str raw : Json Number) path = .ok value) :
    ∃ text, value = .str text ∧ text ≠ "" ∧ CleanScalar spec (.str text) := by
  cases kind : spec.kind with
  | boolean => exact absurd kind other
  | id | date =>
    simp only [scalar, kind] at returns
    split at returns
    · next shape =>
      obtain rfl := Except.ok.inj returns
      refine ⟨raw, rfl, ?_, fun path => by simp [scalar, valueJson, kind, shape]⟩
      intro empty
      subst empty
      exact absurd shape (by decide)
    · cases returns
  | enum =>
    simp only [scalar, kind] at returns
    split at returns
    · next shape =>
      obtain rfl := Except.ok.inj returns
      refine ⟨raw, rfl, ?_, fun path => by simp [scalar, valueJson, kind, shape]⟩
      intro empty
      exact nonempty (empty ▸ shape)
    · cases returns
  | ref | text =>
    simp only [scalar, kind] at returns
    obtain ⟨clean, rfl, some_text, again⟩ := trimmedText_clean _ _ _ _ returns
    exact ⟨clean, rfl, some_text, fun path => by simp only [scalar, valueJson, kind, again]⟩

/-- What a scalar is read as is text that is not empty, or a boolean for a boolean field. -/
theorem scalar_clean (nonempty : "" ∉ spec.options) (raw : Json Number) (path : List PathStep)
    (value : PmFilterValue) (returns : scalar spec raw path = .ok value) :
    CleanScalar spec value ∧
      ((spec.kind ≠ .boolean ∧ ∃ text, value = .str text ∧ text ≠ "") ∨
        (spec.kind = .boolean ∧ ∃ flag, value = .bool flag)) := by
  by_cases kind : spec.kind = .boolean
  · cases raw with
    | bool flag =>
      simp only [scalar, kind] at returns
      obtain rfl := Except.ok.inj returns
      exact ⟨fun path => by simp [scalar, valueJson, kind], .inr ⟨kind, flag, rfl⟩⟩
    | null | num | str | arr | obj =>
      simp only [scalar, kind] at returns
      cases returns
  · obtain ⟨text, rfl⟩ := scalar_of_text spec raw path value kind returns
    obtain ⟨clean, rfl, some_text, again⟩ := scalar_text_clean spec nonempty text path value kind returns
    exact ⟨again, .inl ⟨kind, clean, rfl, some_text⟩⟩

theorem scalars_clean (nonempty : "" ∉ spec.options) (path : List PathStep) (i : ℕ)
    (items : List (Json Number)) (values : List String) (returns : scalars spec path i items = .ok values) :
    values.length = items.length ∧
      ∀ value ∈ values, CleanScalar spec (.str value) ∧ value ≠ "" ∧ spec.kind ≠ .boolean := by
  induction items generalizing i values with
  | nil =>
    obtain rfl := Except.ok.inj returns
    simp
  | cons entry rest ih =>
    simp only [scalars] at returns
    split at returns
    · cases returns
    · next v first =>
      split at returns
      · cases returns
      · next others later =>
        obtain rfl := Except.ok.inj returns
        obtain ⟨length, clean⟩ := ih (i + 1) others later
        refine ⟨by simp [length], ?_⟩
        intro value member
        rcases List.mem_cons.mp member with rfl | inside
        · obtain ⟨scalar, ⟨kind, text, same, some_text⟩ | ⟨_, flag, same⟩⟩ :=
            scalar_clean spec nonempty entry _ _ first
          · obtain rfl := PmFilterValue.str.inj same
            exact ⟨scalar, some_text, kind⟩
          · cases same
        · exact clean value inside
    · cases returns

theorem scalars_of_clean (path : List PathStep) (i : ℕ) (values : List String)
    (clean : ∀ value ∈ values, CleanScalar spec (.str value)) :
    scalars spec path i (values.map Json.str : List (Json Empty)) = .ok values := by
  induction values generalizing i with
  | nil => rfl
  | cons value rest ih =>
    have first := clean value List.mem_cons_self (path ++ [.index i])
    have later := ih (i + 1) (fun other member => clean other (List.mem_cons_of_mem _ member))
    rw [valueJson] at first
    simp only [List.map_cons, scalars, first, later]

theorem distinct_fold (values out : List String) (once : out.Nodup) :
    (values.foldl (fun out v => if v ∈ out then out else out ++ [v]) out).Nodup ∧
      ∀ value, value ∈ values.foldl (fun out v => if v ∈ out then out else out ++ [v]) out ↔
        value ∈ out ∨ value ∈ values := by
  induction values generalizing out with
  | nil => simp [once]
  | cons v rest ih =>
    rw [List.foldl_cons]
    by_cases seen : v ∈ out
    · rw [if_pos seen]
      obtain ⟨nodup, members⟩ := ih out once
      refine ⟨nodup, ?_⟩
      intro value
      rw [members, List.mem_cons]
      constructor
      · intro inside
        tauto
      · intro inside
        rcases inside with earlier | rfl | later
        · exact .inl earlier
        · exact .inl seen
        · exact .inr later
    · rw [if_neg seen]
      obtain ⟨nodup, members⟩ := ih (out ++ [v]) (by
        rw [List.nodup_append]
        exact ⟨once, List.nodup_singleton v, by
          intro a inside b same
          rw [List.mem_singleton.mp same]
          exact fun equal => seen (equal ▸ inside)⟩)
      refine ⟨nodup, ?_⟩
      intro value
      rw [members, List.mem_append, List.mem_singleton, List.mem_cons]
      tauto

variable (values : List String)

theorem distinct_nodup : (distinct values).Nodup :=
  (distinct_fold values [] List.nodup_nil).1

theorem mem_distinct (value : String) : value ∈ distinct values ↔ value ∈ values := by
  rw [distinct, (distinct_fold values [] List.nodup_nil).2 value]
  simp

theorem distinct_of_nodup (once : values.Nodup) : distinct values = values := by
  have general : ∀ out : List String, (out ++ values).Nodup →
      values.foldl (fun out v => if v ∈ out then out else out ++ [v]) out = out ++ values := by
    induction values with
    | nil => simp
    | cons v rest ih =>
      intro out nodup
      have fresh : v ∉ out := by
        intro inside
        exact (List.nodup_append.mp nodup).2.2 v inside v List.mem_cons_self rfl
      rw [List.foldl_cons, if_neg fresh, ih (List.nodup_cons.mp once).2 (out ++ [v]) (by simpa using nodup)]
      simp
  exact general [] (by simpa using once)

variable (field : PmFilterField)

theorem options_nonempty : "" ∉ (PM_FILTER_FIELDS field).options := by
  cases field <;> decide

theorem CleanScalar.cases {field : PmFilterField} {value : PmFilterValue}
    (clean : CleanScalar (PM_FILTER_FIELDS field) value) :
    ((PM_FILTER_FIELDS field).kind ≠ .boolean ∧ ∃ text, value = .str text ∧ text ≠ "") ∨
      ((PM_FILTER_FIELDS field).kind = .boolean ∧ ∃ flag, value = .bool flag) :=
  (scalar_clean _ (options_nonempty field) (valueJson value) [] value (clean [])).2

theorem CleanScalar.some_text {field : PmFilterField} {text : String}
    (clean : CleanScalar (PM_FILTER_FIELDS field) (.str text)) : text ≠ "" := by
  rcases clean.cases with ⟨_, other, same, nonempty⟩ | ⟨_, flag, same⟩
  · rw [PmFilterValue.str.inj same]
    exact nonempty
  · cases same

variable (op : PmFilterOp)

theorem validateValue_single
    (binary : op ∈ [.is, .isNot, .before, .after, .contains]) (json : Json Number) (path : List PathStep) :
    validateValue spec op (some json) path = (scalar spec json path).map some := by
  simp only [List.mem_cons, List.not_mem_nil, or_false] at binary
  rcases binary with rfl | rfl | rfl | rfl | rfl <;> rfl

theorem validateValue_set (set : op = .isIn ∨ op = .notIn)
    (items : List (Json Number)) (path : List PathStep) (some_items : items ≠ [])
    (few : items.length ≤ PM_FILTER_MAX_VALUES) :
    validateValue spec op (some (.arr items)) path =
      (scalars spec path 0 items).map (fun values => some (.list (distinct values))) := by
  have fits : ¬ (items.length = 0 ∨ items.length > PM_FILTER_MAX_VALUES) := by
    rw [List.length_eq_zero_iff]
    intro over_limit
    rcases over_limit with empty | many
    · exact some_items empty
    · omega
  rcases set with rfl | rfl <;> simp only [validateValue, if_neg fits]

theorem validateValue_set_clean (nonempty : "" ∉ spec.options) (op : PmFilterOp)
    (set : op = .isIn ∨ op = .notIn) (raw : Option (Json Number)) (path : List PathStep)
    (value : Option PmFilterValue) (returns : validateValue spec op raw path = .ok value) :
    CleanValue spec op value := by
  obtain ⟨items, rfl, fits⟩ : ∃ items, raw = some (.arr items) ∧
      ¬ (items.length = 0 ∨ items.length > PM_FILTER_MAX_VALUES) := by
    rcases set with rfl | rfl <;>
    · simp only [validateValue] at returns
      split at returns
      · next items =>
        split at returns
        · cases returns
        · next fits => exact ⟨items, rfl, fits⟩
      · cases returns
  rw [not_or] at fits
  rw [validateValue_set spec op set items path (by simpa using fits.1) (by omega)] at returns
  obtain ⟨values, read, rfl⟩ := map_ok_iff.mp returns
  obtain ⟨length, clean⟩ := scalars_clean spec nonempty path 0 items values read
  have some_value : ∃ value, value ∈ values := by
    rw [← List.length_pos_iff_exists_mem]
    omega
  obtain ⟨first, inside⟩ := some_value
  refine .members set ?_ ?_ (distinct_nodup values) ?_
  · intro empty
    have member := (mem_distinct values first).mpr inside
    rw [empty] at member
    cases member
  · have shorter : (distinct values).length ≤ values.length := by
      apply List.Subperm.length_le
      apply List.subperm_of_subset (distinct_nodup values)
      intro value member
      exact (mem_distinct values value).mp member
    omega
  · intro value member
    exact (clean value ((mem_distinct values value).mp member)).1

theorem validateValue_clean (nonempty : "" ∉ spec.options) (op : PmFilterOp)
    (raw : Option (Json Number)) (path : List PathStep) (value : Option PmFilterValue)
    (returns : validateValue spec op raw path = .ok value) : CleanValue spec op value := by
  have single : ∀ op ∈ [PmFilterOp.is, .isNot, .before, .after, .contains],
      validateValue spec op raw path = .ok value → CleanValue spec op value := by
    intro op binary returns
    cases raw with
    | none =>
      simp only [List.mem_cons, List.not_mem_nil, or_false] at binary
      rcases binary with rfl | rfl | rfl | rfl | rfl <;> cases returns
    | some json =>
      rw [validateValue_single spec op binary json path] at returns
      obtain ⟨found, read, rfl⟩ := map_ok_iff.mp returns
      exact .single binary (scalar_clean spec nonempty json path found read).1
  cases op with
  | is | isNot | before | after | contains => exact single _ (by simp) returns
  | isIn => exact validateValue_set_clean spec nonempty _ (.inl rfl) raw path value returns
  | notIn => exact validateValue_set_clean spec nonempty _ (.inr rfl) raw path value returns
  | isEmpty | isNotEmpty =>
    cases raw with
    | none =>
      obtain rfl := Except.ok.inj returns
      exact .absent (by simp)
    | some json => cases returns
  | between =>
    simp only [validateValue] at returns
    split at returns
    · next items =>
      split at returns
      · cases returns
      · next two =>
        obtain ⟨values, read, rfl⟩ := map_ok_iff.mp returns
        obtain ⟨length, clean⟩ := scalars_clean spec nonempty path 0 items values read
        obtain ⟨first, last, rfl⟩ := List.length_eq_two.mp (length.trans (not_not.mp two))
        exact .bounds (clean first (by simp)).1 (clean last (by simp)).1
    · cases returns

theorem validateValue_of_clean (value : Option PmFilterValue)
    (path : List PathStep) (clean : CleanValue spec op value) :
    validateValue spec op (value.map valueJson) path = .ok value := by
  cases clean with
  | absent unary => rcases unary with rfl | rfl <;> rfl
  | single binary clean =>
    rw [Option.map_some, validateValue_single spec op binary _ path, clean path]
    rfl
  | @members _ values set some_values few once clean =>
    rw [Option.map_some, valueJson, validateValue_set spec op set _ path (by simpa) (by simpa),
      scalars_of_clean spec path 0 values clean]
    simp only [Except.map, distinct_of_nodup values once]
  | @bounds first last from_token to_token =>
    have read := scalars_of_clean spec path 0 [first, last] (by simp [from_token, to_token])
    simp only [List.map_cons, List.map_nil] at read
    simp [validateValue, valueJson, read, Except.map]

/-- The tree as a value: what is read for it. -/
def conditionJson (condition : PmFilterCondition) : Json Empty :=
  match condition.value with
  | none => .obj [("field", .str condition.field.name), ("op", .str condition.op.name)]
  | some value => .obj [("field", .str condition.field.name), ("op", .str condition.op.name),
      ("value", valueJson value)]

mutual

def toJson : PmFilter → Json Empty
  | .leaf condition => conditionJson condition
  | .group kind kids => .obj [(kind.name, .arr (toJsons kids))]

def toJsons : List PmFilter → List (Json Empty)
  | [] => []
  | kid :: rest => toJson kid :: toJsons rest

end

theorem toJsons_length : (toJsons kids).length = kids.length := by
  induction kids with
  | nil => rfl
  | cons kid rest ih => simp [toJsons, ih]

theorem find_field : PM_FILTER_FIELD_NAMES.find? (fun known => known.name == field.name) = some field := by
  cases field <;> decide

theorem find_op (legal : op ∈ (PM_FILTER_FIELDS field).ops) :
    (PM_FILTER_FIELDS field).ops.find? (fun known => known.name == op.name) = some op := by
  revert legal
  cases field <;> cases op <;> decide

theorem visitLeaf_clean (keys : List String) (path : List PathStep)
    (filter : PmFilter) (returns : visitLeaf raw keys path = .ok filter) :
    ∃ condition, filter = .leaf condition ∧ CleanCondition condition := by
  unfold visitLeaf at returns
  split at returns
  · cases returns
  · split at returns
    · cases returns
    · next field _ =>
      split at returns
      · cases returns
      · next op found =>
        obtain ⟨value, read, rfl⟩ := map_ok_iff.mp returns
        obtain ⟨json, _, inside⟩ := Option.bind_eq_some_iff.mp found
        have legal : op ∈ (PM_FILTER_FIELDS field).ops := by
          split at inside
          · exact List.mem_of_find?_eq_some inside
          · cases inside
        exact ⟨_, rfl, legal, validateValue_clean _ (options_nonempty field) op _ _ value read⟩

theorem visitLeaf_of_clean (condition : PmFilterCondition) (path : List PathStep)
    (clean : CleanCondition condition) :
    ∃ members, conditionJson condition = .obj members ∧ groupKey members = none ∧
      visitLeaf (.obj members) (keysOf members) path = .ok (.leaf condition) := by
  obtain ⟨field, op, value⟩ := condition
  have validated := validateValue_of_clean (PM_FILTER_FIELDS field) op value
    (path ++ [.key "value"]) clean.value
  cases value with
  | none =>
    refine ⟨_, rfl, by simp [groupKey], ?_⟩
    have keys : (keysOf [("field", (Json.str field.name : Json Empty)), ("op", .str op.name)]).find?
        (fun key => decide (key ∉ ["field", "op", "value"])) = none := by
      simp only [keysOf, List.map_cons, List.map_nil]
      decide
    simp only [visitLeaf, keys]
    simp only [Json.field, List.reverse_cons, List.reverse_nil, List.nil_append,
      List.cons_append, List.find?_cons]
    simp only [show ("op" == "field") = false by decide, show ("field" == "field") = true by decide,
      show ("op" == "op") = true by decide, show ("op" == "value") = false by decide,
      show ("field" == "value") = false by decide, List.find?_nil, Option.map_some, Option.map_none,
      Option.bind_some, find_field, find_op field op clean.op]
    rw [Option.map_none] at validated
    rw [validated]
    rfl
  | some value =>
    refine ⟨_, rfl, by simp [groupKey], ?_⟩
    have keys : (keysOf [("field", (Json.str field.name : Json Empty)), ("op", .str op.name),
        ("value", valueJson value)]).find?
        (fun key => decide (key ∉ ["field", "op", "value"])) = none := by
      simp only [keysOf, List.map_cons, List.map_nil]
      decide
    simp only [visitLeaf, keys]
    simp only [Json.field, List.reverse_cons, List.reverse_nil, List.nil_append,
      List.cons_append, List.find?_cons]
    simp only [show ("value" == "field") = false by decide,
      show ("op" == "field") = false by decide, show ("field" == "field") = true by decide,
      show ("value" == "op") = false by decide, show ("op" == "op") = true by decide,
      show ("value" == "value") = true by decide, Option.map_some,
      Option.bind_some, find_field, find_op field op clean.op]
    rw [Option.map_some] at validated
    rw [validated]
    rfl

/-- What a visit finds: its size, how deep it goes, and that it is clean. -/
structure Visited (depth nodes : ℕ) (filter : PmFilter) (total : ℕ) : Prop where
  counted : total = nodes + size filter
  few : total ≤ PM_FILTER_MAX_NODES
  shallow : depth + levels filter ≤ PM_FILTER_MAX_DEPTH + 2
  conditions : ∀ condition ∈ conditions filter, CleanCondition condition
  full : Full filter ∨ (filter = .group .and [] ∧ depth = 0)

theorem visitKids_visited (visit : Json Number → List PathStep → ℕ → Except Issue (PmFilter × ℕ))
    (depth : ℕ) (positive : 0 < depth)
    (visited : ∀ raw path nodes filter total, visit raw path nodes = .ok (filter, total) →
      Visited depth nodes filter total)
    (path : List PathStep) (i : ℕ) (kids : List (Json Number)) (nodes total : ℕ)
    (children : List PmFilter) (few : nodes ≤ PM_FILTER_MAX_NODES)
    (returns : visitKids visit path i kids nodes = .ok (children, total)) :
    children.length = kids.length ∧ total = nodes + sizeOfKids children ∧
      total ≤ PM_FILTER_MAX_NODES ∧
      (children ≠ [] → depth + levelsOfKids children ≤ PM_FILTER_MAX_DEPTH + 2) ∧
      (∀ condition ∈ conditionsOf children, CleanCondition condition) ∧ FullKids children := by
  induction kids generalizing i nodes children total with
  | nil =>
    obtain ⟨rfl, rfl⟩ := Prod.mk.inj (Except.ok.inj returns)
    simp [sizeOfKids, conditionsOf, FullKids, few]
  | cons kid rest ih =>
    simp only [visitKids] at returns
    split at returns
    · cases returns
    · next child counted first =>
      split at returns
      · cases returns
      · next others all later =>
        obtain ⟨rfl, rfl⟩ := Prod.mk.inj (Except.ok.inj returns)
        have here := visited _ _ _ _ _ first
        obtain ⟨length, size, fewer, shallow, clean, full⟩ := ih _ _ _ _ here.few later
        have childCounted := here.counted
        have childShallow := here.shallow
        refine ⟨by simp [length], ?_, fewer, ?_, ?_, ?_⟩
        · simp only [sizeOfKids]
          omega
        · intro _
          simp only [levelsOfKids]
          by_cases last : others = []
          · subst last
            simp only [levelsOfKids]
            omega
          · have below := shallow last
            omega
        · intro condition member
          rcases List.mem_append.mp member with inside | outside
          · exact here.conditions condition inside
          · exact clean condition outside
        · refine ⟨?_, full⟩
          rcases here.full with ok | ⟨_, root⟩
          · exact ok
          · omega

theorem visit_cases (room depth : ℕ) (raw : Json Number) (path : List PathStep) (nodes : ℕ)
    (filter : PmFilter) (total : ℕ) (returns : visit room depth raw path nodes = .ok (filter, total)) :
    nodes + 1 ≤ PM_FILTER_MAX_NODES ∧
      ((∃ keys, visitLeaf raw keys path = .ok filter ∧ total = nodes + 1) ∨
        ∃ (kind : GroupKind) (kids : List (Json Number)) (lower : ℕ) (children : List PmFilter),
          room = lower + 1 ∧ depth ≤ PM_FILTER_MAX_DEPTH ∧
          ¬ (kids.length = 0 ∧ ¬ (kind = .and ∧ depth = 0)) ∧
          visitKids (visit lower (depth + 1)) (path ++ [.key kind.name]) 0 kids (nodes + 1) =
            .ok (children, total) ∧
          filter = .group kind children) := by
  unfold visit at returns
  split at returns
  · cases returns
  · next few =>
    refine ⟨by omega, ?_⟩
    split at returns
    · next members =>
      split at returns
      · next kind found =>
        split at returns
        · cases returns
        · split at returns
          · cases returns
          · next near =>
            split at returns
            · next kids _ =>
              split at returns
              · cases returns
              · next some_kids =>
                cases room with
                | zero => cases returns
                | succ lower =>
                  obtain ⟨result, children, same⟩ := map_ok_iff.mp returns
                  obtain ⟨rfl, rfl⟩ := Prod.mk.inj same
                  exact .inr ⟨kind, kids, lower, result.1, rfl, by omega, some_kids,
                    children, rfl⟩
            · cases returns
      · obtain ⟨leaf, read, same⟩ := map_ok_iff.mp returns
        obtain ⟨rfl, rfl⟩ := Prod.mk.inj same
        exact .inl ⟨_, read, rfl⟩
    · cases returns

theorem visit_visited (room depth : ℕ) (raw : Json Number) (path : List PathStep) (nodes : ℕ)
    (filter : PmFilter) (total : ℕ) (near : depth ≤ PM_FILTER_MAX_DEPTH + 1)
    (returns : visit room depth raw path nodes = .ok (filter, total)) : Visited depth nodes filter total := by
  induction room generalizing depth raw path nodes filter total with
  | zero =>
    obtain ⟨few, ⟨keys, read, rfl⟩ | ⟨_, _, _, _, room, _⟩⟩ := visit_cases _ _ _ _ _ _ _ returns
    · obtain ⟨condition, rfl, clean⟩ := visitLeaf_clean raw keys path filter read
      exact ⟨rfl, few, by simp only [levels]; omega, by simpa [conditions] using clean, .inl trivial⟩
    · cases room
  | succ room ih =>
    obtain ⟨few, ⟨keys, read, rfl⟩ | ⟨kind, kids, lower, children, same, shallow, some_kids, visited,
      rfl⟩⟩ := visit_cases _ _ _ _ _ _ _ returns
    · obtain ⟨condition, rfl, clean⟩ := visitLeaf_clean raw keys path filter read
      exact ⟨rfl, few, by simp only [levels]; omega, by simpa [conditions] using clean, .inl trivial⟩
    · cases same
      obtain ⟨length, counted, fewer, below, clean, full⟩ := visitKids_visited _ (depth + 1)
        (by omega) (fun raw path nodes filter total => ih (depth + 1) raw path nodes filter total
          (by omega)) _ 0 kids (nodes + 1) total children few visited
      refine ⟨?_, fewer, ?_, clean, ?_⟩
      · simp only [size]
        omega
      · simp only [levels]
        by_cases empty : children = []
        · subst empty
          simp only [levelsOfKids]
          omega
        · have kidsBelow := below empty
          omega
      · by_cases empty : children = []
        · subst empty
          have root : kind = .and ∧ depth = 0 := by
            by_contra other
            exact some_kids ⟨length.symm, other⟩
          exact .inr ⟨by rw [root.1], root.2⟩
        · exact .inl ⟨empty, full⟩

theorem validatePmFilter_visited (input : Json Number) (filter : PmFilter)
    (accepted : validatePmFilter input = .ok filter) : ∃ total, Visited 0 0 filter total := by
  obtain ⟨result, visited, rfl⟩ := map_ok_iff.mp accepted
  exact ⟨result.2, visit_visited _ 0 input [] 0 result.1 result.2 (by decide) visited⟩

theorem visitKids_of_clean (visit : Json Empty → List PathStep → ℕ → Except Issue (PmFilter × ℕ))
    (children : List PmFilter) (path : List PathStep) (i nodes : ℕ)
    (visited : ∀ kid ∈ children, ∀ path nodes, nodes + size kid ≤ PM_FILTER_MAX_NODES →
      visit (toJson kid) path nodes = .ok (kid, nodes + size kid))
    (few : nodes + sizeOfKids children ≤ PM_FILTER_MAX_NODES) :
    visitKids visit path i (toJsons children) nodes =
      .ok (children, nodes + sizeOfKids children) := by
  induction children generalizing i nodes with
  | nil => rfl
  | cons kid rest ih =>
    simp only [sizeOfKids] at few
    have first := visited kid List.mem_cons_self (path ++ [.index i]) nodes (by omega)
    have later := ih (i + 1) (nodes + size kid)
      (fun other member => visited other (List.mem_cons_of_mem _ member)) (by omega)
    simp only [toJsons, visitKids, first, later, sizeOfKids, Nat.add_assoc]

variable (kind : GroupKind)

theorem groupKey_toJson (json : Json Empty) : groupKey [(kind.name, json)] = some kind := by
  cases kind <;> simp [groupKey, GroupKind.name]

theorem visit_of_clean (depth : ℕ) (path : List PathStep) (nodes : ℕ)
    (clean : ∀ condition ∈ conditions filter, CleanCondition condition)
    (full : Full filter ∨ (filter = .group .and [] ∧ depth = 0))
    (shallow : depth + levels filter ≤ PM_FILTER_MAX_DEPTH + 2) (few : nodes + size filter ≤ PM_FILTER_MAX_NODES) :
    visit (PM_FILTER_MAX_DEPTH + 1 - depth) depth (toJson filter) path nodes =
      .ok (filter, nodes + size filter) := by
  induction filter using PmFilter.tree_induction generalizing depth path nodes with
  | leaf condition =>
    obtain ⟨members, same, other, read⟩ := visitLeaf_of_clean condition path
      (clean condition (by simp [conditions]))
    have room : ¬ nodes + 1 > PM_FILTER_MAX_NODES := by
      simp only [size] at few
      omega
    rw [toJson, same, visit]
    simp only [if_neg room, other, read, Except.map, size]
  | group kind kids ih =>
    simp only [levels] at shallow
    simp only [size] at few
    have room : ¬ nodes + 1 > PM_FILTER_MAX_NODES := by omega
    have near : ¬ depth > PM_FILTER_MAX_DEPTH := by
      rcases full with ⟨some_kids, _⟩ | ⟨_, root⟩
      · obtain ⟨kid, member⟩ := List.exists_mem_of_ne_nil kids some_kids
        have below := levels_le_kids kids kid member
        have pos := levels_pos kid
        omega
      · omega
    have some_kids : ¬ ((toJsons kids).length = 0 ∧ ¬ (kind = .and ∧ depth = 0)) := by
      rw [toJsons_length, List.length_eq_zero_iff]
      intro lone
      obtain ⟨rfl, other⟩ := lone
      rcases full with filled | ⟨same, root⟩
      · exact filled.1 rfl
      · exact other ⟨(PmFilter.group.inj same).1, root⟩
    have fullKids : ∀ kid ∈ kids, Full kid := by
      rcases full with filled | ⟨same, _⟩
      · exact (fullKids_iff kids).mp filled.2
      · rw [(PmFilter.group.inj same).2]
        simp
    have visited := visitKids_of_clean (visit (PM_FILTER_MAX_DEPTH + 1 - (depth + 1)) (depth + 1)) kids
      (path ++ [.key kind.name]) 0 (nodes + 1) (by
        intro kid member path nodes few
        have below := levels_le_kids kids kid member
        exact ih kid member (depth + 1) path nodes
          (fun condition inside => clean condition (mem_conditionsOf kids kid member condition inside))
          (.inl (fullKids kid member)) (by omega) few) (by omega)
    have lower : PM_FILTER_MAX_DEPTH + 1 - depth = PM_FILTER_MAX_DEPTH + 1 - (depth + 1) + 1 := by
      omega
    have kidsField : (Json.obj [(kind.name, .arr (toJsons kids))] : Json Empty).field kind.name =
        some (.arr (toJsons kids)) := by
      simp [Json.field]
    have one : ¬ (keysOf [(kind.name, (Json.arr (toJsons kids) : Json Empty))]).length ≠ 1 := by
      simp [keysOf]
    rw [toJson, lower, visit]
    simp only [if_neg room, groupKey_toJson, if_neg one, if_neg near, kidsField,
      if_neg some_kids, visited, Except.map, size, Nat.add_assoc]

theorem validatePmFilter_of_clean (clean : ∀ condition ∈ conditions filter, CleanCondition condition)
    (full : Full filter ∨ filter = .group .and [])
    (shallow : levels filter ≤ PM_FILTER_MAX_DEPTH + 2) (few : size filter ≤ PM_FILTER_MAX_NODES) :
    validatePmFilter (toJson filter) = .ok filter := by
  have visited := visit_of_clean filter 0 [] 0 clean
    (full.imp id (fun same => ⟨same, rfl⟩)) (by omega) (by omega)
  simp only [Nat.sub_zero] at visited
  rw [validatePmFilter, visited]
  rfl

theorem spread_conditions (filter : PmFilter) : conditionsOf (spread kind filter) = conditions filter := by
  cases filter with
  | leaf condition => simp [spread, conditions, conditionsOf]
  | group other kids =>
    simp only [spread]
    split <;> simp [conditions, conditionsOf]

variable (merged : List PmFilter)

theorem unwrap_conditions : conditions (unwrap kind merged) = conditionsOf merged := by
  unfold unwrap
  split <;> simp [conditions, conditionsOf]

theorem normalize_conditions : conditions (normalizePmFilter filter) = conditions filter := by
  induction filter using PmFilter.tree_induction with
  | leaf condition => rfl
  | group kind kids ih =>
    rw [normalizePmFilter, unwrap_conditions, conditions]
    induction kids with
    | nil => rfl
    | cons kid rest ihRest =>
      rw [normalizeKids, conditionsOf_append, spread_conditions, conditionsOf, ih kid List.mem_cons_self,
        ihRest (fun other member => ih other (List.mem_cons_of_mem _ member))]

theorem spread_bounds (filter : PmFilter) :
    sizeOfKids (spread kind filter) ≤ size filter ∧
      levelsOfKids (spread kind filter) ≤ levels filter := by
  cases filter with
  | leaf condition => simp [spread, size, sizeOfKids, levels, levelsOfKids]
  | group other kids =>
    simp only [spread]
    split <;> simp [size, sizeOfKids, levels, levelsOfKids]

theorem unwrap_bounds :
    size (unwrap kind merged) ≤ 1 + sizeOfKids merged ∧
      levels (unwrap kind merged) ≤ 1 + levelsOfKids merged := by
  unfold unwrap
  split <;> simp [size, sizeOfKids, levels, levelsOfKids]

theorem normalize_bounds :
    size (normalizePmFilter filter) ≤ size filter ∧
      levels (normalizePmFilter filter) ≤ levels filter := by
  induction filter using PmFilter.tree_induction with
  | leaf condition => exact ⟨le_rfl, le_rfl⟩
  | group kind kids ih =>
    have kidsBounds : sizeOfKids (normalizeKids kind kids) ≤ sizeOfKids kids ∧
        levelsOfKids (normalizeKids kind kids) ≤ levelsOfKids kids := by
      induction kids with
      | nil => exact ⟨le_rfl, le_rfl⟩
      | cons kid rest ihRest =>
        have first := ih kid List.mem_cons_self
        have later := ihRest (fun other member => ih other (List.mem_cons_of_mem _ member))
        have piece := spread_bounds kind (normalizePmFilter kid)
        rw [normalizeKids, sizeOfKids_append, levelsOfKids_append]
        simp only [sizeOfKids, levelsOfKids]
        omega
    have whole := unwrap_bounds kind (normalizeKids kind kids)
    rw [normalizePmFilter]
    simp only [size, levels]
    omega

mutual

/-- Every group has two children at least. -/
def Wide : PmFilter → Prop
  | .leaf _ => True
  | .group _ kids => 2 ≤ kids.length ∧ WideKids kids

def WideKids : List PmFilter → Prop
  | [] => True
  | kid :: rest => Wide kid ∧ WideKids rest

end

theorem wideKids_iff : WideKids kids ↔ ∀ kid ∈ kids, Wide kid := by
  induction kids with
  | nil => simp [WideKids]
  | cons kid rest ih => simp [WideKids, ih]

theorem Wide.full {filter : PmFilter} (wide : Wide filter) : Full filter := by
  induction filter using PmFilter.tree_induction with
  | leaf condition => trivial
  | group kind kids ih =>
    obtain ⟨two, each⟩ := wide
    rw [wideKids_iff] at each
    refine ⟨?_, (fullKids_iff kids).mpr (fun kid member => ih kid member (each kid member))⟩
    intro empty
    simp [empty] at two

theorem spread_wide (filter : PmFilter) (wide : Wide filter) :
    WideKids (spread kind filter) ∧ spread kind filter ≠ [] := by
  cases filter with
  | leaf condition => simp [spread, WideKids, Wide]
  | group other kids =>
    simp only [spread]
    split
    · refine ⟨wide.2, ?_⟩
      intro empty
      have two := wide.1
      simp [empty] at two
    · exact ⟨⟨wide, trivial⟩, by simp⟩

theorem unwrap_wide (some_kids : merged ≠ []) (wide : WideKids merged) : Wide (unwrap kind merged) := by
  unfold unwrap
  split
  · exact wide.1
  · next several =>
    refine ⟨?_, wide⟩
    rcases merged with _ | ⟨first, _ | ⟨second, rest⟩⟩
    · exact absurd rfl some_kids
    · exact absurd rfl (several first)
    · simp

theorem normalize_wide (full : Full filter) : Wide (normalizePmFilter filter) := by
  induction filter using PmFilter.tree_induction with
  | leaf condition => trivial
  | group kind kids ih =>
    have kidsWide : ∀ kids : List PmFilter, (∀ kid ∈ kids, Wide (normalizePmFilter kid)) →
        WideKids (normalizeKids kind kids) ∧ (kids ≠ [] → normalizeKids kind kids ≠ []) := by
      intro kids each
      induction kids with
      | nil => exact ⟨trivial, by simp⟩
      | cons kid rest ihRest =>
        obtain ⟨later, _⟩ := ihRest (fun other member => each other (List.mem_cons_of_mem _ member))
        obtain ⟨piece, some_piece⟩ := spread_wide kind _ (each kid List.mem_cons_self)
        rw [normalizeKids]
        refine ⟨?_, by simp [some_piece]⟩
        rw [wideKids_iff] at piece later ⊢
        intro kid member
        rcases List.mem_append.mp member with inside | outside
        · exact piece kid inside
        · exact later kid outside
    obtain ⟨some_kids, each⟩ := full
    rw [fullKids_iff] at each
    obtain ⟨mergedWide, merged⟩ := kidsWide kids (fun kid member => ih kid member (each kid member))
    rw [normalizePmFilter]
    exact unwrap_wide kind _ (merged some_kids) mergedWide

structure Normal (filter : PmFilter) : Prop where
  conditions : ∀ condition ∈ conditions filter, CleanCondition condition
  wide : Wide filter ∨ filter = .group .and []
  few : size filter ≤ PM_FILTER_MAX_NODES
  shallow : levels filter ≤ PM_FILTER_MAX_DEPTH + 2

theorem accepted_normal (input : Json Number) (filter : PmFilter)
    (accepted : validatePmFilter input = .ok filter) : Normal (normalizePmFilter filter) := by
  obtain ⟨total, visited⟩ := validatePmFilter_visited input filter accepted
  have bounds := normalize_bounds filter
  have counted := visited.counted
  have few := visited.few
  have shallow := visited.shallow
  refine ⟨?_, ?_, by omega, by omega⟩
  · rw [normalize_conditions]
    exact visited.conditions
  · rcases visited.full with full | ⟨rfl, _⟩
    · exact .inl (normalize_wide filter full)
    · exact .inr rfl

theorem Normal.validate {filter : PmFilter} (normal : Normal filter) :
    validatePmFilter (toJson filter) = .ok filter :=
  validatePmFilter_of_clean filter normal.conditions (normal.wide.imp Wide.full id) normal.shallow
    normal.few

end Droplet.Pm
