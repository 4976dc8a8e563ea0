import Droplet.Pm.Meaning

/-! The `where` of a filter is true of exactly the rows the filter holds of. -/

namespace Droplet.Pm

open Sql ZonedTime Gregorian Fallible

def Compiles (folding : Folding) (result : Compiled Where) (holds : PmWorkItem → Prop) : Prop :=
  ∃ compiled, result = .ok compiled ∧ ∀ row, compiled.eval folding row = some true ↔ holds row

def texts : Option PmFilterValue → List String
  | some (.str v) => [v]
  | some (.list values) => values
  | _ => []

def SetField (field : PmFilterField) : Prop :=
  (PM_FILTER_FIELDS field).ops = SET_OPS ∨ (PM_FILTER_FIELDS field).ops = REQUIRED_SET_OPS

instance (field : PmFilterField) : Decidable (SetField field) :=
  inferInstanceAs (Decidable (_ ∨ _))

theorem SetField.text {field : PmFilterField} (set : SetField field) :
    (PM_FILTER_FIELDS field).kind ≠ .boolean := by
  revert set
  cases field <;> decide

theorem SetField.op {field : PmFilterField} (set : SetField field) {op : PmFilterOp}
    (legal : op ∈ (PM_FILTER_FIELDS field).ops) : op ∈ SET_OPS := by
  rcases set with same | same <;> rw [same] at legal
  · exact legal
  · revert legal
    cases op <;> decide

/-- A set operation, by what a value has to do with a row and when the row has none. -/
def SetMeaning (member : String → Prop) (lacks : Prop) : SetKind → List String → Prop
  | .isIn, values => ∃ v ∈ values, member v
  | .notIn, values => ¬ ∃ v ∈ values, member v
  | .empty, _ => lacks
  | .notEmpty, _ => ¬ lacks

/-- What `setOp` makes of a condition. -/
structure SetOp (ctx : PmFilterContext) (c : PmFilterCondition) (kind : SetKind)
    (values : List String) : Prop where
  returns : setOp c = .ok (kind, values)
  texts : values = texts c.value
  some_values : kind = .isIn ∨ kind = .notIn → values ≠ []
  listed : c.op ∈ REQUIRED_SET_OPS → kind = .isIn ∨ kind = .notIn
  holds : ∀ row, SetHolds ctx c row ↔
    SetMeaning (Matches ctx row c.field) (Lacks row c.field) kind values

theorem setOp_spec (ctx : PmFilterContext) (c : PmFilterCondition) (clean : CleanCondition c)
    (set : SetField c.field) : ∃ kind values, SetOp ctx c kind values := by
  obtain ⟨legal, value⟩ := clean
  have op := set.op legal
  obtain ⟨field, op', value'⟩ := c
  cases value with
  | absent unary =>
    rcases unary with same | same
    · simp only at same
      subst same
      exact ⟨.empty, [], rfl, rfl, by simp, by simp [REQUIRED_SET_OPS], by simp [SetHolds, SetMeaning]⟩
    · simp only at same
      subst same
      exact ⟨.notEmpty, [], rfl, rfl, by simp, by simp [REQUIRED_SET_OPS], by simp [SetHolds, SetMeaning]⟩
  | single binary scalar =>
    rcases scalar.cases with ⟨_, text, rfl, _⟩ | ⟨kind, _⟩
    · simp only [SET_OPS, List.mem_cons, List.not_mem_nil, or_false] at op binary
      rcases op with rfl | rfl | rfl | rfl | rfl | rfl
      · exact ⟨.isIn, [text], rfl, rfl, by simp, by simp, by simp [SetHolds, SetMeaning, valueText]⟩
      · exact ⟨.notIn, [text], rfl, rfl, by simp, by simp, by simp [SetHolds, SetMeaning, valueText]⟩
      all_goals simp at binary
    · exact absurd kind set.text
  | members member some_values few once scalars =>
    rcases member with same | same
    · simp only at same
      subst same
      exact ⟨.isIn, _, rfl, rfl, fun _ => some_values, by simp, fun row => Iff.rfl⟩
    · simp only at same
      subst same
      exact ⟨.notIn, _, rfl, rfl, fun _ => some_values, by simp, fun row => Iff.rfl⟩
  | bounds from_token to_token => simp [SET_OPS] at op

variable (folding : Folding) (ctx : PmFilterContext) (c : PmFilterCondition)

variable (row : PmWorkItem) (arms : List Where)

theorem all_evals :
    Sql.all (Where.evals folding row arms) = some true ↔
      ∀ arm ∈ arms, arm.eval folding row = some true := by
  induction arms with
  | nil => simp [Where.evals]
  | cons arm arms ih => rw [Where.evals, all_cons_true, ih, List.forall_mem_cons]

theorem any_evals :
    Sql.any (Where.evals folding row arms) = some true ↔
      ∃ arm ∈ arms, arm.eval folding row = some true := by
  induction arms with
  | nil => simp [Where.evals]
  | cons arm arms ih => rw [Where.evals, any_cons_true, ih, List.exists_mem_cons_iff]

theorem combine_and :
    (combine arms .and).eval folding row = some true ↔
      ∀ arm ∈ arms, arm.eval folding row = some true := by
  unfold combine
  split
  · simp
  · rw [Where.eval, all_evals]

theorem combine_or :
    (combine arms .or).eval folding row = some true ↔
      ∃ arm ∈ arms, arm.eval folding row = some true := by
  unfold combine
  split
  · simp
  · rw [Where.eval, any_evals]

theorem two_arms_or (first second : Where) (p q : Prop) [Decidable p] [Decidable q] :
    (combine ((if p then [first] else []) ++ (if q then [second] else [])) .or).eval folding row =
        some true ↔
      (p ∧ first.eval folding row = some true) ∨ (q ∧ second.eval folding row = some true) := by
  rw [combine_or]
  by_cases one : p <;> by_cases two : q <;> simp [one, two]

theorem two_arms_and (first second : Where) (p q : Prop) [Decidable p] [Decidable q] :
    (combine ((if p then [first] else []) ++ (if q then [second] else [])) .and).eval folding row =
        some true ↔
      (p → first.eval folding row = some true) ∧ (q → second.eval folding row = some true) := by
  rw [combine_and]
  by_cases one : p <;> by_cases two : q <;> simp [one, two]

theorem nullableScalar_means (col : IdColumn) (map : String → Compiled String) (kind : SetKind)
    (raw : List String) (set : SetOp ctx c kind raw) (mapped : String → String)
    (returns : raw.mapM map = .ok (raw.map mapped))
    (each : ∀ row, ∀ v ∈ raw, Matches ctx row c.field v ↔ row.id col = some (mapped v))
    (lacks : ∀ row, row.id col = none ↔ Lacks row c.field) :
    Compiles folding (nullableScalar col c map) (SetHolds ctx c) := by
  have members : ∀ row, (∃ v ∈ raw.map mapped, row.id col = some v) ↔
      ∃ v ∈ raw, Matches ctx row c.field v := by
    intro row
    simp only [List.mem_map, exists_exists_and_eq_and]
    exact exists_congr (fun v => and_congr_right (fun member => (each row v member).symm))
  simp only [nullableScalar, set.returns, ok_bind, returns]
  cases kind with
  | isIn =>
    refine ⟨_, rfl, ?_⟩
    intro row
    rw [set.holds, SetMeaning, ← members]
    simp only [Where.eval, IdTest.eval, isIn_true]
  | notIn =>
    refine ⟨_, rfl, ?_⟩
    intro row
    rw [set.holds, SetMeaning, ← members, ← null_or_notIn _ (by simpa using set.some_values (.inr rfl))]
    rfl
  | empty | notEmpty =>
    refine ⟨_, rfl, ?_⟩
    intro row
    rw [set.holds, SetMeaning, ← lacks]
    simp [Where.eval, IdTest.eval]

theorem requiredScalar_means (col : IdColumn) (kind : SetKind) (values : List String)
    (set : SetOp ctx c kind values) (listed : c.op ∈ REQUIRED_SET_OPS)
    (each : ∀ row, ∃ own, row.id col = some own ∧ ∀ v, Matches ctx row c.field v ↔ own = v) :
    Compiles folding (requiredScalar col c) (SetHolds ctx c) := by
  simp only [requiredScalar, set.returns, ok_bind]
  refine ⟨_, rfl, ?_⟩
  intro row
  obtain ⟨own, same, matches_own⟩ := each row
  rw [set.holds]
  rcases set.listed listed with rfl | rfl
  · simp only [SetMeaning, matches_own, if_true, Where.eval, IdTest.eval, same, isIn_true, Option.some.injEq]
  · rw [if_neg (by decide)]
    simp [SetMeaning, matches_own, Where.eval, IdTest.eval, same,
      notIn_true values (set.some_values (.inr rfl))]

variable (kind : SetKind) (values : List String)

theorem stateGroup_means (set : SetOp ctx c kind values)
    (field : c.field = .stateGroup) (listed : c.op ∈ REQUIRED_SET_OPS) :
    Compiles folding (stateGroup c) (SetHolds ctx c) := by
  simp only [stateGroup, set.returns, ok_bind]
  refine ⟨_, rfl, ?_⟩
  intro row
  rw [set.holds, field]
  rcases set.listed listed with rfl | rfl
  · cases state : row.state with
    | none => simp [SetMeaning, Matches, Where.eval, state]
    | some own => simp [SetMeaning, Matches, Where.eval, IdTest.eval, state]
  · rw [if_neg (by decide), Where.eval, any_evals]
    cases state : row.state with
    | none => simp [SetMeaning, Matches, Where.eval, IdTest.eval, state, PmWorkItem.id]
    | some own =>
      simp [SetMeaning, Matches, Where.eval, IdTest.eval, state, PmWorkItem.id,
        notIn_true values (set.some_values (.inr rfl))]

variable (rel : Relation)

theorem links_some (ids : List String) :
    (Where.links rel .exists_one (some ids)).eval folding row = some true ↔
      ∃ id ∈ ids, id ∈ row.links rel := by
  simp only [Where.eval, Option.all_some, Option.some.injEq, List.any_eq_true, decide_eq_true_iff]
  constructor
  · intro found
    obtain ⟨id, linked, listed⟩ := found
    exact ⟨id, listed, linked⟩
  · intro found
    obtain ⟨id, listed, linked⟩ := found
    exact ⟨id, linked, listed⟩

theorem links_any : (Where.links rel .exists_one none).eval folding row = some true ↔ row.links rel ≠ [] := by
  cases linked : row.links rel <;> simp [Where.eval, linked]

/-- `none` is the negation of `some`: it is never `NULL`. -/
theorem links_none (ids : Option (List String)) :
    (Where.links rel .exists_none ids).eval folding row = some true ↔
      ¬ (Where.links rel .exists_one ids).eval folding row = some true := by
  simp [Where.eval]

theorem joinSet_means (kind : SetKind) (values : List String) (set : SetOp ctx c kind values)
    (each : ∀ row v, Matches ctx row c.field v ↔ v ∈ row.links rel)
    (lacks : ∀ row, Lacks row c.field ↔ row.links rel = []) :
    Compiles folding (joinSet rel c) (SetHolds ctx c) := by
  simp only [joinSet, set.returns, ok_bind]
  cases kind with
  | isIn =>
    refine ⟨_, rfl, ?_⟩
    intro row
    simp only [set.holds, SetMeaning, each, links_some]
  | notIn =>
    refine ⟨_, rfl, ?_⟩
    intro row
    simp only [set.holds, SetMeaning, each, links_none, links_some]
  | empty =>
    refine ⟨_, rfl, ?_⟩
    intro row
    simp [set.holds, SetMeaning, lacks, links_none, links_any]
  | notEmpty =>
    refine ⟨_, rfl, ?_⟩
    intro row
    simp [set.holds, SetMeaning, lacks, links_any]

/-- The values of a condition that name people can be looked up. -/
def UserKnown : Prop :=
  PM_FILTER_ME ∈ texts c.value → ∃ user, ctx.userId = some user ∧ user ≠ ""

/-- The person a value names, once one is known. -/
def person (v : String) : String := (who ctx v).getD ""

theorem me_person (v : String) (known : v = PM_FILTER_ME → ∃ user, ctx.userId = some user ∧ user ≠ "") :
    Env.me ctx v = .ok (person ctx v) ∧ who ctx v = some (person ctx v) := by
  unfold Env.me person who
  by_cases own : v = PM_FILTER_ME
  · obtain ⟨user, same, named⟩ := known own
    simp [own, same, named]
  · simp [own]

theorem mapM_me (known : PM_FILTER_ME ∈ values → ∃ user, ctx.userId = some user ∧ user ≠ "") :
    values.mapM (Env.me ctx) = .ok (values.map (person ctx)) := by
  apply mapM_ok
  intro v member
  exact (me_person ctx v (fun own => known (own ▸ member))).1

theorem assignee_means (set : SetOp ctx c kind values) (field : c.field = .assignee) (known : UserKnown ctx c) :
    Compiles folding (assignee ctx c) (SetHolds ctx c) := by
  have named : ∀ v ∈ values, who ctx v = some (person ctx v) := by
    intro v member
    apply (me_person ctx v ?_).2
    intro own
    exact known (by rw [← set.texts, ← own]; exact member)
  have ids := mapM_me ctx (values.filter (fun v => v ≠ PM_FILTER_NONE)) (by
    intro own
    exact known (by rw [← set.texts]; exact List.mem_of_mem_filter own))
  have members : ∀ row : PmWorkItem, (∃ v ∈ values, Matches ctx row c.field v) ↔
      (∃ id ∈ (values.filter (fun v => v ≠ PM_FILTER_NONE)).map (person ctx), id ∈ row.assignees) ∨
        (PM_FILTER_NONE ∈ values ∧ row.assignees = []) := by
    intro row
    rw [field]
    constructor
    · intro found
      obtain ⟨v, member, fits⟩ := found
      simp only [Matches] at fits
      split at fits
      · next same => exact .inr ⟨same ▸ member, fits⟩
      · next other =>
        obtain ⟨user, assigned, same⟩ := fits
        rw [named v member] at same
        refine .inl ⟨person ctx v, ?_, Option.some.inj same ▸ assigned⟩
        exact List.mem_map_of_mem (List.mem_filter.mpr ⟨member, by simpa using other⟩)
    · intro found
      rcases found with ⟨id, listed, assigned⟩ | ⟨member, nobody⟩
      · obtain ⟨v, kept, rfl⟩ := List.mem_map.mp listed
        obtain ⟨member, other⟩ := List.mem_filter.mp kept
        refine ⟨v, member, ?_⟩
        simp only [Matches, if_neg (of_decide_eq_true other)]
        exact ⟨person ctx v, assigned, named v member⟩
      · exact ⟨_, member, by simpa [Matches] using nobody⟩
  have lacks : ∀ row : PmWorkItem, Lacks row c.field ↔ row.links .assignees = [] := by
    intro row
    rw [field]
    rfl
  simp only [assignee, set.returns, ok_bind]
  cases kind with
  | isIn =>
    rw [ids]
    refine ⟨_, rfl, ?_⟩
    intro row
    rw [two_arms_or, links_some, links_none, links_any, set.holds, SetMeaning, members]
    generalize (values.filter (fun v => v ≠ PM_FILTER_NONE)).map (person ctx) = listed
    cases listed <;> simp [PmWorkItem.links]
  | notIn =>
    rw [ids]
    refine ⟨_, rfl, ?_⟩
    intro row
    rw [two_arms_and, links_none, links_some, links_any, set.holds, SetMeaning, members]
    generalize (values.filter (fun v => v ≠ PM_FILTER_NONE)).map (person ctx) = listed
    cases listed <;> simp [PmWorkItem.links]
  | empty =>
    refine ⟨_, rfl, ?_⟩
    intro row
    simp [set.holds, SetMeaning, lacks, links_none, links_any]
  | notEmpty =>
    refine ⟨_, rfl, ?_⟩
    intro row
    simp [set.holds, SetMeaning, lacks, links_any]

def Nobody (v : String) : Prop := isNoneWord v = true ∨ ctx.departments v = some none

/-- The department references of a condition have their scopes. -/
def Resolved : Prop := ∀ v ∈ texts c.value, isNoneWord v = true ∨ ctx.departments v ≠ none

theorem scope_fold (scope ids : List String) (id : String) :
    id ∈ scope.foldl (fun ids id => if id ∈ ids then ids else ids ++ [id]) ids ↔
      id ∈ ids ∨ id ∈ scope := by
  induction scope generalizing ids with
  | nil => simp
  | cons first rest ih =>
    rw [List.foldl_cons, ih]
    by_cases inside : first ∈ ids
    · rw [if_pos inside, List.mem_cons]
      constructor
      · intro found
        exact found.imp (fun earlier => earlier) .inr
      · intro found
        rcases found with found | rfl | found
        · exact .inl found
        · exact .inl inside
        · exact .inr found
    · rw [if_neg inside]
      simp [or_assoc]

theorem departmentScopes_spec (nobody : Bool) (ids : List String)
    (resolved : ∀ v ∈ values, isNoneWord v = true ∨ ctx.departments v ≠ none) :
    ∃ wants out, departmentScopes ctx values nobody ids = .ok (wants, out) ∧
      (wants = true ↔ nobody = true ∨ ∃ v ∈ values, Nobody ctx v) ∧
      ∀ id, id ∈ out ↔ id ∈ ids ∨ ∃ v ∈ values, ¬ Nobody ctx v ∧
        ∃ scope, ctx.departments v = some (some scope) ∧ id ∈ scope := by
  induction values generalizing nobody ids with
  | nil => exact ⟨nobody, ids, rfl, by simp, by simp⟩
  | cons v rest ih =>
    have later := fun nobody ids =>
      ih nobody ids (fun other member => resolved other (List.mem_cons_of_mem _ member))
    by_cases word : isNoneWord v = true
    · obtain ⟨wants, out, returns, wanted, found⟩ := later true ids
      refine ⟨wants, out, by simp [departmentScopes, word, returns], ?_, ?_⟩
      · rw [wanted]
        simp [Nobody, word]
      · intro id
        rw [found]
        simp [Nobody, word]
    · cases scope : ctx.departments v with
      | none => exact absurd scope ((resolved v List.mem_cons_self).resolve_left word)
      | some scope' =>
        cases scope' with
        | none =>
          obtain ⟨wants, out, returns, wanted, found⟩ := later true ids
          refine ⟨wants, out, by simp [departmentScopes, word, scope, returns], ?_, ?_⟩
          · rw [wanted]
            simp [Nobody, scope]
          · intro id
            rw [found]
            simp [Nobody, scope]
        | some list =>
          obtain ⟨wants, out, returns, wanted, found⟩ := later nobody
            (list.foldl (fun ids id => if id ∈ ids then ids else ids ++ [id]) ids)
          refine ⟨wants, out, by simp [departmentScopes, word, scope, returns], ?_, ?_⟩
          · rw [wanted]
            simp [Nobody, scope, word]
          · intro id
            rw [found, scope_fold]
            simp [Nobody, scope, word, or_assoc]

theorem departmentWhere_none :
    (departmentWorkItemWhere none).eval folding row = some true ↔ effectiveDepartment row = none := by
  cases own : row.departmentId <;>
    simp [departmentWorkItemWhere, Where.eval, Where.evals, IdTest.eval, ProjectWhere.eval,
      PmWorkItem.id, effectiveDepartment, own]

theorem departmentWhere_some (ids : List String) :
    (departmentWorkItemWhere (some ids)).eval folding row = some true ↔
      ∃ id ∈ ids, effectiveDepartment row = some id := by
  cases own : row.departmentId <;>
    simp [departmentWorkItemWhere, Where.eval, Where.evals, IdTest.eval, ProjectWhere.eval,
      PmWorkItem.id, effectiveDepartment, own]

theorem hasDepartment_eval : hasDepartment.eval folding row = some true ↔ effectiveDepartment row ≠ none := by
  cases own : row.departmentId <;>
    simp [hasDepartment, Where.eval, Where.evals, IdTest.eval, ProjectWhere.eval,
      PmWorkItem.id, effectiveDepartment, own]

theorem departmentNotIn_eval (ids : List String) (some_ids : ids ≠ []) :
    (departmentNotIn ids).eval folding row = some true ↔
      ¬ ∃ id ∈ ids, effectiveDepartment row = some id := by
  cases own : row.departmentId with
  | none =>
    cases whole : row.project.departmentId <;>
      simp [departmentNotIn, Where.eval, Where.evals, IdTest.eval, ProjectWhere.eval,
        PmWorkItem.id, effectiveDepartment, own, whole, notIn_true ids some_ids]
  | some id =>
    simp [departmentNotIn, Where.eval, Where.evals, IdTest.eval, ProjectWhere.eval,
      PmWorkItem.id, effectiveDepartment, own, notIn_true ids some_ids]

theorem department_means (set : SetOp ctx c kind values)
    (field : c.field = .department) (resolved : Resolved ctx c) :
    Compiles folding (department ctx c) (SetHolds ctx c) := by
  obtain ⟨wants, ids, scopes, wanted, found⟩ := departmentScopes_spec ctx values false []
    (by rw [set.texts]; exact resolved)
  have members : ∀ row : PmWorkItem, (∃ v ∈ values, Matches ctx row c.field v) ↔
      (∃ id ∈ ids, effectiveDepartment row = some id) ∨
        (wants = true ∧ effectiveDepartment row = none) := by
    intro row
    rw [field, wanted]
    constructor
    · intro held
      obtain ⟨v, member, fits⟩ := held
      simp only [Matches] at fits
      split at fits
      · next nobody => exact .inr ⟨.inr ⟨v, member, nobody⟩, fits⟩
      · next somebody =>
        obtain ⟨scope, known, id, inside, same⟩ := fits
        exact .inl ⟨id, (found id).mpr (.inr ⟨v, member, somebody, scope, known, inside⟩), same⟩
    · intro held
      rcases held with ⟨id, listed, same⟩ | ⟨nobody, same⟩
      · rcases (found id).mp listed with absent | ⟨v, member, somebody, scope, known, inside⟩
        · cases absent
        · refine ⟨v, member, ?_⟩
          unfold Nobody at somebody
          simp only [Matches, if_neg somebody]
          exact ⟨scope, known, id, inside, same⟩
      · rcases nobody with absent | ⟨v, member, nobody⟩
        · cases absent
        · refine ⟨v, member, ?_⟩
          unfold Nobody at nobody
          simp only [Matches, if_pos nobody]
          exact same
  have lacks : ∀ row : PmWorkItem, Lacks row c.field ↔ effectiveDepartment row = none := by
    intro row
    rw [field]
    rfl
  simp only [department, set.returns, ok_bind]
  cases kind with
  | isIn =>
    rw [scopes]
    refine ⟨_, rfl, ?_⟩
    intro row
    rw [two_arms_or, departmentWhere_some, departmentWhere_none, set.holds, SetMeaning, members]
    cases ids <;> simp
  | notIn =>
    rw [scopes]
    refine ⟨_, rfl, ?_⟩
    intro row
    rw [two_arms_and, hasDepartment_eval, set.holds, SetMeaning, members]
    cases ids with
    | nil => simp
    | cons id rest =>
      rw [departmentNotIn_eval folding row _ (by simp)]
      simp
  | empty =>
    refine ⟨_, rfl, ?_⟩
    intro row
    rw [departmentWhere_none, set.holds, SetMeaning, lacks]
  | notEmpty =>
    refine ⟨_, rfl, ?_⟩
    intro row
    rw [hasDepartment_eval, set.holds, SetMeaning, lacks]

variable (intl : Intl) (ymd : String)

theorem dayStart_ok_iff (storage : DateStorage) (zone : Zone)
    (resolves : intl.resolve ctx.tz = some zone) (start : ℤ) :
    dayStart intl ymd storage ctx.tz = .ok start ↔
      ∃ date, parseYmd ymd = .ok date ∧
        firstInstant intl ctx storage (toDay date) = some start := by
  cases storage with
  | date =>
    simp only [dayStart, utcMidnight, bind_ok_iff, pure_ok_iff, firstInstant, Option.some.injEq]
  | timestamp =>
    have unfolded : dayStart intl ymd .timestamp ctx.tz = (parseYmd ymd >>= fun date =>
          .ok (zonedWallClockToUtc date.year date.month date.day 0 0 0 zone)) := by
      simp only [dayStart, zonedDateMinuteToUtc, resolves]
      rfl
    rw [unfolded, bind_ok_iff]
    apply exists_congr
    intro date
    apply and_congr_right
    intro parsed
    rw [firstInstant, resolves, ofDay_toDay date (parseYmd_valid ymd date parsed).1]
    simp

theorem next_year (date : Date) (parsed : parseYmd ymd = .ok date) : 1 ≤ (ofDay (toDay date + 1)).year := by
  obtain ⟨valid, low, _⟩ := parseYmd_valid ymd date parsed
  have grows := year_ofDay_mono (toDay date) (toDay date + 1) (by omega)
  rw [ofDay_toDay date valid] at grows
  omega

theorem dayEnd_ok_iff (storage : DateStorage) (zone : Zone)
    (resolves : intl.resolve ctx.tz = some zone) (start : ℤ) :
    dayEnd intl ymd storage ctx.tz = .ok start ↔
      ∃ date, parseYmd ymd = .ok date ∧ (ofDay (toDay date + 1)).year ≤ 9999 ∧
        firstInstant intl ctx storage (toDay date + 1) = some start := by
  simp only [dayEnd, ymdAddDays, bind_ok_iff, pure_ok_iff, dayStart_ok_iff ctx intl _ _ zone resolves]
  constructor
  · intro found
    obtain ⟨_, ⟨date, parsed, rfl⟩, next, parsedNext, starts⟩ := found
    have year := next_year ymd date parsed
    have high : (ofDay (toDay date + 1)).year ≤ 9999 := by
      by_contra far
      exact parseYmd_dateText_far _ (by omega) next parsedNext
    rw [ymdOfUtcDate, parseYmd_ofDay _ year high] at parsedNext
    obtain rfl := Except.ok.inj parsedNext
    rw [toDay_ofDay] at starts
    exact ⟨date, parsed, high, starts⟩
  · intro found
    obtain ⟨date, parsed, high, starts⟩ := found
    have year := next_year ymd date parsed
    refine ⟨_, ⟨date, parsed, rfl⟩, ofDay (toDay date + 1), ?_, ?_⟩
    · rw [ymdOfUtcDate, parseYmd_ofDay _ year high]
    · rw [toDay_ofDay]
      exact starts

/-- The day of a token, and the day after it, are dates the calendar can write. -/
def InCalendar (token : String) : Prop :=
  ∃ day, tokenDay intl ctx token = some day ∧ (ofDay (day + 1)).year ≤ 9999

theorem tokenDay_eq_some (token : String) (day : ℤ) :
    tokenDay intl ctx token = some day ↔
      ∃ ymd date, Env.day intl ctx token = .ok ymd ∧ parseYmd ymd = .ok date ∧ toDay date = day := by
  unfold tokenDay
  split
  · next failure same => simp [same]
  · next ymd same =>
    cases parsed : parseYmd ymd with
    | error | ok => simp [same, parsed, Except.toOption]

def tokenStart (storage : DateStorage) (token : String) : Result ℤ := do
  let day ← Env.day intl ctx token
  dayStart intl day storage ctx.tz

def tokenEnd (storage : DateStorage) (token : String) : Result ℤ := do
  let day ← Env.day intl ctx token
  dayEnd intl day storage ctx.tz

section

variable (storage : DateStorage) (token : String) (zone : Zone)
  (resolves : intl.resolve ctx.tz = some zone)
include resolves

theorem tokenStart_since (start t : ℤ) (starts : tokenStart ctx intl storage token = .ok start) :
    SinceDay intl ctx storage token t ↔ start ≤ t := by
  simp only [tokenStart, bind_ok_iff, dayStart_ok_iff ctx intl _ _ zone resolves] at starts
  obtain ⟨ymd, day, date, parsed, first⟩ := starts
  have known : tokenDay intl ctx token = some (toDay date) :=
    (tokenDay_eq_some ctx intl token _).mpr ⟨ymd, date, day, parsed, rfl⟩
  simp [SinceDay, known, first]

theorem tokenEnd_past (start t : ℤ) (starts : tokenEnd ctx intl storage token = .ok start) :
    PastDay intl ctx storage token t ↔ start ≤ t := by
  simp only [tokenEnd, bind_ok_iff, dayEnd_ok_iff ctx intl _ _ zone resolves] at starts
  obtain ⟨ymd, day, date, parsed, _, first⟩ := starts
  have known : tokenDay intl ctx token = some (toDay date) :=
    (tokenDay_eq_some ctx intl token _).mpr ⟨ymd, date, day, parsed, rfl⟩
  simp [PastDay, known, first]

theorem firstInstant_some (day : ℤ) : ∃ start, firstInstant intl ctx storage day = some start := by
  cases storage <;> simp [firstInstant, resolves]

theorem tokenStart_returns (inside : InCalendar ctx intl token) :
    ∃ start, tokenStart ctx intl storage token = .ok start := by
  obtain ⟨day, known, _⟩ := inside
  obtain ⟨ymd, date, dayIs, parsed, rfl⟩ := (tokenDay_eq_some ctx intl token day).mp known
  obtain ⟨start, first⟩ := firstInstant_some ctx intl storage zone resolves (toDay date)
  refine ⟨start, ?_⟩
  simp only [tokenStart, bind_ok_iff, dayStart_ok_iff ctx intl _ _ zone resolves]
  exact ⟨ymd, dayIs, date, parsed, first⟩

theorem tokenEnd_returns (inside : InCalendar ctx intl token) :
    ∃ start, tokenEnd ctx intl storage token = .ok start := by
  obtain ⟨day, known, high⟩ := inside
  obtain ⟨ymd, date, dayIs, parsed, rfl⟩ := (tokenDay_eq_some ctx intl token day).mp known
  obtain ⟨start, first⟩ := firstInstant_some ctx intl storage zone resolves (toDay date + 1)
  refine ⟨start, ?_⟩
  simp only [tokenEnd, bind_ok_iff, dayEnd_ok_iff ctx intl _ _ zone resolves]
  exact ⟨ymd, dayIs, date, parsed, high, first⟩

end

theorem ofRange_ok_iff {α : Type} (result : Result α) (value : α) :
    ofRange result = .ok value ↔ result = .ok value := by
  cases result <;> simp [ofRange]

/-- What is compiled, if anything is, is true of the rows of a kind; something is where the guard
holds. -/
structure CompilesWhen (guard : Prop) (result : Compiled Where) (holds : PmWorkItem → Prop) :
    Prop where
  means : ∀ compiled, result = .ok compiled →
    ∀ row, compiled.eval folding row = some true ↔ holds row
  returns : guard → ∃ compiled, result = .ok compiled

theorem Compiles.when {folding : Folding} {result : Compiled Where} {holds : PmWorkItem → Prop}
    (compiles : Compiles folding result holds) (guard : Prop) : CompilesWhen folding guard result holds := by
  obtain ⟨compiled, returns, means⟩ := compiles
  refine ⟨?_, fun _ => ⟨compiled, returns⟩⟩
  intro other same
  rw [returns] at same
  rw [← Except.ok.inj same]
  exact means

theorem CompilesWhen.under {folding : Folding} {guard guard' : Prop} {result : Compiled Where}
    {holds : PmWorkItem → Prop} (compiles : CompilesWhen folding guard result holds)
    (allows : guard' → guard) : CompilesWhen folding guard' result holds :=
  ⟨compiles.means, fun given => compiles.returns (allows given)⟩

theorem range_eval (col : DateColumn) (gte lt : Option ℤ) :
    (Where.date col (.range gte lt)).eval folding row = some true ↔
      ∃ t, row.date col = some t ∧ (∀ low ∈ gte, low ≤ t) ∧ ∀ high ∈ lt, t < high := by
  cases value : row.date col with
  | none => simp [Where.eval, DateTest.eval, value]
  | some t => cases gte <;> cases lt <;> simp [Where.eval, DateTest.eval, value]

section

variable (col : DateColumn) (zone : Zone) (resolves : intl.resolve ctx.tz = some zone)
include resolves

theorem range_between (first last : String) :
    CompilesWhen folding (InCalendar ctx intl first ∧ InCalendar ctx intl last)
      (do
        let gte ← ofRange (tokenStart ctx intl (DATE_COLUMNS col) first)
        let lt ← ofRange (tokenEnd ctx intl (DATE_COLUMNS col) last)
        return .date col (.range (some gte) (some lt)))
      (fun row => ∃ t, row.date col = some t ∧ SinceDay intl ctx (DATE_COLUMNS col) first t ∧
        ¬ PastDay intl ctx (DATE_COLUMNS col) last t) := by
  constructor
  · intro compiled returns row
    simp only [bind_ok_iff, ofRange_ok_iff, pure_ok_iff] at returns
    obtain ⟨gte, starts, lt, ends, rfl⟩ := returns
    rw [range_eval]
    apply exists_congr
    intro t
    rw [tokenStart_since ctx intl _ first zone resolves gte t starts,
      tokenEnd_past ctx intl _ last zone resolves lt t ends]
    simp
  · intro inside
    obtain ⟨gte, starts⟩ := tokenStart_returns ctx intl (DATE_COLUMNS col) first zone resolves inside.1
    obtain ⟨lt, ends⟩ := tokenEnd_returns ctx intl (DATE_COLUMNS col) last zone resolves inside.2
    refine ⟨.date col (.range (some gte) (some lt)), ?_⟩
    simp only [bind_ok_iff, ofRange_ok_iff, pure_ok_iff]
    exact ⟨gte, starts, lt, ends, rfl⟩

theorem range_before (token : String) :
    CompilesWhen folding (InCalendar ctx intl token)
      (do
        let lt ← ofRange (tokenStart ctx intl (DATE_COLUMNS col) token)
        return .date col (.range none (some lt)))
      (fun row => ∃ t, row.date col = some t ∧ ¬ SinceDay intl ctx (DATE_COLUMNS col) token t) := by
  constructor
  · intro compiled returns row
    simp only [bind_ok_iff, ofRange_ok_iff, pure_ok_iff] at returns
    obtain ⟨lt, starts, rfl⟩ := returns
    rw [range_eval]
    apply exists_congr
    intro t
    rw [tokenStart_since ctx intl _ token zone resolves lt t starts]
    simp
  · intro inside
    obtain ⟨lt, starts⟩ := tokenStart_returns ctx intl (DATE_COLUMNS col) token zone resolves inside
    refine ⟨.date col (.range none (some lt)), ?_⟩
    simp only [bind_ok_iff, ofRange_ok_iff, pure_ok_iff]
    exact ⟨lt, starts, rfl⟩

theorem range_after (token : String) :
    CompilesWhen folding (InCalendar ctx intl token)
      (do
        let gte ← ofRange (tokenEnd ctx intl (DATE_COLUMNS col) token)
        return .date col (.range (some gte) none))
      (fun row => ∃ t, row.date col = some t ∧ PastDay intl ctx (DATE_COLUMNS col) token t) := by
  constructor
  · intro compiled returns row
    simp only [bind_ok_iff, ofRange_ok_iff, pure_ok_iff] at returns
    obtain ⟨gte, ends, rfl⟩ := returns
    rw [range_eval]
    apply exists_congr
    intro t
    rw [tokenEnd_past ctx intl _ token zone resolves gte t ends]
    simp
  · intro inside
    obtain ⟨gte, ends⟩ := tokenEnd_returns ctx intl (DATE_COLUMNS col) token zone resolves inside
    refine ⟨.date col (.range (some gte) none), ?_⟩
    simp only [bind_ok_iff, ofRange_ok_iff, pure_ok_iff]
    exact ⟨gte, ends, rfl⟩

theorem dateCondition_means (field : PmFilterField) (legal : c.op ∈ NULLABLE_DATE_OPS)
    (lacks : c.op = .isEmpty ∨ c.op = .isNotEmpty → ∀ row, Lacks row field ↔ row.date col = none)
    (value : CleanValue (PM_FILTER_FIELDS field) c.op c.value) (text : (PM_FILTER_FIELDS field).kind ≠ .boolean) :
    CompilesWhen folding (∀ token ∈ texts c.value, InCalendar ctx intl token)
      (dateCondition intl col ctx c) (fun row => DateHolds intl ctx col row c field) := by
  obtain ⟨own, op, given⟩ := c
  cases value with
  | absent unary =>
    rcases unary with same | same <;> simp only at same <;> subst same
    · apply Compiles.when
      refine ⟨_, rfl, ?_⟩
      intro row
      simp [Where.eval, DateTest.eval, DateHolds, lacks (.inl rfl)]
    · apply Compiles.when
      refine ⟨_, rfl, ?_⟩
      intro row
      simp [Where.eval, DateTest.eval, DateHolds, lacks (.inr rfl)]
  | single binary scalar =>
    rcases scalar.cases with ⟨_, token, rfl, _⟩ | ⟨kind, _⟩
    · simp only [NULLABLE_DATE_OPS, List.mem_cons, List.not_mem_nil, or_false] at legal binary
      have inside : (∀ token' ∈ texts (some (.str token)), InCalendar ctx intl token') →
          InCalendar ctx intl token := fun each => each token (by simp [texts])
      rcases legal with rfl | rfl | rfl | rfl | rfl | rfl
      · exact (range_between folding ctx intl col zone resolves token token).under
          fun each => ⟨inside each, inside each⟩
      · exact (range_before folding ctx intl col zone resolves token).under inside
      · exact (range_after folding ctx intl col zone resolves token).under inside
      all_goals simp at binary
    · exact absurd kind text
  | members set _ _ _ _ =>
    rcases set with same | same <;> simp only at same <;> subst same <;>
      simp [NULLABLE_DATE_OPS] at legal
  | @bounds first last from_token to_token =>
    exact (range_between folding ctx intl col zone resolves first last).under
      fun each => ⟨each _ (by simp [texts]), each _ (by simp [texts])⟩

end

theorem parseWorkItemKey_plain (key identifier : String) (n : ℕ)
    (parsed : parseWorkItemKey key = some (identifier, n)) : ∀ c ∈ identifier.toList, special c = false := by
  simp only [parseWorkItemKey] at parsed
  split at parsed
  · split at parsed
    · obtain ⟨rfl, _⟩ := Prod.mk.inj (Option.some.inj parsed)
      intro c member
      rw [String.toList_ofList] at member
      have alnum := List.mem_takeWhile_imp member
      cases kind : special c with
      | false => rfl
      | true =>
        simp only [special, Bool.or_eq_true, decide_eq_true_iff] at kind
        rcases kind with (rfl | rfl) | rfl <;> exact absurd alnum (by decide)
    · cases parsed
  · cases parsed

theorem contains_eval (col : TextColumn) (needle : String) :
    (Where.contains col (escapeLike needle)).eval folding row = some true ↔
      ∃ text, row.text col = some text ∧ Inside folding needle text := by
  cases value : row.text col with
  | none => simp [Where.eval, value]
  | some text => simp [Where.eval, value, escapeLike, ilike_anywhere, Inside]

theorem text_means (needle : String) (given : valueText c.value = needle) (row : PmWorkItem) :
    (text c).eval folding row = some true ↔ TextHolds folding row needle := by
  have own : (Where.contains .name (escapeLike needle)).eval folding row = some true ↔
      Inside folding needle row.name := by
    rw [contains_eval]
    simp [PmWorkItem.text]
  have description := contains_eval folding row .descriptionText needle
  simp only [PmWorkItem.text] at description
  cases key : parseWorkItemKey needle with
  | none =>
    simp only [text, given, key, Where.eval, List.append_nil]
    rw [any_evals]
    simp only [List.exists_mem_cons_iff, own, description, TextHolds, key]
    simp
  | some found =>
    obtain ⟨identifier, n⟩ := found
    have plain := parseWorkItemKey_plain needle identifier n key
    have named : (Where.all [.sequenceId n, .project (.identifierEquals identifier)]).eval folding
        row = some true ↔ row.sequenceId = n ∧
          row.project.identifier.toList.map folding.fold = identifier.toList.map folding.fold := by
      simp [Where.eval, Where.evals, ProjectWhere.eval, ilike_plain folding _ _ plain]
    simp only [text, given, key, Where.eval]
    rw [any_evals]
    simp only [List.cons_append, List.nil_append, List.exists_mem_cons_iff, own, description, named,
      TextHolds, key]
    simp

/-- What a filter needs of the context: a person for `me`, and the scopes of its departments. -/
structure Known : Prop where
  user : c.field = .assignee ∨ c.field = .createdBy → UserKnown ctx c
  departments : c.field = .department → Resolved ctx c

def DatesFit : Prop :=
  (PM_FILTER_FIELDS c.field).kind = .date → ∀ token ∈ texts c.value, InCalendar ctx intl token

theorem date_ops (op : PmFilterOp) (legal : op ∈ DATE_OPS) :
    op ∈ NULLABLE_DATE_OPS ∧ ¬ (op = .isEmpty ∨ op = .isNotEmpty) := by
  revert legal
  cases op <;> decide

theorem condition_means (clean : CleanCondition c) (known : Known ctx c) (zone : Zone)
    (resolves : intl.resolve ctx.tz = some zone) :
    CompilesWhen folding (DatesFit ctx c intl) (condition intl ctx c)
      (fun row => ConditionHolds intl ctx folding row c) := by
  obtain ⟨field, op, value⟩ := c
  cases field with
  | state =>
    obtain ⟨kind, values, set⟩ := setOp_spec ctx _ clean (.inl rfl)
    apply Compiles.when
    exact nullableScalar_means folding ctx _ .stateId .ok kind values set id
      (mapM_ok _ _ _ (fun _ _ => rfl)) (fun row v _ => Iff.rfl) (by simp [PmWorkItem.id, Lacks])
  | cycle =>
    obtain ⟨kind, values, set⟩ := setOp_spec ctx _ clean (.inl rfl)
    apply Compiles.when
    exact nullableScalar_means folding ctx _ .cycleId .ok kind values set id
      (mapM_ok _ _ _ (fun _ _ => rfl)) (fun row v _ => Iff.rfl) (fun row => Iff.rfl)
  | parent =>
    obtain ⟨kind, values, set⟩ := setOp_spec ctx _ clean (.inl rfl)
    apply Compiles.when
    exact nullableScalar_means folding ctx _ .parentId .ok kind values set id
      (mapM_ok _ _ _ (fun _ _ => rfl)) (fun row v _ => Iff.rfl) (fun row => Iff.rfl)
  | createdBy =>
    obtain ⟨kind, values, set⟩ := setOp_spec ctx _ clean (.inl rfl)
    have user := known.user (.inr rfl)
    apply Compiles.when
    refine nullableScalar_means folding ctx _ .createdById (Env.me ctx) kind values set
      (person ctx) (mapM_me ctx values ?_) ?_ (fun row => Iff.rfl)
    · intro own
      exact user (set.texts ▸ own)
    · intro row v member
      have named := (me_person ctx v (fun own => user (set.texts ▸ own ▸ member))).2
      simp [Matches, named, PmWorkItem.id]
  | priority =>
    obtain ⟨kind, values, set⟩ := setOp_spec ctx _ clean (.inr rfl)
    apply Compiles.when
    exact requiredScalar_means folding ctx _ .priority kind values set clean.op
      (fun row => ⟨_, rfl, fun v => Iff.rfl⟩)
  | project =>
    obtain ⟨kind, values, set⟩ := setOp_spec ctx _ clean (.inr rfl)
    apply Compiles.when
    exact requiredScalar_means folding ctx _ .projectId kind values set clean.op
      (fun row => ⟨_, rfl, fun v => Iff.rfl⟩)
  | stateGroup =>
    obtain ⟨kind, values, set⟩ := setOp_spec ctx _ clean (.inr rfl)
    exact (stateGroup_means folding ctx _ kind values set rfl clean.op).when _
  | assignee =>
    obtain ⟨kind, values, set⟩ := setOp_spec ctx _ clean (.inl rfl)
    exact (assignee_means folding ctx _ kind values set rfl (known.user (.inl rfl))).when _
  | label =>
    obtain ⟨kind, values, set⟩ := setOp_spec ctx _ clean (.inl rfl)
    apply Compiles.when
    exact joinSet_means folding ctx _ .labels kind values set (fun row v => Iff.rfl) (fun row => Iff.rfl)
  | module =>
    obtain ⟨kind, values, set⟩ := setOp_spec ctx _ clean (.inl rfl)
    apply Compiles.when
    exact joinSet_means folding ctx _ .modules kind values set (fun row v => Iff.rfl) (fun row => Iff.rfl)
  | department =>
    obtain ⟨kind, values, set⟩ := setOp_spec ctx _ clean (.inl rfl)
    exact (department_means folding ctx _ kind values set rfl (known.departments rfl)).when _
  | dueDate =>
    exact (dateCondition_means folding ctx _ intl .dueDate zone resolves .dueDate clean.op
      (fun _ row => Iff.rfl) clean.value (by decide)).under fun fit => fit rfl
  | startDate =>
    exact (dateCondition_means folding ctx _ intl .startDate zone resolves .startDate clean.op
      (fun _ row => Iff.rfl) clean.value (by decide)).under fun fit => fit rfl
  | createdAt =>
    obtain ⟨nullable, given⟩ := date_ops op clean.op
    exact (dateCondition_means folding ctx _ intl .createdAt zone resolves .createdAt nullable
      (fun unary => absurd unary given) clean.value (by decide)).under fun fit => fit rfl
  | updatedAt =>
    obtain ⟨nullable, given⟩ := date_ops op clean.op
    exact (dateCondition_means folding ctx _ intl .updatedAt zone resolves .updatedAt nullable
      (fun unary => absurd unary given) clean.value (by decide)).under fun fit => fit rfl
  | text =>
    apply Compiles.when
    exact ⟨_, rfl, fun row => text_means folding _ _ rfl row⟩
  | isArchived =>
    apply Compiles.when
    refine ⟨_, rfl, ?_⟩
    intro row
    simp [Where.eval, ConditionHolds]

theorem nodes_means (kids : List PmFilter) (guard : PmFilter → Prop)
    (each : ∀ kid ∈ kids, CompilesWhen folding (guard kid) (node intl ctx kid)
      (fun row => Holds intl ctx folding row kid)) :
    (∀ arms, nodes intl ctx kids = .ok arms → ∀ row,
      ((∀ arm ∈ arms, arm.eval folding row = some true) ↔ HoldsAll intl ctx folding row kids) ∧
        ((∃ arm ∈ arms, arm.eval folding row = some true) ↔ HoldsAny intl ctx folding row kids)) ∧
      ((∀ kid ∈ kids, guard kid) → ∃ arms, nodes intl ctx kids = .ok arms) := by
  induction kids with
  | nil =>
    refine ⟨?_, fun _ => ⟨[], rfl⟩⟩
    intro arms returns row
    obtain rfl := Except.ok.inj returns
    simp [HoldsAll, HoldsAny]
  | cons kid rest ih =>
    obtain ⟨laterMeans, laterReturns⟩ :=
      ih (fun other member => each other (List.mem_cons_of_mem _ member))
    have first := each kid List.mem_cons_self
    constructor
    · intro arms returns row
      simp only [nodes, bind_ok_iff, pure_ok_iff] at returns
      obtain ⟨arm, compiled, others, returned, rfl⟩ := returns
      obtain ⟨allMeans, anyMeans⟩ := laterMeans others returned row
      rw [List.forall_mem_cons, List.exists_mem_cons_iff, HoldsAll, HoldsAny, allMeans, anyMeans,
        first.means arm compiled row]
      exact ⟨Iff.rfl, Iff.rfl⟩
    · intro fit
      obtain ⟨arm, compiled⟩ := first.returns (fit kid List.mem_cons_self)
      obtain ⟨others, returned⟩ :=
        laterReturns (fun other member => fit other (List.mem_cons_of_mem _ member))
      refine ⟨arm :: others, ?_⟩
      simp only [nodes, compiled, returned, ok_bind]
      rfl

/-- A tree is compiled to a `where` of its meaning. -/
theorem node_means (filter : PmFilter) (zone : Zone) (resolves : intl.resolve ctx.tz = some zone)
    (clean : ∀ c ∈ conditions filter, CleanCondition c) (known : ∀ c ∈ conditions filter, Known ctx c) :
    CompilesWhen folding (∀ c ∈ conditions filter, DatesFit ctx c intl) (node intl ctx filter)
      (fun row => Holds intl ctx folding row filter) := by
  induction filter using PmFilter.tree_induction with
  | leaf c =>
    have leaf := condition_means folding ctx c intl (clean c (by simp [conditions]))
      (known c (by simp [conditions])) zone resolves
    refine ⟨?_, fun fit => leaf.returns (fit c (by simp [conditions]))⟩
    intro compiled returns row
    rw [node] at returns
    rw [Holds]
    exact leaf.means compiled returns row
  | group kind kids ih =>
    obtain ⟨means, returns⟩ := nodes_means folding ctx intl kids
      (fun kid => ∀ c ∈ conditions kid, DatesFit ctx c intl)
      (fun kid member => ih kid member
        (fun c inside => clean c (mem_conditionsOf kids kid member c inside))
        (fun c inside => known c (mem_conditionsOf kids kid member c inside)))
    have fits : (∀ c ∈ conditions (.group kind kids), DatesFit ctx c intl) →
        ∃ arms, nodes intl ctx kids = .ok arms := by
      intro fit
      apply returns
      intro kid member c inside
      exact fit c (mem_conditionsOf kids kid member c inside)
    cases kind with
    | and =>
      constructor
      · intro compiled compiles row
        simp only [node, bind_ok_iff, pure_ok_iff] at compiles
        obtain ⟨arms, returned, rfl⟩ := compiles
        rw [Holds, ← (means arms returned row).1]
        cases arms with
        | nil => simp [Where.eval, Where.evals]
        | cons arm others =>
          rw [if_neg (by simp)]
          exact combine_and folding row _
      · intro fit
        obtain ⟨arms, returned⟩ := fits fit
        exact ⟨_, by rw [node, returned]; rfl⟩
    | or =>
      constructor
      · intro compiled compiles row
        simp only [node, bind_ok_iff, pure_ok_iff] at compiles
        obtain ⟨arms, returned, rfl⟩ := compiles
        rw [Holds, ← (means arms returned row).2]
        exact combine_or folding row arms
      · intro fit
        obtain ⟨arms, returned⟩ := fits fit
        exact ⟨_, by rw [node, returned]; rfl⟩

theorem resolve_of_valid (tz : String) (valid : isValidIanaZone intl tz = true) :
    ∃ zone, intl.resolve tz = some zone := by
  unfold isValidIanaZone at valid
  split at valid
  · cases valid
  · split at valid
    · cases valid
    · next zone found => exact ⟨zone, found⟩

/-- The negation of a set operation. -/
def complement : PmFilterOp → Option PmFilterOp
  | .is => some .isNot
  | .isIn => some .notIn
  | .isEmpty => some .isNotEmpty
  | _ => none

section

variable {Number : Type}

theorem compileFilter_means (input : Json Number) (filter : PmFilter)
    (accepted : validatePmFilter input = .ok filter)
    (known : ∀ c ∈ conditions filter, Known ctx c) (compiled : Where)
    (returns : compileFilter intl input ctx = .ok compiled) (row : PmWorkItem) :
    compiled.eval folding row = some true ↔ Holds intl ctx folding row filter := by
  have normal := accepted_normal input filter accepted
  simp only [compileFilter, accepted] at returns
  split at returns
  · next valid =>
    obtain ⟨zone, resolves⟩ := resolve_of_valid intl ctx.tz valid
    have means := (node_means folding ctx intl (normalizePmFilter filter) zone resolves
      normal.conditions (by rw [normalize_conditions]; exact known)).means
    split at returns
    · next where' node =>
      obtain rfl := Except.ok.inj returns
      rw [means where' node row, holds_normalize]
    · cases returns
    · cases returns
  · cases returns

theorem compileFilter_returns (folding : Folding) (input : Json Number) (filter : PmFilter)
    (accepted : validatePmFilter input = .ok filter)
    (known : ∀ c ∈ conditions filter, Known ctx c) (valid : isValidIanaZone intl ctx.tz = true)
    (fit : ∀ c ∈ conditions filter, DatesFit ctx c intl) :
    ∃ compiled, compileFilter intl input ctx = .ok compiled := by
  have normal := accepted_normal input filter accepted
  obtain ⟨zone, resolves⟩ := resolve_of_valid intl ctx.tz valid
  obtain ⟨compiled, node⟩ := (node_means folding ctx intl (normalizePmFilter filter) zone resolves
    normal.conditions (by rw [normalize_conditions]; exact known)).returns
      (by rw [normalize_conditions]; exact fit)
  exact ⟨compiled, by simp only [compileFilter, accepted, valid, if_true, node]⟩

theorem complement_holds (c : PmFilterCondition) (negated : PmFilterOp)
    (op : complement c.op = some negated) (clean : CleanCondition c)
    (other : CleanCondition { c with op := negated }) (row : PmWorkItem) :
    ConditionHolds intl ctx folding row { c with op := negated } ↔
      ¬ ConditionHolds intl ctx folding row c := by
  obtain ⟨field, own, value⟩ := c
  have set : SetHolds ctx ⟨field, negated, value⟩ row ↔ ¬ SetHolds ctx ⟨field, own, value⟩ row := by
    cases own <;> simp only [complement, Option.some.injEq, reduceCtorEq] at op <;> subst op <;> rfl
  have dated : ∀ col, (PM_FILTER_FIELDS field).kind = .date →
      (DateHolds intl ctx col row ⟨field, negated, value⟩ field ↔
        ¬ DateHolds intl ctx col row ⟨field, own, value⟩ field) := by
    intro col kind
    have legal := other.op
    cases own <;> simp only [complement, Option.some.injEq, reduceCtorEq] at op <;> subst op
    iterate 2 · cases field <;> revert kind legal <;> simp [PM_FILTER_FIELDS, NULLABLE_DATE_OPS, DATE_OPS]
    · rfl
  have listed : negated ∈ (PM_FILTER_FIELDS field).ops := other.op
  have given : own ∈ (PM_FILTER_FIELDS field).ops := clean.op
  cases field with
  | dueDate => exact dated .dueDate rfl
  | startDate => exact dated .startDate rfl
  | createdAt => exact dated .createdAt rfl
  | updatedAt => exact dated .updatedAt rfl
  | text =>
    simp only [PM_FILTER_FIELDS, List.mem_singleton] at given
    subst given
    cases op
  | isArchived =>
    simp only [PM_FILTER_FIELDS, List.mem_singleton] at given listed
    subst given
    rw [listed] at op
    cases op
  | _ => exact set

/-- The compiled filter is true of a row exactly when the filter holds of it, whatever is `NULL`;
it is compiled wherever the zone is one and the dates can be written; normalising changes nothing;
and a negated set operation is the complement. -/
theorem compiled_filter_means (input : Json Number) (filter : PmFilter)
    (accepted : validatePmFilter input = .ok filter)
    (known : ∀ c ∈ conditions filter, Known ctx c) :
    (∀ compiled, compileFilter intl input ctx = .ok compiled →
      ∀ row, compiled.eval folding row = some true ↔ Holds intl ctx folding row filter) ∧
    (isValidIanaZone intl ctx.tz = true → (∀ c ∈ conditions filter, DatesFit ctx c intl) →
      ∃ compiled, compileFilter intl input ctx = .ok compiled) ∧
    (∀ row, Holds intl ctx folding row (normalizePmFilter filter) ↔
      Holds intl ctx folding row filter) ∧
    ∀ (c : PmFilterCondition) (negated : PmFilterOp) (otherInput : Json Number), filter = .leaf c →
      complement c.op = some negated →
      validatePmFilter otherInput = .ok (.leaf { c with op := negated }) →
      ∀ compiled other, compileFilter intl input ctx = .ok compiled →
        compileFilter intl otherInput ctx = .ok other →
        ∀ row, other.eval folding row = some true ↔ ¬ compiled.eval folding row = some true := by
  refine ⟨?_, ?_, ?_, ?_⟩
  · intro compiled returns row
    exact compileFilter_means folding ctx intl input filter accepted known compiled returns row
  · intro valid fit
    exact compileFilter_returns ctx intl folding input filter accepted known valid fit
  · intro row
    exact holds_normalize intl ctx folding row filter
  · intro c negated otherInput leaf op otherAccepted compiled other returns otherReturns row
    subst leaf
    have own : c ∈ conditions (.leaf c) := by simp [conditions]
    have cleanOwn := (accepted_normal input _ accepted).conditions c own
    have cleanOther := (accepted_normal otherInput _ otherAccepted).conditions
      { c with op := negated } (by simp [normalizePmFilter, conditions])
    have knownOther : ∀ d ∈ conditions (.leaf { c with op := negated }), Known ctx d := by
      intro d member
      rw [conditions, List.mem_singleton] at member
      subst member
      exact ⟨(known c own).user, (known c own).departments⟩
    rw [compileFilter_means folding ctx intl input _ accepted known compiled returns row,
      compileFilter_means folding ctx intl otherInput _ otherAccepted knownOther other otherReturns row,
      Holds, Holds]
    exact complement_holds folding ctx intl c negated op cleanOwn cleanOther row

end

def asciiFolding : Folding where
  fold := Char.toLower
  special_fold := by
    intro c one
    unfold Char.toLower at one ⊢
    split
    · next upper =>
      exfalso
      rw [dif_pos upper] at one
      simp only [special, Bool.or_eq_true, decide_eq_true_iff, Char.ext_iff, UInt32.ext_iff] at one
      simp at one
      simp [UInt32.le_iff_toNat_le] at upper
      omega
    · rfl

def notOps : PmFilter := .leaf ⟨.department, .isNot, some (.str "ops")⟩

def opsContext : PmFilterContext where
  now := 0
  tz := "UTC"
  userId := none
  departments := fun v => if v = "ops" then some (some ["o1", "o2"]) else none

theorem utc_short : utf16Length "UTC" ≤ 64 := by decide

def utcIntl : Intl := Intl.only ⟨"UTC", fun _ => 0⟩ utc_short

theorem notOps_normal : Normal notOps := by
  refine ⟨?_, .inl trivial, by decide, by decide⟩
  intro condition member
  have same : JsText.trim "ops" = "ops" := by decide
  have fits : ¬ (utf16Length "ops" = 0 ∨ utf16Length "ops" > REF_MAX ∨ hasControlChar "ops") := by
    decide
  have read : CleanScalar (PM_FILTER_FIELDS .department) (.str "ops") := by
    intro path
    simp only [valueJson, scalar, PM_FILTER_FIELDS, trimmedText, same, if_neg fits]
  rw [notOps, conditions, List.mem_singleton] at member
  subst member
  exact ⟨by decide, .single (by decide) read⟩

theorem not_ops_filter_means :
    validatePmFilter (toJson notOps) = .ok notOps ∧
      ∃ compiled, compileFilter utcIntl (toJson notOps) opsContext = .ok compiled ∧
        ∀ row, compiled.eval asciiFolding row = some true ↔
          Holds utcIntl opsContext asciiFolding row notOps := by
  have known : ∀ c ∈ conditions notOps, Known opsContext c := by
    intro c member
    rw [notOps, conditions, List.mem_singleton] at member
    subst member
    refine ⟨by simp, ?_⟩
    intro _ v inside
    rw [texts, List.mem_singleton] at inside
    subst inside
    exact .inr (by decide)
  obtain ⟨means, returns, _⟩ := compiled_filter_means asciiFolding opsContext utcIntl (toJson notOps)
    notOps notOps_normal.validate known
  obtain ⟨compiled, same⟩ := returns (by decide) (by simp [notOps, conditions, DatesFit, PM_FILTER_FIELDS])
  exact ⟨notOps_normal.validate, compiled, same, means compiled same⟩

end Droplet.Pm
