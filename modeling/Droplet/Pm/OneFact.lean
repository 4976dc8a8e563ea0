import Droplet.Audit.Determined
import Droplet.Pm.Blocking

/-! A symmetric relation is stored once and read from both ends (`listRelationsFor` and `mapRelation` of
`services/pm/pm-relations.service.ts`). -/

namespace Droplet.Pm.Relations

def RELATIONS_PER_ITEM_LIMIT : ℕ := 200

/-- `RELATION_END_SELECT` -/
structure RelationEnd where
  name : String
  sequenceId : ℤ
  projectId : String
  identifier : String

/-- What the writes do not read: the items, and when a row was created. -/
structure Columns where
  item : String → RelationEnd
  createdAt : String → ℤ

inductive Direction where
  | blocks
  | blockedBy
  | symmetric

structure ApiWorkItemRelation where
  id : String
  kind : RelationKind
  direction : Direction
  relatedId : String
  relatedKey : String
  relatedName : String
  relatedProjectId : String
  crossProject : Bool
  createdById : Option String
  /-- `toISOString`, which throws on no time that the database holds. -/
  createdAt : Option String

def mapRelation (columns : Columns) (row : RelationRow) (anchorId : String) : ApiWorkItemRelation :=
  let otherId := if row.fromId = anchorId then row.toId else row.fromId
  let anchorEnd := columns.item (if row.fromId = anchorId then row.fromId else row.toId)
  let other := columns.item otherId
  { id := row.id
    kind := row.kind
    direction :=
      if isSymmetricKind row.kind then .symmetric
      else if row.fromId = anchorId then .blocks
      else .blockedBy
    relatedId := otherId
    relatedKey := other.identifier ++ "-" ++ toString other.sequenceId
    relatedName := other.name
    relatedProjectId := other.projectId
    crossProject := other.projectId ≠ anchorEnd.projectId
    createdById := row.createdById
    createdAt := IsoText.toISOString (columns.createdAt row.id) }

def RelationKind.rank : RelationKind → ℕ
  | .blocks => 0
  | .relates => 1
  | .duplicates => 2

/-- `orderBy`, over which the rows keep the order that the database gives them. -/
def listedBefore (columns : Columns) (row other : RelationRow) : Prop :=
  row.kind.rank < other.kind.rank ∨
    row.kind.rank = other.kind.rank ∧ columns.createdAt row.id ≤ columns.createdAt other.id

instance (columns : Columns) : DecidableRel (listedBefore columns) := fun row other =>
  inferInstanceAs (Decidable (row.kind.rank < other.kind.rank ∨
    row.kind.rank = other.kind.rank ∧ columns.createdAt row.id ≤ columns.createdAt other.id))

def relationsAt (db : Database) (workItemId : String) : List RelationRow :=
  db.relations.filter fun row =>
    (row.fromId = workItemId || row.toId = workItemId) && db.bothEndsInPm row

def listRelationsFor (db : Database) (columns : Columns) (order : RowOrder) (workItemId : String)
    (itemChecked : Bool) : Except RelationError (List ApiWorkItemRelation) :=
  if !itemChecked && !db.inPm workItemId then .error .workItemNotFound
  else
    .ok ((((order.arrange (relationsAt db workItemId)).insertionSort (listedBefore columns)).take
      RELATIONS_PER_ITEM_LIMIT).map fun row => mapRelation columns row workItemId)

/-- A row of this kind between two items, whichever stands first. -/
def RelationRow.joins (row : RelationRow) (kind : RelationKind) (x y : String) : Bool :=
  row.kind = kind && ((row.fromId = x && row.toId = y) || (row.fromId = y && row.toId = x))

theorem RelationRow.joins_iff (row : RelationRow) (kind : RelationKind) (x y : String) :
    row.joins kind x y = true ↔
      row.kind = kind ∧ (row.fromId = x ∧ row.toId = y ∨ row.fromId = y ∧ row.toId = x) := by
  simp [RelationRow.joins]

/-- The order of the ends of a symmetric row: the `CHECK` of the table, for ids of ASCII. -/
def Ordered (kind : RelationKind) (fromId toId : String) : Prop :=
  isSymmetricKind kind = true → Audit.codeUnits fromId < Audit.codeUnits toId

theorem canonicalise_swap (kind : RelationKind) (symmetric : isSymmetricKind kind = true) (x y : String) :
    canonicalise ⟨y, x, kind⟩ = canonicalise ⟨x, y, kind⟩ := by
  unfold canonicalise
  simp only [symmetric, true_and]
  rcases lt_trichotomy (Audit.codeUnits x) (Audit.codeUnits y) with less | same | more
  · rw [if_pos less, if_neg (lt_asymm less)]
  · rw [Audit.codeUnits_injective same]
  · rw [if_neg (lt_asymm more), if_pos more]

theorem canonicalise_ordered (input : Ends) (apart : input.fromId ≠ input.toId) :
    Ordered (canonicalise input).kind (canonicalise input).fromId (canonicalise input).toId := by
  unfold canonicalise
  split
  next swapped => exact fun _ => swapped.2
  next kept =>
    intro symmetric
    rcases lt_trichotomy (Audit.codeUnits input.fromId) (Audit.codeUnits input.toId) with less | same | more
    · exact less
    · exact absurd (Audit.codeUnits_injective same) apart
    · exact absurd ⟨symmetric, more⟩ kept

theorem canonicalise_ends (input : Ends) : (canonicalise input).kind = input.kind ∧
    ((canonicalise input).fromId = input.fromId ∧ (canonicalise input).toId = input.toId ∨
      (canonicalise input).fromId = input.toId ∧ (canonicalise input).toId = input.fromId) := by
  unfold canonicalise
  split
  · exact ⟨rfl, .inr ⟨rfl, rfl⟩⟩
  · exact ⟨rfl, .inl ⟨rfl, rfl⟩⟩

variable {row : RelationRow} {kind : RelationKind} {x y : String}

theorem canonicalise_joined (symmetric : isSymmetricKind kind = true) (joined : row.joins kind x y = true)
    (ordered : Ordered row.kind row.fromId row.toId) :
    canonicalise ⟨x, y, kind⟩ = ⟨row.fromId, row.toId, row.kind⟩ := by
  obtain ⟨rfl, ends⟩ := (row.joins_iff kind x y).mp joined
  have less := ordered symmetric
  rcases ends with ⟨rfl, rfl⟩ | ⟨rfl, rfl⟩
  · exact if_neg fun swapped => lt_asymm less swapped.2
  · exact if_pos ⟨symmetric, less⟩

/-- The constraints of the table. -/
structure Stored (db : Database) : Prop where
  ids : (db.relations.map RelationRow.id).Nodup
  keys : ∀ row ∈ db.relations, ∀ other ∈ db.relations, row.fromId = other.fromId → row.toId = other.toId →
    row.kind = other.kind → row = other
  ordered : ∀ row ∈ db.relations, Ordered row.kind row.fromId row.toId

/-- The invariant of a run, with the ids that rows have had. -/
structure Held (used : List String) (service : Service) : Prop where
  stored : Stored service.db
  ids : ∀ row ∈ service.db.relations, row.id ∈ used
  creating : ∀ client actorId ends, service.calls client = some (.create actorId ends) →
    Ordered ends.kind ends.fromId ends.toId ∧ service.db.inPm ends.fromId = true ∧
      service.db.inPm ends.toId = true
  deleting : ∀ client actorId existing, service.calls client = some (.delete actorId existing) →
    existing.id ∈ used ∧ Ordered existing.kind existing.fromId existing.toId ∧
      ∀ row ∈ service.db.relations, row.id = existing.id → row = existing

variable {db : Database}

theorem Stored.eq (stored : Stored db) {row other : RelationRow} (there : row ∈ db.relations)
    (too : other ∈ db.relations) (same : row.id = other.id) : row = other :=
  List.inj_on_of_nodup_map stored.ids there too same

theorem openCreate_ok {input ends : Ends} (opened : openCreate db input = .ok ends) :
    input.fromId ≠ input.toId ∧ db.inPm input.fromId = true ∧ db.inPm input.toId = true ∧
      ends = canonicalise input := by
  unfold openCreate at opened
  split at opened
  · cases opened
  next apart =>
    split at opened
    next both =>
      obtain ⟨one, other⟩ := Bool.and_eq_true_iff.mp both
      exact ⟨apart, one, other, (Except.ok.inj opened).symm⟩
    next => cases opened

variable {existing : RelationRow}

theorem openDelete_ok {relationId : String} (opened : openDelete db relationId = .ok existing) :
    existing ∈ db.relations ∧ existing.id = relationId ∧ db.bothEndsInPm existing = true := by
  unfold openDelete at opened
  split at opened
  next found =>
    cases opened
    have passed := List.find?_some found
    rw [Bool.and_eq_true_iff, decide_eq_true_iff] at passed
    exact ⟨List.mem_of_find?_eq_some found, passed⟩
  next => cases opened

variable {actorId : Option String} {orders : ℕ → RowOrder} {newId : String}

theorem createTransaction_written {db after : Database}
    {ends : Ends} (committed : createTransaction db orders newId actorId ends = .ok after) :
    (∀ row ∈ db.relations, row.id ≠ newId ∧
      ¬(row.fromId = ends.fromId ∧ row.toId = ends.toId ∧ row.kind = ends.kind)) ∧
      after = { db with
        relations := db.relations ++ [⟨newId, ends.fromId, ends.toId, ends.kind, actorId⟩]
        activity := db.activity ++ relationActivity actorId .relationAdded ends } := by
  unfold createTransaction at committed
  split at committed
  · cases committed
  · cases committed
  · split at committed
    · cases committed
    next free =>
      split at committed
      · cases committed
      · refine ⟨?_, (Except.ok.inj committed).symm⟩
        intro row there
        have other := List.any_eq_false.mp (Bool.eq_false_iff.mpr free) row there
        simp only [Bool.or_eq_true, Bool.and_eq_true, decide_eq_true_iff, not_or] at other
        exact ⟨other.1, fun same => other.2 ⟨⟨same.1, same.2.1⟩, same.2.2⟩⟩

theorem deleteTransaction_written {db after : Database}
    (committed : deleteTransaction db actorId existing = .ok after) :
    (∃ row ∈ db.relations, row.id = existing.id) ∧
      after = { db with
        relations := db.relations.filter (fun row => row.id ≠ existing.id)
        activity := db.activity ++
          relationActivity actorId .relationRemoved ⟨existing.fromId, existing.toId, existing.kind⟩ } := by
  unfold deleteTransaction at committed
  split at committed
  next there =>
    obtain ⟨row, inside, same⟩ := List.any_eq_true.mp there
    exact ⟨⟨row, inside, of_decide_eq_true same⟩, (Except.ok.inj committed).symm⟩
  next => cases committed

theorem Held.setCall {used : List String} {service : Service} (held : Held used service) (client : ℕ)
    (pending : Option Pending) (creating : ∀ actorId ends, pending = some (.create actorId ends) →
      Ordered ends.kind ends.fromId ends.toId ∧ service.db.inPm ends.fromId = true ∧
        service.db.inPm ends.toId = true)
    (deleting : ∀ actorId existing, pending = some (.delete actorId existing) →
      existing ∈ service.db.relations) :
    Held used (service.setCall client pending) where
  stored := held.stored
  ids := held.ids
  creating := by
    intro other actorId ends called
    by_cases same : other = client
    · subst same
      exact creating actorId ends (by simpa [Service.setCall] using called)
    · exact held.creating other actorId ends (by simpa [Service.setCall, Function.update_of_ne same] using called)
  deleting := by
    intro other actorId existing called
    by_cases same : other = client
    · subst same
      have inside := deleting actorId existing (by simpa [Service.setCall] using called)
      exact ⟨held.ids existing inside, held.stored.ordered existing inside,
        fun row there => held.stored.eq there inside⟩
    · exact held.deleting other actorId existing
        (by simpa [Service.setCall, Function.update_of_ne same] using called)

theorem Held.more {used more : List String} {service : Service} (held : Held used service)
    (within : used ⊆ more) : Held more service where
  stored := held.stored
  ids := fun row there => within (held.ids row there)
  creating := held.creating
  deleting := fun client actorId existing called =>
    ⟨within (held.deleting client actorId existing called).1, (held.deleting client actorId existing called).2⟩

variable {client : ℕ}

section
variable {used : List String} {service : Service}

theorem Held.created (held : Held used service) {ends : Ends}
    (called : service.calls client = some (.create actorId ends)) (committed : createTransaction service.db orders newId actorId ends = .ok db)
    (fresh : newId ∉ used) : Held (used ++ [newId]) { service with db := db } := by
  obtain ⟨free, rfl⟩ := createTransaction_written committed
  obtain ⟨ordered, _⟩ := held.creating client actorId ends called
  have grown : used ⊆ used ++ [newId] := List.subset_append_left _ _
  refine ⟨⟨?_, ?_, ?_⟩, ?_, held.creating, ?_⟩
  · rw [List.map_append, List.nodup_append]
    refine ⟨held.stored.ids, by simp, ?_⟩
    intro id before other new_ same
    obtain ⟨row, there, rfl⟩ := List.mem_map.mp before
    have is : other = newId := by simpa using new_
    exact (free row there).1 (same.trans is)
  · intro row there other too from_ to_ kind
    rcases List.mem_append.mp there with old | new_ <;> rcases List.mem_append.mp too with old' | new'
    · exact held.stored.keys row old other old' from_ to_ kind
    · cases List.mem_singleton.mp new'
      exact absurd ⟨from_, to_, kind⟩ (free row old).2
    · cases List.mem_singleton.mp new_
      exact absurd ⟨from_.symm, to_.symm, kind.symm⟩ (free other old').2
    · rw [List.mem_singleton.mp new_, List.mem_singleton.mp new']
  · intro row there
    rcases List.mem_append.mp there with old | new_
    · exact held.stored.ordered row old
    · cases List.mem_singleton.mp new_
      exact ordered
  · intro row there
    rcases List.mem_append.mp there with old | new_
    · exact grown (held.ids row old)
    · cases List.mem_singleton.mp new_
      exact List.mem_append_right _ (.head _)
  · intro other actor existing deleting
    obtain ⟨had, order, only⟩ := held.deleting other actor existing deleting
    refine ⟨grown had, order, ?_⟩
    intro row there same
    rcases List.mem_append.mp there with old | new_
    · exact only row old same
    · cases List.mem_singleton.mp new_
      rw [← show newId = existing.id from same] at had
      exact absurd had fresh

theorem Held.deleted (held : Held used service)
    (committed : deleteTransaction service.db actorId existing = .ok db) :
    Held used { service with db := db } := by
  obtain ⟨_, rfl⟩ := deleteTransaction_written committed
  refine ⟨⟨held.stored.ids.sublist (List.filter_sublist.map _), ?_, ?_⟩, ?_, held.creating, ?_⟩
  · intro row there other too
    exact held.stored.keys row (List.mem_of_mem_filter there) other (List.mem_of_mem_filter too)
  · intro row there
    exact held.stored.ordered row (List.mem_of_mem_filter there)
  · intro row there
    exact held.ids row (List.mem_of_mem_filter there)
  · intro client actor other deleting
    obtain ⟨had, order, only⟩ := held.deleting client actor other deleting
    exact ⟨had, order, fun row there => only row (List.mem_of_mem_filter there)⟩

def Event.newIds : Event → List String
  | .transact _ newId _ => [newId]
  | _ => []

theorem step_held (held : Held used service) (event : Event)
    (fresh : ∀ newId ∈ event.newIds, newId ∉ used) : Held (used ++ event.newIds) (step service event).1 := by
  cases event with
  | request client call =>
    rw [show Event.newIds (.request client call) = [] from rfl, List.append_nil]
    simp only [step]
    split
    · exact held
    · split
      next pending opened =>
        cases call with
        | create actorId input =>
          obtain ⟨ends, checked, rfl⟩ := Fallible.map_ok_iff.mp opened
          refine held.setCall client _ ?_ (by simp)
          intro actor other is
          cases is
          obtain ⟨apart, one, two, rfl⟩ := openCreate_ok checked
          refine ⟨canonicalise_ordered input apart, ?_⟩
          obtain ⟨_, same | swapped⟩ := canonicalise_ends input
          · rw [same.1, same.2]
            exact ⟨one, two⟩
          · rw [swapped.1, swapped.2]
            exact ⟨two, one⟩
        | delete actorId relationId =>
          obtain ⟨existing, found, rfl⟩ := Fallible.map_ok_iff.mp opened
          refine held.setCall client _ (by simp) ?_
          intro actor other is
          cases is
          exact (openDelete_ok found).1
      next => exact held
  | transact client newId orders =>
    have idle : ∀ {used : List String} {service : Service}, Held used service →
        Held used (service.setCall client none) := fun held => held.setCall client none (by simp) (by simp)
    have grown := held.more (List.subset_append_left used [newId])
    simp only [step]
    split
    · exact grown
    next pending called =>
      split
      next db committed =>
        cases pending with
        | create actorId ends => exact idle (held.created called committed (fresh newId (.head _)))
        | delete actorId existing =>
          exact idle ((held.deleted committed).more (List.subset_append_left _ _))
      next => exact idle grown
  | abort client =>
    rw [show Event.newIds (.abort client) = [] from rfl, List.append_nil]
    exact held.setCall client none (by simp) (by simp)

theorem run_held (held : Held used service) (events : List Event)
    (fresh : (used ++ events.flatMap Event.newIds).Nodup) :
    Held (used ++ events.flatMap Event.newIds) (run service events) := by
  induction events generalizing used service with
  | nil => exact held.more (List.subset_append_left _ _)
  | cons event events ih =>
    rw [List.flatMap_cons, ← List.append_assoc] at fresh ⊢
    have before := (List.nodup_append.mp fresh).1
    refine ih (step_held held event ?_) fresh
    intro newId new_ had
    exact (List.nodup_append.mp before).2.2 newId had newId new_ rfl

end

theorem canonicalise_pair (kind : RelationKind) (x y : String) (newId : String) (actorId : Option String) :
    RelationRow.joins ⟨newId, (canonicalise ⟨x, y, kind⟩).fromId, (canonicalise ⟨x, y, kind⟩).toId,
      (canonicalise ⟨x, y, kind⟩).kind, actorId⟩ kind x y = true := by
  obtain ⟨kind_, ends⟩ := canonicalise_ends ⟨x, y, kind⟩
  exact (RelationRow.joins_iff _ _ _ _).mpr ⟨kind_, ends⟩

theorem Stored.joined_eq (stored : Stored db) (symmetric : isSymmetricKind kind = true) {row other : RelationRow}
    (there : row ∈ db.relations) (too : other ∈ db.relations) (joined : row.joins kind x y = true)
    (joined' : other.joins kind x y = true) : row = other := by
  have one := canonicalise_joined symmetric joined (stored.ordered row there)
  have two := canonicalise_joined symmetric joined' (stored.ordered other too)
  obtain ⟨from_, to_, kind_⟩ := Ends.mk.inj (one.symm.trans two)
  exact stored.keys row there other too from_ to_ kind_

variable (columns : Columns)

theorem mapRelation_related (joined : row.joins kind x y = true) : (mapRelation columns row x).relatedId = y := by
  obtain ⟨_, ends⟩ := (row.joins_iff kind x y).mp joined
  rcases ends with ⟨from_, to_⟩ | ⟨from_, to_⟩
  · exact (if_pos from_).trans to_
  · change (if row.fromId = x then row.toId else row.fromId) = y
    split
    next same => rw [to_, ← from_, same]
    next => exact from_

theorem mem_relationsAt (db : Database) (x : String) (row : RelationRow) : row ∈ relationsAt db x ↔
    row ∈ db.relations ∧ (row.fromId = x ∨ row.toId = x) ∧ db.bothEndsInPm row = true := by
  simp [relationsAt]

theorem mem_listRelationsFor {columns : Columns} {order : RowOrder} {x : String}
    {itemChecked : Bool} {entries : List ApiWorkItemRelation}
    (listed : listRelationsFor db columns order x itemChecked = .ok entries) :
    (∀ entry ∈ entries, ∃ row ∈ relationsAt db x, entry = mapRelation columns row x) ∧
      ((relationsAt db x).length ≤ RELATIONS_PER_ITEM_LIMIT →
        ∀ row ∈ relationsAt db x, mapRelation columns row x ∈ entries) := by
  have arranged : ((order.arrange (relationsAt db x)).insertionSort (listedBefore columns)).Perm
      (relationsAt db x) := (List.perm_insertionSort _ _).trans (order.perm _)
  unfold listRelationsFor at listed
  split at listed
  · cases listed
  · cases listed
    refine ⟨?_, ?_⟩
    · intro entry there
      obtain ⟨row, inside, rfl⟩ := List.mem_map.mp there
      exact ⟨row, arranged.mem_iff.mp (List.mem_of_mem_take inside), rfl⟩
    · intro few row there
      rw [List.take_of_length_le (arranged.length_eq ▸ few)]
      exact List.mem_map_of_mem (arranged.mem_iff.mpr there)

/-- What is asked of a pair in a state: `x` is the end that the caller names first. -/
structure OneFact (columns : Columns) (service : Service) (kind : RelationKind) (x y : String) : Prop where
  single : (service.db.relations.filter fun row => row.joins kind x y).length ≤ 1
  listed : ∀ row ∈ service.db.relations, row.joins kind x y = true → service.db.bothEndsInPm row = true →
    (relationsAt service.db x).length ≤ RELATIONS_PER_ITEM_LIMIT → ∀ order,
    ∃ entries, listRelationsFor service.db columns order x false = .ok entries ∧
      (∃ entry ∈ entries, entry.id = row.id ∧ entry.kind = kind ∧ entry.direction = .symmetric ∧
        entry.relatedId = y) ∧
      ∀ entry ∈ entries, entry.kind = kind → entry.relatedId = y → entry.id = row.id
  asked : ∀ client actorId, service.calls client = none → x ≠ y → service.db.inPm x = true →
    service.db.inPm y = true →
    (step service (.request client (.create actorId ⟨x, y, kind⟩))).1.calls client =
      some (.create actorId (canonicalise ⟨x, y, kind⟩))
  accepted : (∀ row ∈ service.db.relations, row.joins kind x y = false) → ∀ client actorId newId orders,
    (∀ row ∈ service.db.relations, row.id ≠ newId) →
    service.calls client = some (.create actorId (canonicalise ⟨x, y, kind⟩)) →
    (step service (.transact client newId orders)).2 = none
  created : ∀ client actorId newId orders,
    service.calls client = some (.create actorId (canonicalise ⟨x, y, kind⟩)) →
    (step service (.transact client newId orders)).2 = none →
    ∃ row ∈ (step service (.transact client newId orders)).1.db.relations,
      row.joins kind x y = true ∧ service.db.bothEndsInPm row = true ∧
        (mapRelation columns row x).id = newId ∧ (mapRelation columns row x).relatedId = y
  refused : (∃ row ∈ service.db.relations, row.joins kind x y = true) → ∀ client actorId newId orders,
    service.calls client = some (.create actorId (canonicalise ⟨x, y, kind⟩)) →
    (step service (.transact client newId orders)).2 = some .relationExists ∧
      (step service (.transact client newId orders)).1.db = service.db
  found : ∀ row ∈ service.db.relations, row.joins kind x y = true → service.db.bothEndsInPm row = true →
    ∀ client actorId, service.calls client = none →
    (step service (.request client (.delete actorId row.id))).1.calls client = some (.delete actorId row)
  removed : ∀ row ∈ service.db.relations, ∀ client actorId newId orders,
    service.calls client = some (.delete actorId row) → (step service (.transact client newId orders)).2 = none
  deleted : ∀ client actorId newId orders row, row.joins kind x y = true →
    service.calls client = some (.delete actorId row) →
    (step service (.transact client newId orders)).2 = none →
    row ∈ service.db.relations ∧
      (∀ other ∈ (step service (.transact client newId orders)).1.db.relations,
        other.id ≠ row.id ∧ other.joins kind x y = false) ∧
      (∀ order item entries, listRelationsFor (step service (.transact client newId orders)).1.db columns
        order item false = .ok entries → ∀ entry ∈ entries, entry.id ≠ row.id) ∧
      ∃ removals, (step service (.transact client newId orders)).1.db.activity =
          service.db.activity ++ removals ∧
        removals.Perm [⟨x, actorId, .relationRemoved, kind, y⟩, ⟨y, actorId, .relationRemoved, kind, x⟩]

theorem related_joined {columns : Columns} (at_ : row ∈ relationsAt db x)
    (related : (mapRelation columns row x).relatedId = y) : row.joins row.kind x y = true := by
  obtain ⟨_, ends, _⟩ := (mem_relationsAt db x row).mp at_
  change (if row.fromId = x then row.toId else row.fromId) = y at related
  refine (row.joins_iff row.kind x y).mpr ⟨rfl, ?_⟩
  split at related
  next same => exact .inl ⟨same, related⟩
  next other => exact .inr ⟨related, ends.resolve_left other⟩

section
variable {used : List String} {service : Service} {kind : RelationKind} {x y : String}

theorem Held.single (held : Held used service) (symmetric : isSymmetricKind kind = true) (x y : String) :
    (service.db.relations.filter fun row => row.joins kind x y).length ≤ 1 := by
  have once : (service.db.relations.filter fun row => row.joins kind x y).Nodup :=
    (held.stored.ids.of_map _).filter _
  cases rows : service.db.relations.filter fun row => row.joins kind x y with
  | nil => simp
  | cons row rest =>
    cases rest with
    | nil => simp
    | cons other rest =>
      have all : ∀ one ∈ row :: other :: rest, one ∈ service.db.relations ∧ one.joins kind x y = true := by
        intro one there
        rw [← rows] at there
        exact List.mem_filter.mp there
      obtain ⟨there, joined⟩ := all row (.head _)
      obtain ⟨too, joined'⟩ := all other (.tail _ (.head _))
      rw [rows, held.stored.joined_eq symmetric there too joined joined'] at once
      exact absurd (List.mem_cons_self ..) (List.nodup_cons.mp once).1

theorem Held.listed (held : Held used service) (symmetric : isSymmetricKind kind = true)
    (columns : Columns) (there : row ∈ service.db.relations) (joined : row.joins kind x y = true)
    (seen : service.db.bothEndsInPm row = true)
    (few : (relationsAt service.db x).length ≤ RELATIONS_PER_ITEM_LIMIT) (order : RowOrder) :
    ∃ entries, listRelationsFor service.db columns order x false = .ok entries ∧
      (∃ entry ∈ entries, entry.id = row.id ∧ entry.kind = kind ∧ entry.direction = .symmetric ∧
        entry.relatedId = y) ∧
      ∀ entry ∈ entries, entry.kind = kind → entry.relatedId = y → entry.id = row.id := by
  obtain ⟨is, ends⟩ := (row.joins_iff kind x y).mp joined
  have inPm : service.db.inPm x = true := by
    obtain ⟨one, other⟩ := Bool.and_eq_true_iff.mp seen
    rcases ends with ⟨from_, _⟩ | ⟨_, to_⟩
    · exact from_ ▸ one
    · exact to_ ▸ other
  have at_ : row ∈ relationsAt service.db x :=
    (mem_relationsAt service.db x row).mpr ⟨there, ends.imp And.left And.right, seen⟩
  have listed : listRelationsFor service.db columns order x false = .ok _ :=
    if_neg (by simp [inPm])
  obtain ⟨from_rows, each⟩ := mem_listRelationsFor listed
  refine ⟨_, listed, ⟨_, each few row at_, rfl, is, ?_, mapRelation_related columns joined⟩, ?_⟩
  · exact if_pos (is ▸ symmetric)
  · intro entry inside same related
    obtain ⟨other, at', rfl⟩ := from_rows entry inside
    have joined' := related_joined at' related
    rw [show other.kind = kind from same] at joined'
    have too := ((mem_relationsAt service.db x other).mp at').1
    rw [held.stored.joined_eq symmetric too there joined' joined]
    rfl

theorem step_asked (service : Service) (kind : RelationKind) (idle : service.calls client = none)
    (actorId : Option String) (apart : x ≠ y) (one : service.db.inPm x = true) (other : service.db.inPm y = true) :
    (step service (.request client (.create actorId ⟨x, y, kind⟩))).1.calls client =
      some (.create actorId (canonicalise ⟨x, y, kind⟩)) := by
  have opened : openCall service.db (.create actorId ⟨x, y, kind⟩) =
      .ok (.create actorId (canonicalise ⟨x, y, kind⟩)) := by
    simp [openCall, openCreate, apart, one, other, Except.map]
  simp only [step, idle, opened]
  exact Function.update_self ..

theorem cycleCheck_symmetric (symmetric : isSymmetricKind kind = true) (db : Database)
    (orders : ℕ → RowOrder) : cycleCheck db orders (canonicalise ⟨x, y, kind⟩) = .ok false :=
  if_pos ((canonicalise_ends ⟨x, y, kind⟩).1 ▸ symmetric)

section

variable (held : Held used service)
include held

theorem Held.create_committed (newId : String) (orders : ℕ → RowOrder)
    (called : service.calls client = some (.create actorId (canonicalise ⟨x, y, kind⟩)))
    (answered : (step service (.transact client newId orders)).2 = none) :
    ∃ row ∈ (step service (.transact client newId orders)).1.db.relations,
      row.joins kind x y = true ∧ service.db.bothEndsInPm row = true ∧
        (mapRelation columns row x).id = newId ∧ (mapRelation columns row x).relatedId = y := by
  obtain ⟨_, one, other⟩ := held.creating client actorId _ called
  have joined := canonicalise_pair kind x y newId actorId
  cases committed : createTransaction service.db orders newId actorId (canonicalise ⟨x, y, kind⟩) with
  | error failure => simp [step, called, transaction, committed] at answered
  | ok db =>
    obtain ⟨_, rfl⟩ := createTransaction_written committed
    refine ⟨_, ?_, joined, Bool.and_eq_true_iff.mpr ⟨one, other⟩, rfl, mapRelation_related columns joined⟩
    simp only [step, called, transaction, committed]
    exact List.mem_append_right _ (.head _)

theorem Held.accepted (symmetric : isSymmetricKind kind = true)
    (unrelated : ∀ row ∈ service.db.relations, row.joins kind x y = false)
    (fresh : ∀ row ∈ service.db.relations, row.id ≠ newId) (orders : ℕ → RowOrder)
    (called : service.calls client = some (.create actorId (canonicalise ⟨x, y, kind⟩))) :
    (step service (.transact client newId orders)).2 = none := by
  obtain ⟨_, one, other⟩ := held.creating client actorId _ called
  have free : service.db.relations.any (fun row => row.id = newId ||
      (row.fromId = (canonicalise ⟨x, y, kind⟩).fromId && row.toId = (canonicalise ⟨x, y, kind⟩).toId &&
        row.kind = (canonicalise ⟨x, y, kind⟩).kind)) = false := by
    rw [List.any_eq_false]
    intro row there same
    simp only [fresh row there, decide_false, Bool.false_or, Bool.and_eq_true, decide_eq_true_eq] at same
    have joined := canonicalise_pair kind x y row.id row.createdById
    rw [← same.1.1, ← same.1.2, ← same.2] at joined
    exact Bool.false_ne_true ((unrelated row there).symm.trans joined)
  simp only [Database.inPm, decide_eq_true_eq] at one other
  simp [step, called, transaction, createTransaction, cycleCheck_symmetric symmetric, free, one, other]

theorem Held.refused (symmetric : isSymmetricKind kind = true)
    (there : row ∈ service.db.relations) (joined : row.joins kind x y = true) (newId : String)
    (orders : ℕ → RowOrder) (called : service.calls client = some (.create actorId (canonicalise ⟨x, y, kind⟩))) :
    (step service (.transact client newId orders)).2 = some .relationExists ∧
      (step service (.transact client newId orders)).1.db = service.db := by
  have is := canonicalise_joined symmetric joined (held.stored.ordered row there)
  have exists_ : service.db.relations.any (fun row => row.id = newId ||
      (row.fromId = (canonicalise ⟨x, y, kind⟩).fromId && row.toId = (canonicalise ⟨x, y, kind⟩).toId &&
        row.kind = (canonicalise ⟨x, y, kind⟩).kind)) = true :=
    List.any_eq_true.mpr ⟨row, there, by simp [is]⟩
  have failed : createTransaction service.db orders newId actorId (canonicalise ⟨x, y, kind⟩) =
      .error .relationExists := by
    simp only [createTransaction, cycleCheck_symmetric symmetric, exists_, if_true]
  simp only [step, called, transaction, failed]
  exact ⟨trivial, rfl⟩

theorem Held.found (there : row ∈ service.db.relations)
    (seen : service.db.bothEndsInPm row = true) (actorId : Option String) (idle : service.calls client = none) :
    (step service (.request client (.delete actorId row.id))).1.calls client = some (.delete actorId row) := by
  have opened : openDelete service.db row.id = .ok row := by
    unfold openDelete
    cases found : service.db.relations.find? fun other => other.id = row.id && service.db.bothEndsInPm other with
    | none =>
      have none_ := List.find?_eq_none.mp found row there
      simp [seen] at none_
    | some other =>
      have passed := List.find?_some found
      rw [Bool.and_eq_true_iff, decide_eq_true_iff] at passed
      rw [held.stored.eq (List.mem_of_find?_eq_some found) there passed.1]
  have called : openCall service.db (.delete actorId row.id) = .ok (.delete actorId row) := by
    simp only [openCall, opened, Except.map]
  simp only [step, idle, called]
  exact Function.update_self ..

theorem Held.delete_committed (symmetric : isSymmetricKind kind = true)
    (columns : Columns) (newId : String) (orders : ℕ → RowOrder) (joined : row.joins kind x y = true)
    (called : service.calls client = some (.delete actorId row))
    (answered : (step service (.transact client newId orders)).2 = none) :
    row ∈ service.db.relations ∧
      (∀ other ∈ (step service (.transact client newId orders)).1.db.relations,
        other.id ≠ row.id ∧ other.joins kind x y = false) ∧
      (∀ order item entries, listRelationsFor (step service (.transact client newId orders)).1.db columns
        order item false = .ok entries → ∀ entry ∈ entries, entry.id ≠ row.id) ∧
      ∃ removals, (step service (.transact client newId orders)).1.db.activity =
          service.db.activity ++ removals ∧
        removals.Perm [⟨x, actorId, .relationRemoved, kind, y⟩, ⟨y, actorId, .relationRemoved, kind, x⟩] := by
  obtain ⟨_, ordered, only⟩ := held.deleting client actorId row called
  cases committed : deleteTransaction service.db actorId row with
  | error failure => simp [step, called, transaction, committed] at answered
  | ok db =>
    obtain ⟨⟨same, inside, id⟩, rfl⟩ := deleteTransaction_written committed
    have there : row ∈ service.db.relations := only same inside id ▸ inside
    simp only [step, called, transaction, committed]
    refine ⟨there, ?_, ?_, _, rfl, ?_⟩
    · intro other kept
      obtain ⟨too, apart⟩ := List.mem_filter.mp kept
      have differs : other.id ≠ row.id := by simpa using apart
      refine ⟨differs, Bool.eq_false_iff.mpr ?_⟩
      intro joined'
      exact differs (congrArg _ (held.stored.joined_eq symmetric too there joined' joined))
    · intro order item entries listed entry kept
      obtain ⟨other, at_, rfl⟩ := (mem_listRelationsFor listed).1 entry kept
      have apart := (List.mem_filter.mp ((mem_relationsAt _ item other).mp at_).1).2
      exact of_decide_eq_true apart
    · obtain ⟨rfl, ends⟩ := (row.joins_iff kind x y).mp joined
      rcases ends with ⟨rfl, rfl⟩ | ⟨rfl, rfl⟩
      · exact .refl _
      · exact .swap ..

theorem Held.oneFact (symmetric : isSymmetricKind kind = true)
    (x y : String) : OneFact columns service kind x y where
  single := held.single symmetric x y
  listed := fun _ there joined seen few order => held.listed symmetric columns there joined seen few order
  asked := fun _ actorId idle apart one other => step_asked service kind idle actorId apart one other
  accepted := fun unrelated _ _ _ orders fresh called => held.accepted symmetric unrelated fresh orders called
  created := fun _ _ newId orders called answered => held.create_committed columns newId orders called answered
  refused := fun ⟨_, there, joined⟩ _ _ newId orders called =>
    held.refused symmetric there joined newId orders called
  found := fun _ there _ seen _ actorId idle => held.found there seen actorId idle
  removed := by
    intro row there client actorId newId orders called
    have there_ : service.db.relations.any (fun other => other.id = row.id) = true :=
      List.any_eq_true.mpr ⟨row, there, by simp⟩
    simp [step, called, transaction, deleteTransaction, there_]
  deleted := fun _ _ newId orders _ joined called answered =>
    held.delete_committed symmetric columns newId orders joined called answered

end

end

/-- A symmetric relation is one fact, in every state that calls of any clients reach: a pair has one row at
most, both ends list it under one id, neither can create it again, and deleting it by that id takes it from
both. The database gives each row an id of its own. -/
theorem symmetric_relation_is_one_fact (columns : Columns) (start : Service)
    (idle : ∀ client, start.calls client = none) (stored : Stored start.db) (events : List Event)
    (fresh : (start.db.relations.map RelationRow.id ++ events.flatMap Event.newIds).Nodup)
    (kind : RelationKind) (symmetric : isSymmetricKind kind = true) (x y : String) :
    canonicalise ⟨y, x, kind⟩ = canonicalise ⟨x, y, kind⟩ ∧
      OneFact columns (run start events) kind x y := by
  have held : Held (start.db.relations.map RelationRow.id) start := by
    refine ⟨stored, fun row there => List.mem_map_of_mem there, ?_, ?_⟩
    · intro client actorId ends called
      rw [idle client] at called
      cases called
    · intro client actorId existing called
      rw [idle client] at called
      cases called
  exact ⟨canonicalise_swap kind symmetric x y, (run_held held events fresh).oneFact columns symmetric x y⟩

def asStored : RowOrder := ⟨fun rows => rows, fun _ => .refl _⟩

/-- One client relates `b` to `a`; another does it the other way round, and then asks for its removal. -/
def relatedTwice : List Event :=
  [.request 0 (.create none ⟨"b", "a", .relates⟩), .transact 0 "r1" (fun _ => asStored),
    .request 1 (.create none ⟨"a", "b", .relates⟩), .transact 1 "r2" (fun _ => asStored),
    .request 1 (.delete none "r1")]

def oneProject : Columns := ⟨fun id => ⟨id, 1, "p", "OPS"⟩, fun _ => 0⟩

theorem related_twice_is_one_fact :
    (run twoItems relatedTwice).db.relations = [⟨"r1", "a", "b", .relates, none⟩] ∧
      OneFact oneProject (run twoItems relatedTwice) .relates "a" "b" ∧
      (step (run twoItems relatedTwice) (.transact 1 "r3" fun _ => asStored)).2 = none ∧
      (run twoItems (relatedTwice ++ [.transact 1 "r3" fun _ => asStored])).db.relations = [] := by
  have stored : Stored twoItems.db := ⟨.nil, nofun, nofun⟩
  have fact := (symmetric_relation_is_one_fact oneProject twoItems (fun _ => rfl) stored relatedTwice
    (by decide) .relates rfl "a" "b").2
  exact ⟨by decide, fact, fact.removed ⟨"r1", "a", "b", .relates, none⟩ (by decide) 1 none _ _ rfl, by decide⟩

end Droplet.Pm.Relations
