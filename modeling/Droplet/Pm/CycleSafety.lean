import Droplet.Pm.Cycles

/-! Completing a cycle strands no open work, in any interleaving of the transactions on the cycles of
a project. -/

namespace Droplet.Pm.Cycles

/-- A status only goes from draft to active and from active to completed. -/
def CycleStatus.forward : CycleStatus → CycleStatus → Bool
  | .draft, .active => true
  | .active, .completed => true
  | before, after => before = after

structure Touched (keys : List RowKey) (row later : CycleRow) : Prop where
  id : later.id = row.id
  projectId : later.projectId = row.projectId
  version : row.version < later.version
  status : row.status.forward later.status = true
  key : .cycle row.id ∈ keys

def CycleIds (db : Database) : Prop := (db.cycles.map CycleRow.id).Nodup

def ItemIds (db : Database) : Prop := (db.items.map ItemRow.id).Nodup

def OneActive (db : Database) : Prop :=
  ∀ row ∈ db.cycles, ∀ other ∈ db.cycles, row.status = .active → other.status = .active →
    row.projectId = other.projectId → row = other

/-- What a commit of a client that holds `keys` leaves of the tables. An item goes into a cycle only
together with a touch of the cycle. -/
structure Change (keys : List RowKey) (db after : Database) : Prop where
  cycleKept : ∀ row ∈ db.cycles, .cycle row.id ∉ keys → row ∈ after.cycles
  cycleCame : ∀ later ∈ after.cycles, later ∈ db.cycles ∨ ∃ row ∈ db.cycles, Touched keys row later
  itemKept : ∀ item ∈ db.items, .item item.id ∉ keys → item ∈ after.items
  itemCame : ∀ item ∈ after.items, item ∈ db.items ∨ ∀ id, item.cycleId = some id →
    ∀ later ∈ after.cycles, later.id = id → later ∉ db.cycles
  cycleIds : CycleIds after
  itemIds : ItemIds after
  oneActive : OneActive after

theorem CycleIds.eq {db : Database} (unique : CycleIds db) {row other : CycleRow}
    (present : row ∈ db.cycles) (found : other ∈ db.cycles) (same : row.id = other.id) : row = other :=
  List.inj_on_of_nodup_map unique present found same

theorem ItemIds.eq {db : Database} (unique : ItemIds db) {item other : ItemRow}
    (present : item ∈ db.items) (found : other ∈ db.items) (same : item.id = other.id) : item = other :=
  List.inj_on_of_nodup_map unique present found same

variable {row : CycleRow}

theorem cycle_some {db : Database} {id : String} (found : db.cycle id = some row) :
    row ∈ db.cycles ∧ row.id = id :=
  ⟨List.mem_of_find?_eq_some found, by simpa using List.find?_some found⟩

theorem loadCycleRow_ok {db : Database} {id : String} (loaded : loadCycleRow db id = .ok row) :
    row ∈ db.cycles ∧ row.id = id := by
  unfold loadCycleRow at loaded
  split at loaded
  next found =>
    split at loaded
    · cases loaded
    · cases loaded
      exact cycle_some found
  next => cases loaded

def holds : Tx → List RowKey
  | .attach _ | .start _ | .complete .. | .delete .. => []
  | .attachLocked a => [.cycle a.cycleId]
  | .attachWritten a => [.cycle a.cycleId, .item a.itemId]
  | .completeClaimed c .. => [.cycle c.cycleId]
  | .completeMoving c _ _ moved _ =>
    .cycle c.cycleId :: c.moveIncompleteTo.toList.map RowKey.cycle ++
      moved.map (fun item => .item item.id)
  | .deleteClaimed _ cycleId | .deleteRead _ cycleId _ => [.cycle cycleId]
  | .deleteLocked _ cycleId _ held => .cycle cycleId :: held.map RowKey.item

def Open (db : Database) (cycleId projectId : String) : Prop :=
  ∃ row ∈ db.cycles, row.id = cycleId ∧ row.projectId = projectId ∧ row.status ≠ .completed

/-- A snapshot taken earlier: where the row of a cycle is still the one of the snapshot, its items
were in it then. -/
structure Earlier (db snapshot : Database) : Prop where
  itemIds : ItemIds snapshot
  versions : ∀ row ∈ snapshot.cycles, ∀ later ∈ db.cycles, row.id = later.id →
    row.version ≤ later.version
  members : ∀ row ∈ snapshot.cycles, row ∈ db.cycles → ∀ item ∈ db.items,
    item.cycleId = some row.id → item ∈ snapshot.items

/-- What `completeCycle` has checked before its first write. -/
structure Checked (db : Database) (c : Completion) (snapshot : Database) (cycle : CycleRow) :
    Prop where
  earlier : Earlier db snapshot
  present : cycle ∈ snapshot.cycles
  id : cycle.id = c.cycleId
  active : cycle.status = .active
  other : c.moveIncompleteTo ≠ some c.cycleId

/-- What `completeCycle` has locked while it moves the items. -/
structure Moving (db : Database) (c : Completion) (snapshot : Database) (cycle : CycleRow)
    (moved unfinished : List ItemRow) : Prop where
  claimed : cycle ∈ db.cycles
  target : ∀ target, c.moveIncompleteTo = some target → Open db target cycle.projectId
  items : moved ++ unfinished = unfinishedItems snapshot c.cycleId
  locked : ∀ item ∈ moved, item ∈ db.items

def TxOk (db : Database) : Tx → Prop
  | .attachLocked a | .attachWritten a => Open db a.cycleId a.projectId
  | .complete c snapshot cycle => Checked db c snapshot cycle
  | .completeClaimed c snapshot cycle => Checked db c snapshot cycle ∧ cycle ∈ db.cycles
  | .completeMoving c snapshot cycle moved unfinished =>
    Checked db c snapshot cycle ∧ Moving db c snapshot cycle moved unfinished
  | _ => True

section others

variable {keys : List RowKey} {db after : Database}

section

variable (change : Change keys db after)
include change

theorem Open.kept {cycleId projectId : String}
    (free : .cycle cycleId ∉ keys) (ok : Open db cycleId projectId) : Open after cycleId projectId := by
  obtain ⟨row, present, rfl, facts⟩ := ok
  exact ⟨row, change.cycleKept row present free, rfl, facts⟩

theorem Earlier.kept {snapshot : Database} (earlier : Earlier db snapshot) : Earlier after snapshot where
  itemIds := earlier.itemIds
  versions := by
    intro row present later found same
    rcases change.cycleCame later found with old | ⟨middle, old, touched⟩
    · exact earlier.versions row present later old same
    · have bound := earlier.versions row present middle old (same.trans touched.id)
      exact le_trans bound (le_of_lt touched.version)
  members := by
    intro row present found item member inside
    -- a row of the snapshot that is there now was there all the time
    have old : row ∈ db.cycles := by
      rcases change.cycleCame row found with old | ⟨middle, old, touched⟩
      · exact old
      · have bound := earlier.versions row present middle old touched.id
        exact absurd touched.version (not_lt.mpr bound)
    rcases change.itemCame item member with same | written
    · exact earlier.members row present old item same inside
    · exact absurd old (written row.id inside row found rfl)

theorem Checked.kept {c : Completion} {snapshot : Database}
    {cycle : CycleRow} (checked : Checked db c snapshot cycle) : Checked after c snapshot cycle :=
  { checked with earlier := checked.earlier.kept change }

theorem TxOk.kept (tx : Tx) (free : ∀ key ∈ holds tx, key ∉ keys) (ok : TxOk db tx) : TxOk after tx := by
  cases tx with
  | attachLocked | attachWritten => exact Open.kept change (free _ (by simp [holds])) ok
  | complete c snapshot cycle => exact Checked.kept change ok
  | completeClaimed c snapshot cycle =>
    obtain ⟨checked, claimed⟩ := ok
    refine ⟨checked.kept change, change.cycleKept cycle claimed ?_⟩
    rw [checked.id]
    exact free _ (by simp [holds])
  | completeMoving c snapshot cycle moved unfinished =>
    obtain ⟨checked, moving⟩ := ok
    refine ⟨checked.kept change, ?_, ?_, moving.items, ?_⟩
    · refine change.cycleKept cycle moving.claimed ?_
      rw [checked.id]
      exact free _ (by simp [holds])
    · intro target named
      exact (moving.target target named).kept change (free _ (by simp [holds, named]))
    · intro item member
      refine change.itemKept item (moving.locked item member) (free _ ?_)
      simp only [holds, List.mem_append, List.mem_map]
      exact .inr ⟨item, member, rfl⟩
  | attach | start | delete | deleteClaimed | deleteRead | deleteLocked => trivial

end

/-- A cycle that is completed, or gone, stays so. -/
def Closed (db : Database) (cycleId : String) : Prop :=
  ∀ row ∈ db.cycles, row.id = cycleId → row.status = .completed

theorem forward_completed {status : CycleStatus}
    (forward : CycleStatus.forward .completed status = true) : status = .completed := by
  cases status with
  | completed => rfl
  | draft | active => simp [CycleStatus.forward] at forward

theorem Closed.kept (change : Change keys db after) {cycleId : String} (closed : Closed db cycleId) :
    Closed after cycleId := by
  intro later found same
  rcases change.cycleCame later found with old | ⟨row, old, touched⟩
  · exact closed later old same
  · have done := closed row old (touched.id.symm.trans same)
    have forward := touched.status
    rw [done] at forward
    exact forward_completed forward

end others

structure Rewrites (keys : List RowKey) (db after : Database) (update : CycleRow → CycleRow) :
    Prop where
  cycles : after.cycles = db.cycles.map update
  each : ∀ row ∈ db.cycles, update row = row ∨ Touched keys row (update row)

def touch (id : String) (update : CycleRow → CycleRow) (row : CycleRow) : CycleRow :=
  if row.id = id then { update row with version := row.version + 1 } else row

section rewrites

variable {keys : List RowKey} {db after : Database} {update : CycleRow → CycleRow}

theorem forward_refl (status : CycleStatus) : status.forward status = true := by
  cases status <;> rfl

theorem touch_ne {id : String} (other : row.id ≠ id) : touch id update row = row :=
  if_neg other

theorem touch_touched {id : String} (same : row.id = id) (sameId : (update row).id = row.id)
    (sameProject : (update row).projectId = row.projectId)
    (forward : row.status.forward (update row).status = true) (key : .cycle id ∈ keys) :
    Touched keys row (touch id update row) := by
  rw [touch, if_pos same]
  exact ⟨sameId, sameProject, Nat.lt_succ_self _, forward, same ▸ key⟩

theorem Touched.fresh (unique : CycleIds db) {row later : CycleRow} (present : row ∈ db.cycles)
    (touched : Touched keys row later) : later ∉ db.cycles := by
  intro found
  have same := unique.eq found present touched.id
  exact absurd touched.version (by simp [same])

section

variable (rewrites : Rewrites keys db after update)
include rewrites

theorem Rewrites.id (present : row ∈ db.cycles) : (update row).id = row.id := by
  rcases rewrites.each row present with same | touched
  · rw [same]
  · exact touched.id

theorem Rewrites.kept (row : CycleRow)
    (present : row ∈ db.cycles) (free : .cycle row.id ∉ keys) : row ∈ after.cycles := by
  rw [rewrites.cycles]
  rcases rewrites.each row present with same | touched
  · exact List.mem_map.mpr ⟨row, present, same⟩
  · exact absurd touched.key free

theorem Rewrites.came (later : CycleRow) (found : later ∈ after.cycles) :
    later ∈ db.cycles ∨ ∃ row ∈ db.cycles, Touched keys row later := by
  rw [rewrites.cycles] at found
  obtain ⟨row, present, rfl⟩ := List.mem_map.mp found
  rcases rewrites.each row present with same | touched
  · exact .inl (same.symm ▸ present)
  · exact .inr ⟨row, present, touched⟩

theorem Rewrites.cycleIds (unique : CycleIds db) : CycleIds after := by
  have same : after.cycles.map CycleRow.id = db.cycles.map CycleRow.id := by
    rw [rewrites.cycles, List.map_map]
    exact List.map_congr_left (fun row present => rewrites.id present)
  rw [CycleIds, same]
  exact unique

theorem Rewrites.fresh (unique : CycleIds db)
    {id : String} (changed : ∀ row ∈ db.cycles, row.id = id → Touched keys row (update row))
    (later : CycleRow) (found : later ∈ after.cycles) (same : later.id = id) : later ∉ db.cycles := by
  rw [rewrites.cycles] at found
  obtain ⟨row, present, rfl⟩ := List.mem_map.mp found
  exact (changed row present ((rewrites.id present).symm.trans same)).fresh unique present

theorem Rewrites.oneActive (one : OneActive db)
    (fewer : ∀ row ∈ db.cycles, (update row).status = .active → row.status = .active) : OneActive after := by
  intro later found other among active second project
  rw [rewrites.cycles] at found among
  obtain ⟨row, present, rfl⟩ := List.mem_map.mp found
  obtain ⟨row', present', rfl⟩ := List.mem_map.mp among
  have projects : ∀ r ∈ db.cycles, (update r).projectId = r.projectId := by
    intro r member
    rcases rewrites.each r member with same | touched
    · rw [same]
    · exact touched.projectId
  rw [projects row present, projects row' present'] at project
  rw [one row present row' present' (fewer row present active) (fewer row' present' second) project]

end

end rewrites

theorem setItems_itemIds {db : Database} (unique : ItemIds db) (ids : List String)
    (update : ItemRow → ItemRow) (same : ∀ item, (update item).id = item.id) :
    ItemIds (db.setItems ids update) := by
  have kept : (db.setItems ids update).items.map ItemRow.id = db.items.map ItemRow.id := by
    rw [Database.setItems, List.map_map]
    refine List.map_congr_left (fun item _ => ?_)
    by_cases inside : item.id ∈ ids
    · simp [inside, same]
    · simp [inside]
  rw [ItemIds, kept]
  exact unique

variable {item : ItemRow}

theorem setItems_kept {db : Database} {ids : List String} {update : ItemRow → ItemRow}
    (present : item ∈ db.items) (free : item.id ∉ ids) : item ∈ (db.setItems ids update).items :=
  List.mem_map.mpr ⟨item, present, if_neg free⟩

theorem setItems_came {db : Database} {ids : List String} {update : ItemRow → ItemRow}
    (found : item ∈ (db.setItems ids update).items) :
    (item ∈ db.items ∧ item.id ∉ ids) ∨ ∃ old ∈ db.items, old.id ∈ ids ∧
      item = { update old with version := old.version + 1 } := by
  obtain ⟨old, present, same⟩ := List.mem_map.mp found
  split at same
  next inside => exact .inr ⟨old, present, inside, same.symm⟩
  next outside => exact .inl ⟨same ▸ present, same ▸ outside⟩

theorem startDone_change {db : Database} (cycleIds : CycleIds db) (itemIds : ItemIds db)
    (one : OneActive db) (present : row ∈ db.cycles) (draft : row.status = .draft)
    (alone : ∀ other ∈ db.cycles, other.projectId = row.projectId → other.status ≠ .active) :
    Change [.cycle row.id] db (db.setCycle row.id (fun row => { row with status := .active })) := by
  have rewrites : Rewrites [.cycle row.id] db (db.setCycle row.id (fun row => { row with status := .active }))
      (touch row.id (fun row => { row with status := .active })) := by
    refine ⟨rfl, ?_⟩
    intro other found
    by_cases same : other.id = row.id
    · have equal := cycleIds.eq found present same
      subst equal
      exact .inr (touch_touched rfl rfl rfl (by simp [draft, CycleStatus.forward]) (by simp))
    · exact .inl (touch_ne same)
  refine ⟨rewrites.kept, rewrites.came, fun item member _ => member, fun item member => .inl member,
    rewrites.cycleIds cycleIds, itemIds, ?_⟩
  intro later found other among active second project
  obtain ⟨first, member, rfl⟩ := List.mem_map.mp found
  obtain ⟨next, member', rfl⟩ := List.mem_map.mp among
  by_cases same : first.id = row.id
  · have equal := cycleIds.eq member present same
    subst equal
    by_cases also : next.id = first.id
    · rw [cycleIds.eq member' member also]
    · simp only [if_neg also] at second project ⊢
      simp only [if_pos] at project
      exact absurd second (alone next member' project.symm)
  · simp only [if_neg same] at active project ⊢
    by_cases also : next.id = row.id
    · have equal := cycleIds.eq member' present also
      subst equal
      simp only [if_pos] at project
      exact absurd active (alone first member project)
    · simp only [if_neg also] at second project ⊢
      exact one first member next member' active second project

theorem touch_status (id : String) (row : CycleRow) : (touch id (fun row => row) row).status = row.status := by
  unfold touch
  split <;> rfl

theorem attachDone_rewrites (db : Database) (a : Attach) :
    Rewrites (holds (.attachWritten a)) db (attachDone db a) (touch a.cycleId (fun row => row)) := by
  refine ⟨?_, ?_⟩
  · unfold attachDone
    split <;> rfl
  · intro row present
    by_cases same : row.id = a.cycleId
    · exact .inr (touch_touched same rfl rfl (forward_refl _) (by simp [holds]))
    · exact .inl (touch_ne same)

theorem attachDone_came (db : Database) (a : Attach) (item : ItemRow)
    (found : item ∈ (attachDone db a).items) : item ∈ db.items ∨ item.cycleId = some a.cycleId := by
  unfold attachDone at found
  split at found
  · rcases setItems_came found with ⟨old, _⟩ | ⟨old, _, _, rfl⟩
    · exact .inl old
    · exact .inr rfl
  · rcases List.mem_append.mp found with old | new
    · exact .inl old
    · rw [List.mem_singleton.mp new]
      exact .inr rfl

theorem attachDone_kept (db : Database) (a : Attach) (item : ItemRow) (present : item ∈ db.items)
    (other : item.id ≠ a.itemId) : item ∈ (attachDone db a).items := by
  unfold attachDone
  split
  · exact setItems_kept present (by simpa using other)
  · exact List.mem_append_left _ present

theorem attachDone_itemIds (db : Database) (a : Attach) (unique : ItemIds db) : ItemIds (attachDone db a) := by
  unfold attachDone
  split
  · have touched : ItemIds (db.setCycle a.cycleId (fun row => row)) := unique
    exact setItems_itemIds touched _ _ (fun _ => rfl)
  next missing =>
    have fresh : a.itemId ∉ db.items.map ItemRow.id := by
      intro found
      obtain ⟨item, present, same⟩ := List.mem_map.mp found
      exact absurd same (by simpa using List.find?_eq_none.mp missing item present)
    change ((db.items ++ [newItem a]).map ItemRow.id).Nodup
    rw [List.map_append, List.nodup_append]
    refine ⟨unique, by simp, ?_⟩
    intro id found other last equal
    rw [List.map_singleton, List.mem_singleton] at last
    rw [equal, last] at found
    exact fresh found

theorem attachDone_change {db : Database} (a : Attach) (cycleIds : CycleIds db)
    (itemIds : ItemIds db) (one : OneActive db) : Change (holds (.attachWritten a)) db (attachDone db a) := by
  have rewrites := attachDone_rewrites db a
  refine ⟨rewrites.kept, rewrites.came, ?_, ?_, rewrites.cycleIds cycleIds,
    attachDone_itemIds db a itemIds, rewrites.oneActive one ?_⟩
  · intro item present free
    refine attachDone_kept db a item present (fun same => free ?_)
    simp [holds, same]
  · intro item found
    rcases attachDone_came db a item found with old | inside
    · exact .inl old
    · refine .inr (fun id member => ?_)
      have same : a.cycleId = id := Option.some.inj (inside.symm.trans member)
      subst same
      refine rewrites.fresh cycleIds ?_
      intro row _ equal
      exact touch_touched equal rfl rfl (forward_refl _) (by simp [holds])
  · intro row _ active
    rw [touch_status] at active
    exact active

/-- The row of a cycle behind `completeCycle`. -/
def completeUpdate (c : Completion) (unfinished : List ItemRow) (row : CycleRow) : CycleRow :=
  let claimed := touch c.cycleId (fun row =>
    { row with
      status := .completed
      carriedOverCount := (unfinished.filter (fun item => !item.isArchived)).length }) row
  match c.moveIncompleteTo with
  | none => claimed
  | some target => touch target (fun row => row) claimed

section complete

variable {db snapshot : Database} {c : Completion} {cycle : CycleRow}
variable {moved unfinished : List ItemRow}

theorem completeDone_cycles : (completeDone db c moved).cycles = db.cycles.map (completeUpdate c moved) := by
  unfold completeDone completeUpdate
  cases c.moveIncompleteTo with
  | none => rfl
  | some target =>
    change List.map _ (List.map _ db.cycles) = _
    rw [List.map_map]
    rfl

theorem completeUpdate_claimed (other : c.moveIncompleteTo ≠ some c.cycleId) (row : CycleRow)
    (same : row.id = c.cycleId) : completeUpdate c moved row = touch c.cycleId (fun row =>
      { row with
        status := .completed
        carriedOverCount := (moved.filter (fun item => !item.isArchived)).length }) row := by
  unfold completeUpdate
  cases named : c.moveIncompleteTo with
  | none => rfl
  | some target =>
    refine touch_ne (fun equal => other ?_)
    rw [named, ← equal, touch, if_pos same, ← same]

theorem completeUpdate_target (row : CycleRow) (apart : row.id ≠ c.cycleId)
    (same : c.moveIncompleteTo = some row.id) :
    completeUpdate c moved row = touch row.id (fun row => row) row := by
  unfold completeUpdate
  rw [same, touch_ne apart]

theorem completeUpdate_other (row : CycleRow) (apart : row.id ≠ c.cycleId)
    (different : c.moveIncompleteTo ≠ some row.id) : completeUpdate c moved row = row := by
  unfold completeUpdate
  rw [touch_ne apart]
  cases named : c.moveIncompleteTo with
  | none => rfl
  | some target => exact touch_ne (fun equal => different (by rw [named, equal]))

theorem completeUpdate_cases (unfinished : List ItemRow) (cycleIds : CycleIds db)
    (checked : Checked db c snapshot cycle) (claimed : cycle ∈ db.cycles) (row : CycleRow)
    (present : row ∈ db.cycles) :
    (row.id = c.cycleId ∧ (completeUpdate c moved row).status = .completed ∧
      Touched (holds (.completeMoving c snapshot cycle moved unfinished)) row
        (completeUpdate c moved row)) ∨
    (row.id ≠ c.cycleId ∧ c.moveIncompleteTo = some row.id ∧
      (completeUpdate c moved row).status = row.status ∧
      Touched (holds (.completeMoving c snapshot cycle moved unfinished)) row
        (completeUpdate c moved row)) ∨
    (row.id ≠ c.cycleId ∧ c.moveIncompleteTo ≠ some row.id ∧ completeUpdate c moved row = row) := by
  by_cases same : row.id = c.cycleId
  · left
    have active : row.status = .active := by
      rw [cycleIds.eq present claimed (same.trans checked.id.symm), checked.active]
    rw [completeUpdate_claimed checked.other row same]
    refine ⟨same, by rw [touch, if_pos same], ?_⟩
    exact touch_touched same rfl rfl (by simp [active, CycleStatus.forward]) (by simp [holds])
  · right
    by_cases named : c.moveIncompleteTo = some row.id
    · left
      rw [completeUpdate_target row same named]
      refine ⟨same, named, touch_status _ _, ?_⟩
      exact touch_touched rfl rfl rfl (forward_refl _) (by simp [holds, named])
    · exact .inr ⟨same, named, completeUpdate_other row same named⟩

theorem completeDone_rewrites (cycleIds : CycleIds db) (checked : Checked db c snapshot cycle)
    (claimed : cycle ∈ db.cycles) :
    Rewrites (holds (.completeMoving c snapshot cycle moved unfinished)) db (completeDone db c moved)
      (completeUpdate c moved) := by
  refine ⟨completeDone_cycles, ?_⟩
  intro row present
  rcases completeUpdate_cases unfinished cycleIds checked claimed row present with
    ⟨_, _, touched⟩ | ⟨_, _, _, touched⟩ | ⟨_, _, same⟩
  · exact .inr touched
  · exact .inr touched
  · exact .inl same

theorem completeDone_items :
    (completeDone db c moved).items = (db.setItems (moved.map ItemRow.id) (fun item =>
      { item with cycleId := c.moveIncompleteTo })).items := by
  unfold completeDone
  cases c.moveIncompleteTo <;> rfl

theorem completeDone_itemIds (itemIds : ItemIds db) : ItemIds (completeDone db c moved) := by
  rw [ItemIds, completeDone_items]
  exact setItems_itemIds itemIds _ _ (fun _ => rfl)

theorem completeDone_change (cycleIds : CycleIds db) (itemIds : ItemIds db) (one : OneActive db)
    (checked : Checked db c snapshot cycle) (claimed : cycle ∈ db.cycles) :
    Change (holds (.completeMoving c snapshot cycle moved unfinished)) db
      (completeDone db c moved) := by
  have rewrites : Rewrites (holds (.completeMoving c snapshot cycle moved unfinished)) db
      (completeDone db c moved) (completeUpdate c moved) :=
    completeDone_rewrites cycleIds checked claimed
  refine ⟨rewrites.kept, rewrites.came, ?_, ?_, rewrites.cycleIds cycleIds,
    completeDone_itemIds itemIds, rewrites.oneActive one ?_⟩
  · intro item present free
    rw [completeDone_items]
    refine setItems_kept present (fun inside => free ?_)
    obtain ⟨old, member, same⟩ := List.mem_map.mp inside
    simp only [holds, List.mem_append, List.mem_map]
    exact .inr ⟨old, member, by rw [same]⟩
  · intro item found
    rw [completeDone_items] at found
    rcases setItems_came found with ⟨old, _⟩ | ⟨old, _, _, rfl⟩
    · exact .inl old
    · refine .inr (fun id named => rewrites.fresh cycleIds ?_)
      intro row present same
      change c.moveIncompleteTo = some id at named
      rcases completeUpdate_cases unfinished cycleIds checked claimed row present with
        ⟨_, _, touched⟩ | ⟨_, _, _, touched⟩ | ⟨_, different, _⟩
      · exact touched
      · exact touched
      · exact absurd (same ▸ named) different
  · intro row present active
    rcases completeUpdate_cases unfinished cycleIds checked claimed row present with
      ⟨_, done, _⟩ | ⟨_, _, same, _⟩ | ⟨_, _, same⟩
    · rw [done] at active
      cases active
    all_goals
      rw [same] at active
      exact active

end complete

theorem deleteDone_change {db : Database} (actorId : Option String) (cycleId : String)
    (members held : List String) (cycleIds : CycleIds db) (itemIds : ItemIds db)
    (one : OneActive db) : Change (holds (.deleteLocked actorId cycleId members held)) db
      (deleteDone db actorId cycleId members held) := by
  have sub : ∀ row ∈ (deleteDone db actorId cycleId members held).cycles, row ∈ db.cycles :=
    fun row found => List.mem_of_mem_filter found
  refine ⟨?_, fun row found => .inl (sub row found), ?_, ?_, ?_, ?_, ?_⟩
  · intro row present free
    refine List.mem_filter.mpr ⟨present, ?_⟩
    refine decide_eq_true (fun same => free ?_)
    simp [holds, same]
  · intro item present free
    refine setItems_kept present (fun inside => free ?_)
    simp [holds, inside]
  · intro item found
    rcases setItems_came found with ⟨old, _⟩ | ⟨old, _, _, rfl⟩
    · exact .inl old
    · exact .inr (fun id named => by cases named)
  · exact List.Nodup.sublist (List.Sublist.map _ List.filter_sublist) cycleIds
  · exact setItems_itemIds itemIds _ _ (fun _ => rfl)
  · intro row found other among
    exact one row (sub row found) other (sub other among)

structure Inv (system : System) : Prop where
  cycleIds : CycleIds system.db
  itemIds : ItemIds system.db
  oneActive : OneActive system.db
  held : ∀ client tx, system.txs client = some tx → ∀ key ∈ holds tx, system.locks key = some client
  known : ∀ client tx, system.txs client = some tx → TxOk system.db tx

/-- What a step can do. -/
inductive Progress (system : System) : System → Prop where
  | refused : Progress system system
  | ended (client : ℕ) : Progress system (system.release client)
  | went (client : ℕ) (keys : List RowKey) (tx : Tx)
      (free : ∀ key ∈ keys, system.free client key = true)
      (held : ∀ key ∈ holds tx, key ∈ keys ∨ system.locks key = some client)
      (known : TxOk system.db tx) :
      Progress system ((system.lock client keys).setTx client (some tx))
  | committed (client : ℕ) (keys : List RowKey) (db : Database)
      (free : ∀ key ∈ keys, system.free client key = true) (change : Change keys system.db db) :
      Progress system ({ system with db := db }.release client)

theorem free_iff (system : System) (client : ℕ) (key : RowKey) :
    system.free client key = true ↔ system.locks key = none ∨ system.locks key = some client := by
  simp [System.free]

theorem free_other {system : System} {client other : ℕ} {key : RowKey}
    (free : system.free client key = true) (apart : other ≠ client) : system.locks key ≠ some other := by
  rcases (free_iff system client key).mp free with unlocked | own
  · simp [unlocked]
  · simp [own, Ne.symm apart]

theorem Inv.release {system : System} (inv : Inv system) (client : ℕ) : Inv (system.release client) := by
  refine { inv with held := ?_, known := ?_ }
  · intro other tx running key member
    by_cases same : other = client
    · simp [System.release, same] at running
    · have before : system.txs other = some tx := by
        simpa [System.release, Function.update_of_ne same] using running
      have locked := inv.held other tx before key member
      simp [System.release, locked, same]
  · intro other tx running
    by_cases same : other = client
    · simp [System.release, same] at running
    · refine inv.known other tx ?_
      simpa [System.release, Function.update_of_ne same] using running

theorem Inv.go {system : System} (inv : Inv system) (client : ℕ) (keys : List RowKey) (tx : Tx)
    (free : ∀ key ∈ keys, system.free client key = true)
    (held : ∀ key ∈ holds tx, key ∈ keys ∨ system.locks key = some client)
    (known : TxOk system.db tx) : Inv ((system.lock client keys).setTx client (some tx)) := by
  refine { inv with held := ?_, known := ?_ }
  · intro other running found key member
    by_cases same : other = client
    · have equal : running = tx := by simpa [System.setTx, same] using found.symm
      subst same equal
      rcases held key member with locked | own
      · simp [System.setTx, System.lock, locked]
      · simp [System.setTx, System.lock, own]
    · have before : system.txs other = some running := by
        simpa [System.setTx, System.lock, Function.update_of_ne same] using found
      have locked := inv.held other running before key member
      have apart : key ∉ keys := fun inside => free_other (free key inside) same locked
      simp [System.setTx, System.lock, apart, locked]
  · intro other running found
    by_cases same : other = client
    · have equal : running = tx := by simpa [System.setTx, same] using found.symm
      rw [equal]
      exact known
    · refine inv.known other running ?_
      simpa [System.setTx, System.lock, Function.update_of_ne same] using found

theorem Inv.commit {system : System} (inv : Inv system) (client : ℕ) (keys : List RowKey)
    (db : Database) (free : ∀ key ∈ keys, system.free client key = true)
    (change : Change keys system.db db) : Inv ({ system with db := db }.release client) := by
  have released := inv.release client
  refine ⟨change.cycleIds, change.itemIds, change.oneActive, released.held, ?_⟩
  intro other tx running
  by_cases same : other = client
  · simp [System.release, same] at running
  · have before : system.txs other = some tx := by
      simpa [System.release, Function.update_of_ne same] using running
    refine (inv.known other tx before).kept change tx ?_
    intro key member inside
    exact free_other (free key inside) same (inv.held other tx before key member)

theorem Inv.progress {system next : System} (inv : Inv system) (progress : Progress system next) : Inv next := by
  cases progress with
  | refused => exact inv
  | ended client => exact inv.release client
  | went client keys tx free held known => exact inv.go client keys tx free held known
  | committed client keys db free change => exact inv.commit client keys db free change

section steps

variable {system next : System} {client : ℕ} {failure : Option PlanningError}

theorem go_progress {keys : List RowKey} {tx : Tx} (taken : system.go client keys tx = some (next, failure))
    (free : ∀ key ∈ keys, system.free client key = true)
    (held : ∀ key ∈ holds tx, key ∈ keys ∨ system.locks key = some client)
    (known : TxOk system.db tx) : Progress system next := by
  obtain ⟨rfl, _⟩ := Prod.mk.inj (Option.some.inj taken)
  exact .went client keys tx free held known

theorem fail_progress {error : PlanningError}
    (taken : system.fail client error = some (next, failure)) : Progress system next := by
  obtain ⟨rfl, _⟩ := Prod.mk.inj (Option.some.inj taken)
  exact .ended client

theorem commit_progress {keys : List RowKey} {db : Database}
    (taken : system.commit client db = some (next, failure))
    (free : ∀ key ∈ keys, system.free client key = true) (change : Change keys system.db db) :
    Progress system next := by
  obtain ⟨rfl, _⟩ := Prod.mk.inj (Option.some.inj taken)
  exact .committed client keys db free change

theorem refused_progress {error : PlanningError}
    (taken : some (system, some error) = some (next, failure)) : Progress system next := by
  obtain ⟨rfl, _⟩ := Prod.mk.inj (Option.some.inj taken)
  exact .refused

theorem Earlier.refl {db : Database} (cycleIds : CycleIds db) (itemIds : ItemIds db) : Earlier db db where
  itemIds := itemIds
  versions := by
    intro row present later found same
    rw [cycleIds.eq present found same]
  members := by
    intro row _ _ item member _
    exact member

theorem begin_progress (inv : Inv system) (call : Call)
    (taken : begin system client call = some (next, failure)) : Progress system next := by
  cases call with
  | attach a => exact go_progress taken (by simp) (by simp [holds]) trivial
  | start | delete =>
    simp only [begin] at taken
    split at taken
    · exact refused_progress taken
    · exact go_progress taken (by simp) (by simp [holds]) trivial
  | complete c =>
    simp only [begin] at taken
    split at taken
    · exact refused_progress taken
    next cycle loaded =>
      obtain ⟨present, id⟩ := loadCycleRow_ok loaded
      split at taken
      · exact refused_progress taken
      next active =>
        split at taken
        · exact refused_progress taken
        next other =>
          refine go_progress taken (by simp) (by simp [holds]) ?_
          exact ⟨Earlier.refl inv.cycleIds inv.itemIds, present, id, not_not.mp active, other⟩

theorem free_of_held (inv : Inv system) {tx : Tx} (running : system.txs client = some tx)
    (key : RowKey) (member : key ∈ holds tx) : system.free client key = true :=
  (free_iff system client key).mpr (.inr (inv.held client tx running key member))

theorem attachable_iff (projectId : String) (row : CycleRow) :
    attachable projectId row = true ↔ row.projectId = projectId ∧ row.status ≠ .completed := by
  simp [attachable]

theorem attach_progress (inv : Inv system) (a : Attach) {tx : Tx} (running : system.txs client = some tx)
    (phase : tx = .attach a ∨ tx = .attachLocked a ∨ tx = .attachWritten a)
    (taken : act system client tx = some (next, failure)) : Progress system next := by
  rcases phase with rfl | rfl | rfl
  · simp only [act] at taken
    split at taken
    next free =>
      split at taken
      next row found =>
        split at taken
        next fits =>
          obtain ⟨present, same⟩ := cycle_some found
          refine go_progress taken (by simpa using free) (by simp [holds]) ?_
          exact ⟨row, present, same, (attachable_iff a.projectId row).mp fits⟩
        next => exact fail_progress taken
      next => exact fail_progress taken
    next => cases taken
  · have known := inv.known client _ running
    have held := inv.held client _ running
    simp only [act] at taken
    split at taken
    next free =>
      refine go_progress taken (by simpa using free) ?_ known
      simpa [holds] using held
    next => cases taken
  · refine commit_progress taken (free_of_held inv running) ?_
    exact attachDone_change a inv.cycleIds inv.itemIds inv.oneActive

theorem start_progress (inv : Inv system) (cycleId : String)
    (taken : act system client (.start cycleId) = some (next, failure)) : Progress system next := by
  simp only [act] at taken
  split at taken
  next free =>
    split at taken
    · exact fail_progress taken
    next row found =>
      obtain ⟨present, rfl⟩ := cycle_some found
      split at taken
      · exact fail_progress taken
      next draft =>
        split at taken
        · split at taken
          · exact fail_progress taken
          · cases taken
        next alone =>
          have change := startDone_change inv.cycleIds inv.itemIds inv.oneActive present
            (not_not.mp draft) (by
              intro other member project active
              exact List.find?_eq_none.mp alone other member (by simp [project, active]))
          exact commit_progress taken (by simpa using free) change
  next => cases taken

section complete

variable {c : Completion} {snapshot : Database} {cycle : CycleRow}

theorem complete_progress (inv : Inv system) (running : system.txs client = some (.complete c snapshot cycle))
    (taken : act system client (.complete c snapshot cycle) = some (next, failure)) : Progress system next := by
  have checked : Checked system.db c snapshot cycle := inv.known client _ running
  simp only [act] at taken
  split at taken
  next free =>
    split at taken
    next same =>
      refine go_progress taken (by simpa using free) (by simp [holds]) ?_
      exact ⟨checked, by simpa [unchangedCycle] using same⟩
    next => exact fail_progress taken
  next => cases taken

theorem completeClaimed_progress (inv : Inv system)
    (running : system.txs client = some (.completeClaimed c snapshot cycle))
    (taken : act system client (.completeClaimed c snapshot cycle) = some (next, failure)) :
    Progress system next := by
  obtain ⟨checked, claimed⟩ :
      Checked system.db c snapshot cycle ∧ cycle ∈ system.db.cycles := inv.known client _ running
  have held := inv.held client _ running (.cycle c.cycleId) (by simp [holds])
  simp only [act] at taken
  split at taken
  next backlog =>
    refine go_progress taken (by simp) (by simp [holds, backlog, held]) ⟨checked, claimed, ?_, rfl, ?_⟩
    · intro target named
      rw [backlog] at named
      cases named
    · intro item member
      cases member
  next target named =>
    split at taken
    · exact fail_progress taken
    next row found =>
      split at taken
      next fits =>
        split at taken
        next free =>
          split at taken
          next same =>
            obtain ⟨project, unfinished⟩ := (attachable_iff cycle.projectId row).mp fits
            refine go_progress taken (by simpa using free) (by simp [holds, named, held])
              ⟨checked, claimed, ?_, rfl, ?_⟩
            · intro other equal
              have equal : target = other := Option.some.inj (named.symm.trans equal)
              rw [← equal]
              exact ⟨row, by simpa [unchangedCycle] using same, (cycle_some found).2, project, unfinished⟩
            · intro item member
              cases member
          next => exact fail_progress taken
        next => cases taken
      next => exact fail_progress taken

theorem completeMoving_progress (inv : Inv system) {moved unfinished : List ItemRow}
    (running : system.txs client = some (.completeMoving c snapshot cycle moved unfinished))
    (taken : act system client (.completeMoving c snapshot cycle moved unfinished) =
      some (next, failure)) : Progress system next := by
  obtain ⟨checked, moving⟩ : Checked system.db c snapshot cycle ∧
    Moving system.db c snapshot cycle moved unfinished := inv.known client _ running
  have held := inv.held client _ running
  cases unfinished with
  | nil =>
    refine commit_progress taken (free_of_held inv running) ?_
    exact completeDone_change inv.cycleIds inv.itemIds inv.oneActive checked moving.claimed
  | cons item rest =>
    simp only [act] at taken
    split at taken
    next free =>
      split at taken
      next same =>
        refine go_progress taken (by simpa using free) ?_ ⟨checked, { moving with
          items := ?_, locked := ?_ }⟩
        · intro key member
          simp only [holds, List.map_append, ← List.append_assoc] at member
          rcases List.mem_append.mp member with old | new
          · exact .inr (held key old)
          · exact .inl (by simpa using new)
        · rw [List.append_assoc]
          exact moving.items
        · intro row member
          rcases List.mem_append.mp member with old | new
          · exact moving.locked row old
          · rw [List.mem_singleton.mp new]
            simpa [unchangedItem] using same
      next => exact fail_progress taken
    next => cases taken

end complete

theorem delete_progress (inv : Inv system) (actorId : Option String) (cycleId : String) {tx : Tx}
    (running : system.txs client = some tx)
    (phase : tx = .delete actorId cycleId ∨ tx = .deleteClaimed actorId cycleId ∨
      (∃ members, tx = .deleteRead actorId cycleId members) ∨
      ∃ members held, tx = .deleteLocked actorId cycleId members held)
    (taken : act system client tx = some (next, failure)) : Progress system next := by
  have held := inv.held client _ running
  rcases phase with rfl | rfl | ⟨members, rfl⟩ | ⟨members, locked, rfl⟩
  · simp only [act] at taken
    split at taken
    next free =>
      split at taken
      · exact fail_progress taken
      · exact go_progress taken (by simpa using free) (by simp [holds]) trivial
    next => cases taken
  · refine go_progress taken (by simp) ?_ trivial
    intro key member
    exact .inr (held key member)
  · simp only [act] at taken
    split at taken
    next free =>
      refine go_progress taken ?_ ?_ trivial
      · intro key member
        obtain ⟨id, inside, rfl⟩ := List.mem_map.mp member
        exact List.all_eq_true.mp free id inside
      · intro key member
        rcases List.mem_cons.mp member with rfl | inside
        · exact .inr (held _ (by simp [holds]))
        · exact .inl inside
    next => cases taken
  · refine commit_progress taken (free_of_held inv running) ?_
    exact deleteDone_change actorId cycleId members locked inv.cycleIds inv.itemIds inv.oneActive

theorem act_progress (inv : Inv system) (tx : Tx) (running : system.txs client = some tx)
    (taken : act system client tx = some (next, failure)) : Progress system next := by
  cases tx with
  | attach a => exact attach_progress inv a running (.inl rfl) taken
  | attachLocked a => exact attach_progress inv a running (.inr (.inl rfl)) taken
  | attachWritten a => exact attach_progress inv a running (.inr (.inr rfl)) taken
  | start cycleId => exact start_progress inv cycleId taken
  | complete c snapshot cycle => exact complete_progress inv running taken
  | completeClaimed c snapshot cycle => exact completeClaimed_progress inv running taken
  | completeMoving c snapshot cycle moved unfinished =>
    exact completeMoving_progress inv running taken
  | delete actorId cycleId => exact delete_progress inv actorId cycleId running (.inl rfl) taken
  | deleteClaimed actorId cycleId =>
    exact delete_progress inv actorId cycleId running (.inr (.inl rfl)) taken
  | deleteRead actorId cycleId members =>
    exact delete_progress inv actorId cycleId running (.inr (.inr (.inl ⟨members, rfl⟩))) taken
  | deleteLocked actorId cycleId members held =>
    exact delete_progress inv actorId cycleId running (.inr (.inr (.inr ⟨members, held, rfl⟩))) taken

theorem step_progress (inv : Inv system) (event : Event)
    (taken : step system event = some (next, failure)) : Progress system next := by
  cases event with
  | begin client call =>
    simp only [step] at taken
    split at taken
    · cases taken
    · exact begin_progress inv call taken
  | act client =>
    obtain ⟨tx, running, acted⟩ := Option.bind_eq_some_iff.mp taken
    exact act_progress inv tx running acted
  | abort client =>
    obtain ⟨rfl, _⟩ := Prod.mk.inj (Option.some.inj taken)
    exact .ended client

end steps

theorem run_kept {P : System → Prop} (kept : ∀ system next, Inv system → P system → Progress system next → P next)
    (events : List Event) {system final : System} (inv : Inv system) (holds : P system)
    (reached : run system events = some final) : Inv final ∧ P final := by
  induction events generalizing system with
  | nil =>
    cases reached
    exact ⟨inv, holds⟩
  | cons event events ih =>
    obtain ⟨⟨next, failure⟩, taken, rest⟩ := Option.bind_eq_some_iff.mp reached
    have progress := step_progress inv event taken
    exact ih (inv.progress progress) (kept system next inv holds progress) rest

theorem closed_kept {cycleId : String} (system next : System) (_ : Inv system)
    (closed : Closed system.db cycleId) (progress : Progress system next) : Closed next.db cycleId := by
  cases progress with
  | refused | ended | went => exact closed
  | committed client keys db free change => exact closed.kept change

/-- No status goes back between two states of the tables, and none skips one. -/
def StatusesForward (db after : Database) : Prop :=
  ∀ row ∈ db.cycles, ∀ later ∈ after.cycles, later.id = row.id →
    row.status.forward later.status = true

theorem statusesForward_refl {db : Database} (cycleIds : CycleIds db) : StatusesForward db db := by
  intro row present later found same
  rw [cycleIds.eq found present same]
  exact forward_refl _

theorem Change.statusesForward {keys : List RowKey} {db after : Database}
    (change : Change keys db after) (cycleIds : CycleIds db) : StatusesForward db after := by
  intro row present later found same
  rcases change.cycleCame later found with old | ⟨before, old, touched⟩
  · exact statusesForward_refl cycleIds row present later old same
  · rw [cycleIds.eq present old (same.symm.trans touched.id)]
    exact touched.status

theorem Progress.statusesForward {system next : System} (inv : Inv system)
    (progress : Progress system next) : StatusesForward system.db next.db := by
  cases progress with
  | refused | ended | went => exact statusesForward_refl inv.cycleIds
  | committed client keys db free change => exact change.statusesForward inv.cycleIds

theorem filter_id {items : List ItemRow} (unique : (items.map ItemRow.id).Nodup)
    (member : item ∈ items) : items.filter (fun other => other.id = item.id) = [item] := by
  induction items with
  | nil => cases member
  | cons head tail ih =>
    obtain ⟨fresh, unique⟩ := List.nodup_cons.mp unique
    rcases List.mem_cons.mp member with rfl | inside
    · have rest : tail.filter (fun other => other.id = item.id) = [] := by
        refine List.filter_eq_nil_iff.mpr (fun other found => ?_)
        have apart : other.id ≠ item.id := fun same => fresh (same ▸ List.mem_map_of_mem found)
        simpa using apart
      simp [rest]
    · have apart : head.id ≠ item.id := fun same => fresh (same ▸ List.mem_map_of_mem inside)
      simp [apart, ih unique inside]

/-- What a `completeCycle` has to leave: no open item in the cycle, each of them in the target or in
none with one activity row, everything else as it was. -/
structure MovedOut (db after : Database) (c : Completion) : Prop where
  emptied : ∀ item ∈ after.items, item.cycleId = some c.cycleId → item.isCompleted = true
  closed : ∃ done ∈ after.cycles, done.id = c.cycleId ∧ done.status = .completed ∧
    ∀ target, c.moveIncompleteTo = some target → ∃ row ∈ after.cycles,
      row.id = target ∧ row.projectId = done.projectId ∧ row.status ≠ .completed
  logged : ∃ logged, after.activity = db.activity ++ logged ∧ ∀ item ∈ db.items,
    if item.cycleId = some c.cycleId ∧ item.isCompleted = false then
      { item with cycleId := c.moveIncompleteTo, version := item.version + 1 } ∈ after.items ∧
        logged.filter (fun row => row.workItemId = item.id) = [movedActivity c item]
    else item ∈ after.items ∧ logged.filter (fun row => row.workItemId = item.id) = []

section complete

variable {db snapshot : Database} {c : Completion} {cycle : CycleRow} {moved : List ItemRow}

theorem Moving.mem_iff (checked : Checked db c snapshot cycle)
    (moving : Moving db c snapshot cycle moved []) (item : ItemRow) (present : item ∈ db.items) :
    item ∈ moved ↔ item.cycleId = some c.cycleId ∧ item.isCompleted = false := by
  have all : moved = unfinishedItems snapshot c.cycleId := by
    simpa using moving.items
  rw [all, unfinishedItems, List.mem_filter]
  constructor
  · intro inside
    simpa using inside.2
  · intro facts
    have named : item.cycleId = some cycle.id := by rw [checked.id, facts.1]
    refine ⟨checked.earlier.members cycle checked.present moving.claimed item present named, ?_⟩
    simp [facts.1, facts.2]

theorem Moving.unique (checked : Checked db c snapshot cycle)
    (moving : Moving db c snapshot cycle moved []) : (moved.map ItemRow.id).Nodup := by
  have all : moved = unfinishedItems snapshot c.cycleId := by
    simpa using moving.items
  rw [all, unfinishedItems]
  exact List.Nodup.sublist (List.Sublist.map _ List.filter_sublist) checked.earlier.itemIds

theorem Moving.id_iff (itemIds : ItemIds db) (checked : Checked db c snapshot cycle)
    (moving : Moving db c snapshot cycle moved []) (item : ItemRow) (present : item ∈ db.items) :
    item.id ∈ moved.map ItemRow.id ↔ item.cycleId = some c.cycleId ∧ item.isCompleted = false := by
  rw [← moving.mem_iff checked item present, List.mem_map]
  constructor
  · intro found
    obtain ⟨other, inside, same⟩ := found
    rw [← itemIds.eq (moving.locked other inside) present same]
    exact inside
  · intro inside
    exact ⟨item, inside, rfl⟩

theorem Moving.emptied (itemIds : ItemIds db) (checked : Checked db c snapshot cycle)
    (moving : Moving db c snapshot cycle moved []) (item : ItemRow)
    (found : item ∈ (completeDone db c moved).items) (inside : item.cycleId = some c.cycleId) :
    item.isCompleted = true := by
  rw [completeDone_items] at found
  rcases setItems_came found with ⟨present, apart⟩ | ⟨old, _, _, rfl⟩
  · rw [moving.id_iff itemIds checked item present] at apart
    by_contra unfinished
    exact apart ⟨inside, by simpa using unfinished⟩
  · exact absurd inside checked.other

theorem Moving.closed (cycleIds : CycleIds db) (checked : Checked db c snapshot cycle)
    (moving : Moving db c snapshot cycle moved []) :
    ∃ done ∈ (completeDone db c moved).cycles, done.id = c.cycleId ∧ done.status = .completed ∧
      ∀ target, c.moveIncompleteTo = some target → ∃ row ∈ (completeDone db c moved).cycles,
        row.id = target ∧ row.projectId = done.projectId ∧ row.status ≠ .completed := by
  have member : ∀ row ∈ db.cycles, completeUpdate c moved row ∈ (completeDone db c moved).cycles := by
    intro row present
    rw [completeDone_cycles]
    exact List.mem_map_of_mem present
  refine ⟨completeUpdate c moved cycle, member cycle moving.claimed, ?_⟩
  rcases completeUpdate_cases [] cycleIds checked moving.claimed cycle moving.claimed with
    ⟨_, done, touched⟩ | ⟨apart, _⟩ | ⟨apart, _⟩
  · refine ⟨touched.id.trans checked.id, done, ?_⟩
    intro target named
    obtain ⟨row, present, rfl, project, unfinished⟩ := moving.target target named
    refine ⟨completeUpdate c moved row, member row present, ?_⟩
    rcases completeUpdate_cases [] cycleIds checked moving.claimed row present with
      ⟨same, _⟩ | ⟨_, _, status, later⟩ | ⟨_, different, _⟩
    · exact absurd (same ▸ named) checked.other
    · rw [later.id, later.projectId, touched.projectId, status]
      exact ⟨rfl, project, unfinished⟩
    · exact absurd named different
  · exact absurd checked.id apart
  · exact absurd checked.id apart

theorem filter_logged (item : ItemRow) :
    (moved.map (movedActivity c)).filter (fun row => row.workItemId = item.id) =
      (moved.filter (fun other => other.id = item.id)).map (movedActivity c) := by
  rw [List.filter_map]
  rfl

theorem Moving.logged (itemIds : ItemIds db) (checked : Checked db c snapshot cycle)
    (moving : Moving db c snapshot cycle moved []) (item : ItemRow) (present : item ∈ db.items) :
    if item.cycleId = some c.cycleId ∧ item.isCompleted = false then
      { item with cycleId := c.moveIncompleteTo, version := item.version + 1 } ∈
          (completeDone db c moved).items ∧
        (moved.map (movedActivity c)).filter (fun row => row.workItemId = item.id) =
          [movedActivity c item]
    else item ∈ (completeDone db c moved).items ∧
      (moved.map (movedActivity c)).filter (fun row => row.workItemId = item.id) = [] := by
  rw [completeDone_items, filter_logged]
  split
  next facts =>
    have inside := (moving.mem_iff checked item present).mpr facts
    refine ⟨List.mem_map.mpr ⟨item, present, if_pos (List.mem_map_of_mem inside)⟩, ?_⟩
    rw [filter_id (moving.unique checked) inside, List.map_singleton]
  next other =>
    have apart := fun inside => other ((moving.id_iff itemIds checked item present).mp inside)
    refine ⟨setItems_kept present apart, ?_⟩
    rw [List.map_eq_nil_iff, List.filter_eq_nil_iff]
    intro row found same
    refine apart (List.mem_map.mpr ⟨row, found, ?_⟩)
    simpa using same

theorem Moving.movedOut (cycleIds : CycleIds db) (itemIds : ItemIds db)
    (checked : Checked db c snapshot cycle) (moving : Moving db c snapshot cycle moved []) :
    MovedOut db (completeDone db c moved) c where
  emptied := moving.emptied itemIds checked
  closed := moving.closed cycleIds checked
  logged := by
    refine ⟨moved.map (movedActivity c), ?_, moving.logged itemIds checked⟩
    unfold completeDone
    cases c.moveIncompleteTo <;> rfl

end complete

/-- The completion that the next step of a client commits. -/
def Tx.completes : Tx → Option Completion
  | .completeMoving c _ _ _ [] => some c
  | _ => none

/-- The attach that the next step of a client commits. -/
def Tx.attaches : Tx → Option Attach
  | .attachWritten a => some a
  | _ => none

structure Fresh (system : System) : Prop where
  idle : ∀ client, system.txs client = none
  cycleIds : CycleIds system.db
  itemIds : ItemIds system.db
  oneActive : OneActive system.db

theorem Fresh.inv {system : System} (fresh : Fresh system) : Inv system := by
  refine ⟨fresh.cycleIds, fresh.itemIds, fresh.oneActive, ?_, ?_⟩
  all_goals
    intro client tx running
    rw [fresh.idle client] at running
    cases running

theorem run_inv {start system : System} (fresh : Fresh start) (events : List Event)
    (reached : run start events = some system) : Inv system :=
  (run_kept (P := fun _ => True) (fun _ _ _ _ _ => trivial) events fresh.inv trivial reached).1

theorem completes_movedOut {system next : System} {client : ℕ} {c : Completion} (inv : Inv system)
    (completes : (system.txs client).bind Tx.completes = some c)
    (taken : step system (.act client) = some (next, none)) : MovedOut system.db next.db c := by
  obtain ⟨tx, running, phase⟩ := Option.bind_eq_some_iff.mp completes
  unfold Tx.completes at phase
  split at phase
  next snapshot cycle moved =>
    cases phase
    obtain ⟨checked, moving⟩ : Checked system.db c snapshot cycle ∧
      Moving system.db c snapshot cycle moved [] := inv.known client _ running
    rw [step, running] at taken
    obtain ⟨rfl, _⟩ := Prod.mk.inj (Option.some.inj taken)
    exact moving.movedOut inv.cycleIds inv.itemIds checked
  next => cases phase

theorem MovedOut.closedCycle {db after : Database} {c : Completion} (movedOut : MovedOut db after c)
    (cycleIds : CycleIds after) : Closed after c.cycleId := by
  obtain ⟨done, present, id, completed, _⟩ := movedOut.closed
  intro row found same
  rw [cycleIds.eq found present (same.trans id.symm)]
  exact completed

theorem attaches_open {system : System} {client : ℕ} {a : Attach} (inv : Inv system)
    (attaches : (system.txs client).bind Tx.attaches = some a) : Open system.db a.cycleId a.projectId := by
  obtain ⟨tx, running, phase⟩ := Option.bind_eq_some_iff.mp attaches
  unfold Tx.attaches at phase
  split at phase
  next =>
    cases phase
    exact inv.known client _ running
  next => cases phase

/-- In every state of every run: one cycle of a project is active at most; no step takes a status back
or over; a `completeCycle` that commits leaves no open item in its cycle, each of them in the target
or in no cycle with one activity row; and no attach to the cycle commits in what comes later. -/
theorem completing_strands_nothing (start system : System) (fresh : Fresh start)
    (events : List Event) (reached : run start events = some system) :
    OneActive system.db ∧
    (∀ event next failure, step system event = some (next, failure) →
      StatusesForward system.db next.db) ∧
    ∀ client c next, (system.txs client).bind Tx.completes = some c →
      step system (.act client) = some (next, none) →
      MovedOut system.db next.db c ∧
      ∀ later final, run next later = some final →
        ∀ other a, (final.txs other).bind Tx.attaches = some a → a.cycleId ≠ c.cycleId := by
  have inv := run_inv fresh events reached
  refine ⟨inv.oneActive, ?_, ?_⟩
  · intro event next failure taken
    exact (step_progress inv event taken).statusesForward inv
  · intro client c next completes taken
    have movedOut := completes_movedOut inv completes taken
    have after := inv.progress (step_progress inv (.act client) taken)
    refine ⟨movedOut, ?_⟩
    intro later final ran other a attaches same
    obtain ⟨final_inv, closed⟩ := run_kept closed_kept later after
      (movedOut.closedCycle after.cycleIds) ran
    obtain ⟨row, present, id, _, unfinished⟩ := attaches_open final_inv attaches
    exact unfinished (closed row present (id.trans same))

/-- An active cycle with an open and a finished item, and the next one. -/
def sprint : System where
  db := ⟨fun _ => false,
    [⟨"c1", "p", .active, some 0, some 13, 0, 0⟩, ⟨"c2", "p", .draft, none, none, 0, 0⟩],
    [⟨"i1", "p", some "c1", false, true, 0⟩, ⟨"i2", "p", some "c1", true, false, 0⟩], []⟩
  locks := fun _ => none
  txs := fun _ => none

/-- An item is planned into the cycle between the snapshot and the claim of a completion, which has
to be made again; another attach waits for it. -/
def crossedCompletion : List Event :=
  let completion : Call := .complete ⟨none, "c1", some "c2"⟩
  [.begin 0 completion, .begin 1 (.attach ⟨none, "i3", "p", "c1", none⟩), .act 1, .act 1, .act 1,
    .act 0, .begin 0 completion, .begin 1 (.attach ⟨none, "i4", "p", "c1", none⟩), .act 0, .act 0,
    .act 0, .act 0]

theorem crossed_completion_strands_nothing :
    ∃ system next, run sprint crossedCompletion = some system ∧
      step system (.act 0) = some (next, none) ∧
      next.db.items.map ItemRow.cycleId = [some "c2", some "c1", some "c2"] ∧
      MovedOut system.db next.db ⟨none, "c1", some "c2"⟩ := by
  have fresh : Fresh sprint := by
    refine ⟨fun _ => rfl, ?_, ?_, ?_⟩
    · unfold CycleIds
      decide
    · unfold ItemIds
      decide
    · unfold OneActive
      decide
  have ran : (run sprint crossedCompletion).map (fun system =>
      (system.txs 0).bind Tx.completes) = some (some ⟨none, "c1", some "c2"⟩) := by decide
  have left : ((run sprint crossedCompletion).bind (fun system => step system (.act 0))).map
      (fun next => (next.1.db.items.map ItemRow.cycleId, next.2)) =
        some ([some "c2", some "c1", some "c2"], none) := by decide
  obtain ⟨system, reached, completes⟩ := Option.map_eq_some_iff.mp ran
  obtain ⟨⟨next, failure⟩, taken, result⟩ := Option.map_eq_some_iff.mp left
  rw [reached, Option.bind_some] at taken
  obtain ⟨items, rfl⟩ := Prod.mk.inj result
  refine ⟨system, next, reached, taken, items, ?_⟩
  exact ((completing_strands_nothing sprint system fresh crossedCompletion reached).2.2 0 _ next
    completes taken).1

end Droplet.Pm.Cycles
