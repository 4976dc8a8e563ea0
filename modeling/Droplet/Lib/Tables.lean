import Mathlib

/-! Tables of rows with distinct keys, under the statements a database client sends. -/

/-- No two rows have one key. -/
structure Table (Id Columns : Type) where
  rows : List (Id × Columns)
  distinct : (rows.map Prod.fst).Nodup

namespace Table

variable {Id Columns : Type} [DecidableEq Id]

def empty : Table Id Columns := ⟨[], List.nodup_nil⟩

/-- `findUnique` by the key -/
def get (table : Table Id Columns) (id : Id) : Option Columns :=
  (table.rows.find? fun row => row.1 = id).map Prod.snd

def findFirst (table : Table Id Columns) (where_ : Id → Columns → Bool) : Option (Id × Columns) :=
  table.rows.find? fun row => where_ row.1 row.2

def findMany (table : Table Id Columns) (where_ : Id → Columns → Bool) : List (Id × Columns) :=
  table.rows.filter fun row => where_ row.1 row.2

def updateMany (table : Table Id Columns) (where_ : Id → Columns → Bool)
    (data : Columns → Columns) : Table Id Columns where
  rows := table.rows.map fun row => (row.1, if where_ row.1 row.2 then data row.2 else row.2)
  distinct := by simpa [Function.comp_def] using table.distinct

def deleteMany (table : Table Id Columns) (where_ : Id → Columns → Bool) : Table Id Columns where
  rows := table.rows.filter fun row => !where_ row.1 row.2
  distinct := table.distinct.sublist (List.filter_sublist.map _)

/-- Under a key that is taken, nothing is created. -/
def create (table : Table Id Columns) (id : Id) (data : Columns) : Option (Table Id Columns) :=
  if free : id ∉ table.rows.map Prod.fst then
    some ⟨(id, data) :: table.rows, by simpa using ⟨by simpa using free, table.distinct⟩⟩
  else none

variable {table created : Table Id Columns} {id other : Id} {columns data : Columns}

theorem get_some : table.get id = some columns ↔ (id, columns) ∈ table.rows := by
  constructor
  · intro found
    rw [get, Option.map_eq_some_iff] at found
    obtain ⟨row, there, rfl⟩ := found
    have key : row.1 = id := by simpa using List.find?_some there
    rw [← key]
    exact List.mem_of_find?_eq_some there
  · intro member
    cases search : table.rows.find? fun row => row.1 = id with
    | none =>
      rw [List.find?_eq_none] at search
      exact absurd (by simp) (search _ member)
    | some row =>
      have key : row.1 = id := by simpa using List.find?_some search
      have same : row = (id, columns) := List.inj_on_of_nodup_map table.distinct
        (List.mem_of_find?_eq_some search) member key
      rw [get, search, same, Option.map_some]

theorem get_none : table.get id = none ↔ ∀ columns, (id, columns) ∉ table.rows := by
  rw [Option.eq_none_iff_forall_ne_some]
  exact forall_congr' fun columns => not_congr get_some

@[simp] theorem get_empty : (empty : Table Id Columns).get id = none := rfl

theorem get_updateMany (where_ : Id → Columns → Bool) (change : Columns → Columns) :
    (table.updateMany where_ change).get id =
      (table.get id).map fun columns => if where_ id columns then change columns else columns := by
  ext columns
  simp only [get_some, Option.map_eq_some_iff, updateMany, List.mem_map, Prod.mk.injEq]
  constructor
  · intro member
    obtain ⟨⟨key, old⟩, there, rfl, value⟩ := member
    exact ⟨old, there, value⟩
  · intro member
    obtain ⟨old, there, value⟩ := member
    exact ⟨(id, old), there, rfl, value⟩

theorem get_deleteMany (where_ : Id → Columns → Bool) :
    (table.deleteMany where_).get id = (table.get id).filter fun columns => !where_ id columns := by
  ext columns
  simp [get_some, Option.filter_eq_some_iff, deleteMany]

variable {where_ : Id → Columns → Bool}

theorem get_deleteMany_other (missed : ∀ columns, where_ id columns = false) :
    (table.deleteMany where_).get id = table.get id := by
  rw [get_deleteMany]
  cases table.get id <;> simp [missed]

theorem create_some (makes : table.create id data = some created) :
    table.get id = none ∧
      ∀ other, created.get other = if other = id then some data else table.get other := by
  rw [create] at makes
  split at makes
  · rename_i free
    obtain rfl := Option.some.inj makes
    refine ⟨get_none.mpr fun columns member => free (List.mem_map.mpr ⟨_, member, rfl⟩), ?_⟩
    intro other
    ext columns
    split
    · rename_i same
      rw [get_some, Option.some_inj]
      constructor
      · intro member
        rcases List.mem_cons.mp member with here | there
        · exact (Prod.mk.inj here).2.symm
        · exact absurd (List.mem_map.mpr ⟨_, there, same⟩) free
      · intro value
        rw [same, value]
        exact List.mem_cons_self
    · rename_i apart
      rw [get_some, get_some, List.mem_cons]
      simp [apart]
  · contradiction

theorem findFirst_some :
    table.findFirst where_ = some (id, columns) →
      table.get id = some columns ∧ where_ id columns = true := by
  intro found
  refine ⟨get_some.mpr (List.mem_of_find?_eq_some found), ?_⟩
  simpa using List.find?_some (p := fun row : Id × Columns => where_ row.1 row.2) found

theorem findFirst_none :
    table.findFirst where_ = none ↔
      ∀ id columns, table.get id = some columns → where_ id columns = false := by
  rw [findFirst, List.find?_eq_none]
  simp [get_some]

theorem findFirst_isSome :
    (table.findFirst where_).isSome = true ↔
      ∃ id columns, table.get id = some columns ∧ where_ id columns = true := by
  rw [findFirst, List.find?_isSome]
  simp [get_some]

theorem mem_findMany :
    (id, columns) ∈ table.findMany where_ ↔
      table.get id = some columns ∧ where_ id columns = true := by
  rw [findMany, List.mem_filter, get_some]

/-- Each row of `before` is still there under its key and looks the same. -/
def Kept {View : Type} (view : Id → Columns → View) (before after : Table Id Columns) : Prop :=
  ∀ id row, before.get id = some row →
    ∃ present, after.get id = some present ∧ view id present = view id row

section

variable {View : Type} {view : Id → Columns → View} {before after : Table Id Columns}

@[simp] theorem Kept.refl : Kept view before before := fun _ row found => ⟨row, found, rfl⟩

theorem Kept.map {Less : Type} (kept : Kept view before after) (f : View → Less) :
    Kept (fun key row => f (view key row)) before after := by
  intro key row found
  obtain ⟨present, there, same⟩ := kept key row found
  exact ⟨present, there, congrArg f same⟩

theorem Kept.also {flag : Columns → Bool} {pointer : Option Id}
    (kept : Kept (fun key row => decide (pointer = some key) || flag row) before after)
    (was : ∀ key row, pointer = some key → before.get key = some row → flag row = true)
    (still : ∀ key row, pointer = some key → after.get key = some row → flag row = true) :
    Kept (fun _ row => flag row) before after := by
  intro key row found
  obtain ⟨present, there, same⟩ := kept key row found
  refine ⟨present, there, ?_⟩
  by_cases pointed : pointer = some key
  · exact (still key present pointed there).trans (was key row pointed found).symm
  · simpa [pointed] using same

section

variable (kept : Kept view before after)
include kept

theorem Kept.create (makes : after.create id data = some created) : Kept view before created := by
  intro key row found
  obtain ⟨present, there, same⟩ := kept key row found
  obtain ⟨free, get⟩ := create_some makes
  refine ⟨present, ?_, same⟩
  have apart : key ≠ id := by
    intro equal
    rw [equal, free] at there
    contradiction
  rw [get, if_neg apart, there]

theorem Kept.updateMany {change : Columns → Columns} (spares : ∀ key row present, before.get key = some row → after.get key = some present →
      where_ key present = true → view key (change present) = view key present) :
    Kept view before (after.updateMany where_ change) := by
  intro key row found
  obtain ⟨present, there, same⟩ := kept key row found
  rw [get_updateMany, there, Option.map_some]
  refine ⟨_, rfl, ?_⟩
  split
  · rename_i hit
    rw [spares key row present found there hit, same]
  · exact same

theorem Kept.deleteMany (spares : ∀ key row present, before.get key = some row → after.get key = some present →
      view key present = view key row → where_ key present = false) :
    Kept view before (after.deleteMany where_) := by
  intro key row found
  obtain ⟨present, there, same⟩ := kept key row found
  refine ⟨present, ?_, same⟩
  rw [get_deleteMany, there]
  simp [spares key row present found there same]

/-- What concerns only a key that `before` does not have. -/
theorem Kept.updateFresh {change : Columns → Columns} (fresh : before.get id = none) (only : ∀ key columns, where_ key columns = true → key = id) :
    Kept view before (after.updateMany where_ change) := by
  refine kept.updateMany ?_
  intro key row present found _ hit
  rw [only key present hit, fresh] at found
  contradiction

theorem Kept.deleteFresh (fresh : before.get id = none)
    (only : ∀ key columns, where_ key columns = true → key = id) : Kept view before (after.deleteMany where_) := by
  refine kept.deleteMany ?_
  intro key row present found _ _
  rw [Bool.eq_false_iff]
  intro hit
  rw [only key present hit, fresh] at found
  contradiction

end

end

end Table
