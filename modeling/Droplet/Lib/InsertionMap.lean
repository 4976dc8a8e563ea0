import Mathlib

/-! Maps that remember the order in which keys came in, and levels held under such keys. -/

namespace Droplet.Lib

section AtMost

variable {α : Type}

/-- What is held on the left is held on the right too, and at least as high. -/
def AtMost (rank : α → ℕ) (lower upper : Option α) : Prop :=
  ∀ x ∈ lower, ∃ y ∈ upper, rank x ≤ rank y

variable (rank : α → ℕ)

theorem AtMost.refl (held : Option α) : AtMost rank held held := by
  intro x member
  exact ⟨x, member, le_refl _⟩

theorem AtMost.none_left (upper : Option α) : AtMost rank none upper := by
  intro x member
  cases member

variable {rank}

theorem AtMost.some_some {x y : α} (lower : rank x ≤ rank y) : AtMost rank (some x) (some y) := by
  intro z member
  cases member
  exact ⟨y, rfl, lower⟩

theorem AtMost.trans {a b c : Option α} (first : AtMost rank a b) (second : AtMost rank b c) :
    AtMost rank a c := by
  intro x member
  obtain ⟨y, middle, below⟩ := first x member
  obtain ⟨z, last, above⟩ := second y middle
  exact ⟨z, last, le_trans below above⟩

theorem AtMost.isSome {lower upper : Option α} (below : AtMost rank lower upper)
    (held : lower.isSome) : upper.isSome := by
  obtain ⟨x, value⟩ := Option.isSome_iff_exists.mp held
  obtain ⟨y, member, _⟩ := below x value
  exact Option.isSome_iff_exists.mpr ⟨y, member⟩

end AtMost

/-- Entries in the order their keys were first set. -/
structure InsertionMap (κ ν : Type) where
  entries : List (κ × ν)
  keysNodup : (entries.map Prod.fst).Nodup

namespace InsertionMap

variable {κ ν : Type}

def empty : InsertionMap κ ν := ⟨[], List.nodup_nil⟩

def keys (m : InsertionMap κ ν) : List κ := m.entries.map Prod.fst

variable [DecidableEq κ]

def get? (m : InsertionMap κ ν) (k : κ) : Option ν := m.entries.lookup k

variable (entries : List (κ × ν))

theorem keys_replace (k : κ) (v : ν) :
    (entries.map fun entry => if entry.1 = k then (k, v) else entry).map Prod.fst =
      entries.map Prod.fst := by
  rw [List.map_map]
  apply List.map_congr_left
  intro entry _
  by_cases same : entry.1 = k
  · simp [same]
  · simp [same]

/-- A key that is there keeps its place. -/
def set (m : InsertionMap κ ν) (k : κ) (v : ν) : InsertionMap κ ν :=
  if present : k ∈ m.entries.map Prod.fst then
    ⟨m.entries.map fun entry => if entry.1 = k then (k, v) else entry, by
      rw [keys_replace]
      exact m.keysNodup⟩
  else
    ⟨m.entries ++ [(k, v)], by
      rw [List.map_append]
      refine List.Nodup.append m.keysNodup (List.nodup_singleton k) ?_
      intro other there same
      have isKey : other = k := List.mem_singleton.mp same
      exact present (isKey ▸ there)⟩

def delete (m : InsertionMap κ ν) (k : κ) : InsertionMap κ ν :=
  ⟨m.entries.filter fun entry => entry.1 ≠ k,
    m.keysNodup.sublist (List.filter_sublist.map Prod.fst)⟩

def deleteWhere (m : InsertionMap κ ν) (condition : κ → Bool) : InsertionMap κ ν :=
  m.keys.foldl (fun acc k => if condition k then acc.delete k else acc) m

@[simp] theorem get?_empty (k : κ) : (empty : InsertionMap κ ν).get? k = none := rfl

variable (m : InsertionMap κ ν)

theorem get?_eq_some_iff (k : κ) (v : ν) : m.get? k = some v ↔ (k, v) ∈ m.entries := by
  obtain ⟨entries, nodup⟩ := m
  simp only [get?]
  induction entries with
  | nil => simp
  | cons head tail ih =>
    obtain ⟨key, value⟩ := head
    rw [List.map_cons, List.nodup_cons] at nodup
    rw [List.lookup_cons, List.mem_cons, Prod.mk.injEq]
    by_cases same : k = key
    · subst same
      have absent : (k, v) ∉ tail := fun member =>
        nodup.1 (List.mem_map.mpr ⟨_, member, rfl⟩)
      simp [absent, eq_comm]
    · have differs : (k == key) = false := by simpa using same
      rw [differs]
      simp [ih nodup.2, same]

theorem get?_eq_none_iff (k : κ) : m.get? k = none ↔ k ∉ m.keys := by
  simp only [get?, keys, List.lookup_eq_none_iff, List.mem_map, not_exists, not_and]
  constructor
  · intro absent entry member same
    simpa [same] using absent entry member
  · intro absent entry member
    exact bne_iff_ne.mpr (Ne.symm (absent entry member))

theorem mem_keys_iff (k : κ) : k ∈ m.keys ↔ (m.get? k).isSome := by
  rw [← Option.ne_none_iff_isSome, ne_eq, get?_eq_none_iff, not_not]

theorem lookup_replace_self (k : κ) (v : ν) (present : k ∈ entries.map Prod.fst) :
    (entries.map fun entry => if entry.1 = k then (k, v) else entry).lookup k = some v := by
  induction entries with
  | nil => cases present
  | cons head tail ih =>
    obtain ⟨key, value⟩ := head
    by_cases same : key = k
    · simp [same]
    · have later : k ∈ tail.map Prod.fst := by
        rcases List.mem_cons.mp present with first | later
        · exact absurd first.symm same
        · exact later
      have differs : (k == key) = false := by simpa using Ne.symm same
      rw [List.map_cons, if_neg same, List.lookup_cons, differs]
      exact ih later

theorem lookup_replace_of_ne {k other : κ} (v : ν) (differs : other ≠ k) :
    (entries.map fun entry => if entry.1 = k then (k, v) else entry).lookup other =
      entries.lookup other := by
  induction entries with
  | nil => rfl
  | cons head tail ih =>
    obtain ⟨key, value⟩ := head
    by_cases same : key = k
    · have skips : (other == k) = false := by simpa using differs
      rw [List.map_cons, if_pos same, List.lookup_cons, List.lookup_cons, same, skips]
      exact ih
    · rw [List.map_cons, if_neg same, List.lookup_cons, List.lookup_cons, ih]

theorem get?_set (k other : κ) (v : ν) : (m.set k v).get? other = if other = k then some v else m.get? other := by
  by_cases present : k ∈ m.entries.map Prod.fst
  · by_cases same : other = k
    · subst same
      simp only [set, present, dite_true, get?, if_true]
      exact lookup_replace_self _ _ _ present
    · simp only [set, present, dite_true, get?, if_neg same]
      exact lookup_replace_of_ne _ _ same
  · simp only [set, present, dite_false, get?, List.lookup_append]
    by_cases same : other = k
    · subst same
      have absent : m.entries.lookup other = none := (get?_eq_none_iff m other).mpr present
      simp [absent]
    · have skips : (other == k) = false := by simpa using same
      simp [List.lookup_cons, skips, same]

theorem get?_delete (k other : κ) : (m.delete k).get? other = if other = k then none else m.get? other := by
  by_cases same : other = k
  · subst same
    rw [if_pos rfl, get?_eq_none_iff]
    simp [delete, keys]
  · rw [if_neg same]
    apply Option.ext
    intro v
    rw [get?_eq_some_iff, get?_eq_some_iff]
    simp [delete, same]

theorem get?_foldl_delete (condition : κ → Bool) (list : List κ) (m : InsertionMap κ ν) (k : κ) :
    (list.foldl (fun acc other => if condition other then acc.delete other else acc) m).get? k =
      if k ∈ list ∧ condition k then none else m.get? k := by
  induction list generalizing m with
  | nil => simp
  | cons head tail ih =>
    rw [List.foldl_cons, ih]
    by_cases drops : condition head
    · rw [if_pos drops, get?_delete]
      grind
    · rw [if_neg drops]
      grind

theorem get?_deleteWhere (condition : κ → Bool) (k : κ) :
    (m.deleteWhere condition).get? k = if condition k then none else m.get? k := by
  rw [deleteWhere, get?_foldl_delete]
  cases held : m.get? k with
  | none => simp
  | some v =>
    have present : k ∈ m.keys := (mem_keys_iff m k).mpr (by rw [held]; rfl)
    simp [present]

end InsertionMap

end Droplet.Lib
