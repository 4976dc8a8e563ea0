import Mathlib

/-! Rows that are found by a key: updated where the key is there, else added at the end. -/

namespace Upsert

variable {Row Key : Type} [DecidableEq Key] (key : Row → Option Key)

def find (rows : List Row) (k : Key) : Option ℕ := rows.findIdx? fun row => key row = some k

def update (rows : List Row) (k : Key) (change : Row → Row) : List Row :=
  rows.map fun row => if key row = some k then change row else row

def upsert (rows : List Row) (k : Key) (change : Row → Row) (new : Row) : List Row :=
  if (find key rows k).isSome then update key rows k change else rows ++ [new]

/-- Each key stands at one place. -/
def Once (rows : List Row) : Prop :=
  ∀ (i j : ℕ) (k : Key) (first second : Row), rows[i]? = some first → rows[j]? = some second →
    key first = some k → key second = some k → i = j

def Settled (rows : List Row) (k : Key) (change : Row → Row) : Prop :=
  (∃ row ∈ rows, key row = some k) ∧ ∀ row ∈ rows, key row = some k → change row = row

variable {key} {rows : List Row} {k k' : Key} {change : Row → Row} {new row : Row}

theorem find_isSome : (find key rows k).isSome = true ↔ ∃ row ∈ rows, key row = some k := by
  simp [find, List.findIdx?_isSome]

theorem find_none : find key rows k = none ↔ ∀ row ∈ rows, key row ≠ some k := by
  simp [find, List.findIdx?_eq_none_iff]

theorem find_some {i : ℕ} (found : find key rows k = some i) : ∃ row, rows[i]? = some row ∧ key row = some k := by
  rw [find, List.findIdx?_eq_some_iff_getElem] at found
  obtain ⟨inside, same, -⟩ := found
  exact ⟨rows[i], List.getElem?_eq_getElem inside, by simpa using same⟩

theorem find_append_new (missing : find key rows k = none) (named : key new = some k) :
    find key (rows ++ [new]) k = some rows.length := by
  rw [find] at missing ⊢
  rw [List.findIdx?_append, missing]
  simp [named]

theorem upsert_settled (settled : Settled key rows k change) : upsert key rows k change new = rows := by
  rw [upsert, if_pos (find_isSome.mpr settled.1), update]
  refine (List.map_congr_left ?_).trans rows.map_id
  intro row member
  split
  · rename_i same
    exact settled.2 row member same
  · rfl

theorem upsert_get {i : ℕ} (found : (upsert key rows k change new)[i]? = some row) :
    (∃ old, rows[i]? = some old ∧
        ((key old = some k ∧ row = change old) ∨ (key old ≠ some k ∧ row = old))) ∨
      (i = rows.length ∧ row = new ∧ ∀ old ∈ rows, key old ≠ some k) := by
  rw [upsert] at found
  split at found
  · rw [update, List.getElem?_map, Option.map_eq_some_iff] at found
    obtain ⟨old, there, rfl⟩ := found
    refine .inl ⟨old, there, ?_⟩
    split
    · rename_i same
      exact .inl ⟨same, rfl⟩
    · rename_i apart
      exact .inr ⟨apart, rfl⟩
  · rename_i missing
    have absent : find key rows k = none := by simpa using missing
    rw [List.getElem?_append] at found
    split at found
    · refine .inl ⟨row, found, .inr ⟨?_, rfl⟩⟩
      exact find_none.mp absent row (List.mem_of_getElem? found)
    · rename_i beyond
      obtain ⟨zero, same⟩ := List.getElem?_eq_some_iff.mp found
      simp only [List.length_singleton] at zero
      refine .inr ⟨by omega, ?_, find_none.mp absent⟩
      rw [← same]
      simp

theorem upsert_of_get {i : ℕ} {old : Row} (found : rows[i]? = some old) :
    (upsert key rows k change new)[i]? = some (if key old = some k then change old else old) := by
  rw [upsert]
  split
  · rw [update, List.getElem?_map, found, Option.map_some]
  · rename_i missing
    have absent : find key rows k = none := by simpa using missing
    have apart := find_none.mp absent old (List.mem_of_getElem? found)
    rw [List.getElem?_append_left (List.getElem?_eq_some_iff.mp found).1, found, if_neg apart]

theorem upsert_read {Value : Type} (read : Row → Value)
    (left : ∀ row, read (change row) = read row) {i : ℕ} (there : rows[i]? = some row) :
    ∃ row', (upsert key rows k change new)[i]? = some row' ∧ read row' = read row := by
  refine ⟨_, upsert_of_get there, ?_⟩
  split
  · exact left row
  · rfl

section

variable {rows' : List Row}

theorem find_of_keys (same : rows'.map key = rows.map key) : find key rows' k = find key rows k := by
  have by_keys (list : List Row) : find key list k = (list.map key).findIdx? fun word => word = some k := by
    rw [find, List.findIdx?_map]
    rfl
  rw [by_keys, by_keys, same]

omit [DecidableEq Key] in
theorem once_of_keys (same : rows'.map key = rows.map key) (once : Once key rows) : Once key rows' := by
  -- a row with the key stands at that place in the other list too
  have there {i : ℕ} {row : Row} {l : Key} (found : rows'[i]? = some row) (named : key row = some l) :
      ∃ old, rows[i]? = some old ∧ key old = some l := by
    have at_place : (rows.map key)[i]? = some (some l) := by
      rw [← same, List.getElem?_map, found, Option.map_some, named]
    rw [List.getElem?_map, Option.map_eq_some_iff] at at_place
    exact at_place
  intro i j l first second foundFirst foundSecond namedFirst namedSecond
  obtain ⟨oldFirst, placeFirst, keyFirst⟩ := there foundFirst namedFirst
  obtain ⟨oldSecond, placeSecond, keySecond⟩ := there foundSecond namedSecond
  exact once i j l oldFirst oldSecond placeFirst placeSecond keyFirst keySecond

variable {touch : Row → Row}

omit [DecidableEq Key] in
theorem modify_keys (keeps : ∀ row, key (touch row) = key row) (i : ℕ) :
    (rows.modify i touch).map key = rows.map key := by
  apply List.ext_getElem?
  intro j
  rw [List.getElem?_map, List.getElem?_map, List.getElem?_modify]
  cases rows[j]? with
  | none => rfl
  | some row =>
    by_cases same : i = j
    · simp [same, keeps]
    · simp [same]

theorem Settled.modify (settled : Settled key rows k change) (keeps : ∀ row, key (touch row) = key row)
    (apart : ∀ row, change row = row → change (touch row) = touch row) (i : ℕ) :
    Settled key (rows.modify i touch) k change := by
  constructor
  · rw [← find_isSome, find_of_keys (modify_keys keeps i), find_isSome]
    exact settled.1
  · intro row member named
    obtain ⟨j, found⟩ := List.getElem?_of_mem member
    rw [List.getElem?_modify, Option.map_eq_map, Option.map_eq_some_iff] at found
    obtain ⟨old, was, rfl⟩ := found
    have old_there := List.mem_of_getElem? was
    split at named
    · rw [keeps] at named
      rw [if_pos ‹_›]
      exact apart old (settled.2 old old_there named)
    · rw [if_neg ‹_›]
      exact settled.2 old old_there named

end

section

variable (keeps : ∀ row, key (change row) = key row)

include keeps

theorem update_keys : (update key rows k change).map key = rows.map key := by
  rw [update, List.map_map]
  apply List.map_congr_left
  intro row _
  rw [Function.comp_apply]
  split
  · exact keeps row
  · rfl

theorem find_upsert_of_found {i : ℕ} (found : find key rows k' = some i) :
    find key (upsert key rows k change new) k' = some i := by
  rw [upsert]
  split
  · rw [find_of_keys (update_keys keeps)]
    exact found
  · rw [find] at found ⊢
    rw [List.findIdx?_append, found]
    rfl

theorem find_upsert_other (named : key new = some k) (apart : k' ≠ k) :
    find key (upsert key rows k change new) k' = find key rows k' := by
  rw [upsert]
  split
  · exact find_of_keys (update_keys keeps)
  · rw [find, List.findIdx?_append]
    simp [find, named, apart.symm]

theorem find_upsert_isSome (named : key new = some k) :
    (find key (upsert key rows k change new) k).isSome = true := by
  rw [upsert]
  split
  · rename_i there
    rw [find_of_keys (update_keys keeps)]
    exact there
  · rw [find_isSome]
    exact ⟨new, by simp, named⟩

end

section

variable (keeps : ∀ row, key (change row) = key row) (named : key new = some k)

include keeps named

theorem settled_upsert (again : ∀ row, change (change row) = change row) (still : change new = new) :
    Settled key (upsert key rows k change new) k change := by
  constructor
  · rw [upsert]
    split
    · rename_i there
      obtain ⟨row, member, same⟩ := find_isSome.mp there
      refine ⟨change row, List.mem_map.mpr ⟨row, member, by simp [same]⟩, ?_⟩
      rw [keeps, same]
    · exact ⟨new, by simp, named⟩
  · intro row member same
    obtain ⟨i, there⟩ := List.getElem?_of_mem member
    rcases upsert_get there with was | added
    · obtain ⟨old, -, hit | missed⟩ := was
      · rw [hit.2, again]
      · exact absurd (missed.2 ▸ same) missed.1
    · rw [added.2.1, still]

theorem Settled.other {change' : Row → Row} (settled : Settled key rows k' change')
    (apart : k' ≠ k) : Settled key (upsert key rows k change new) k' change' := by
  have differ : (some k : Option Key) ≠ some k' := fun same => apart (Option.some.inj same).symm
  constructor
  · obtain ⟨row, member, same⟩ := settled.1
    obtain ⟨i, there⟩ := List.getElem?_of_mem member
    have stays : (upsert key rows k change new)[i]? =
        some (if key row = some k then change row else row) := upsert_of_get there
    rw [if_neg (by rw [same]; exact differ.symm)] at stays
    exact ⟨row, List.mem_of_getElem? stays, same⟩
  · intro row member same
    obtain ⟨i, there⟩ := List.getElem?_of_mem member
    rcases upsert_get there with was | added
    · obtain ⟨old, found, hit | missed⟩ := was
      · rw [hit.2, keeps, hit.1] at same
        exact absurd same differ
      · rw [missed.2] at same ⊢
        exact settled.2 old (List.mem_of_getElem? found) same
    · rw [added.2.1, named] at same
      exact absurd same differ

theorem once_upsert (once : Once key rows) : Once key (upsert key rows k change new) := by
  -- a row that was there keeps its key
  have was {i : ℕ} {row old : Row} {l : Key} (same : key row = some l)
      (kept : (key old = some k ∧ row = change old) ∨ (key old ≠ some k ∧ row = old)) :
      key old = some l := by
    rcases kept with hit | missed
    · rw [← keeps, ← hit.2]
      exact same
    · rw [← missed.2]
      exact same
  intro i j l first second foundFirst foundSecond keyFirst keySecond
  rcases upsert_get foundFirst with first_was | first_new
  · obtain ⟨old, there, kept⟩ := first_was
    rcases upsert_get foundSecond with second_was | second_new
    · obtain ⟨oldSecond, thereSecond, keptSecond⟩ := second_was
      exact once i j l old oldSecond there thereSecond (was (i := i) keyFirst kept)
        (was (i := i) keySecond keptSecond)
    · rw [second_new.2.1, named] at keySecond
      have keyOld := was (i := i) keyFirst kept
      rw [← keySecond] at keyOld
      exact absurd keyOld (second_new.2.2 old (List.mem_of_getElem? there))
  · rw [first_new.2.1, named] at keyFirst
    rcases upsert_get foundSecond with second_was | second_new
    · obtain ⟨old, there, kept⟩ := second_was
      have keyOld := was (i := i) keySecond kept
      rw [← keyFirst] at keyOld
      exact absurd keyOld (first_new.2.2 old (List.mem_of_getElem? there))
    · exact first_new.1.trans second_new.1.symm

end

end Upsert
