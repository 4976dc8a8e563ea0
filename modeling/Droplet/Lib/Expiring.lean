import Mathlib

/-! A store whose keys may have an instant at which they go, and sets whose members are ordered by a
score. -/

namespace Expiring

universe u v

structure Entry (ν : Type v) where
  value : ν
  expiry : Option ℤ

abbrev Store (κ : Type u) (ν : Type v) : Type (max u v) := κ → Option (Entry ν)

section Store

variable {κ : Type u} {ν : Type v} [DecidableEq κ]

def put (store : Store κ ν) (key : κ) (value : ν) (expiry : Option ℤ) : Store κ ν :=
  Function.update store key (some ⟨value, expiry⟩)

def drop (store : Store κ ν) (key : κ) : Store κ ν := Function.update store key none

/-- The value under a key is written, and the key keeps the expiry it has. -/
def overwrite (store : Store κ ν) (key : κ) (value : ν) : Store κ ν :=
  put store key value ((store key).bind Entry.expiry)

def expireNx (store : Store κ ν) (key : κ) (at_ : ℤ) : Store κ ν :=
  match store key with
  | none => store
  | some entry => if entry.expiry.isNone then put store key entry.value (some at_) else store

def expireGt (store : Store κ ν) (key : κ) (at_ : ℤ) : Store κ ν :=
  match store key with
  | none => store
  | some entry =>
    if entry.expiry.any fun before => before < at_ then put store key entry.value (some at_)
    else store

/-- Is the entry still there at this instant? -/
def Entry.lasts (now : ℤ) (entry : Entry ν) : Bool :=
  match entry.expiry with
  | none => true
  | some at_ => now < at_

def purge (now : ℤ) (store : Store κ ν) : Store κ ν := fun key => (store key).filter (Entry.lasts now)

variable {store : Store κ ν} {key other : κ} {value : ν} {expiry : Option ℤ} {entry : Entry ν} {now : ℤ}

@[simp] theorem put_self : put store key value expiry key = some ⟨value, expiry⟩ :=
  Function.update_self ..

theorem put_other (differ : other ≠ key) : put store key value expiry other = store other :=
  Function.update_of_ne differ ..

@[simp] theorem drop_self : drop store key key = none := Function.update_self ..

theorem drop_other (differ : other ≠ key) : drop store key other = store other :=
  Function.update_of_ne differ ..

theorem drop_some (found : drop store key other = some entry) : store other = some entry ∧ other ≠ key := by
  by_cases same : other = key
  · rw [same, drop_self] at found
    cases found
  · rw [drop_other same] at found
    exact ⟨found, same⟩

theorem expireNx_other (differ : other ≠ key) : expireNx store key now other = store other := by
  cases there : store key with
  | none => simp only [expireNx, there]
  | some entry =>
    simp only [expireNx, there]
    split
    · exact put_other differ
    · rfl

theorem expireGt_other (differ : other ≠ key) : expireGt store key now other = store other := by
  cases there : store key with
  | none => simp only [expireGt, there]
  | some entry =>
    simp only [expireGt, there]
    split
    · exact put_other differ
    · rfl

theorem expireNx_self (there : store key = some entry) :
    expireNx store key now key = some ⟨entry.value, some (entry.expiry.getD now)⟩ := by
  obtain ⟨value, expiry⟩ := entry
  cases expiry with
  | none | some => simp [expireNx, there]

theorem expireGt_self (there : store key = some entry) :
    expireGt store key now key = some ⟨entry.value, entry.expiry.map (max now)⟩ := by
  obtain ⟨value, expiry⟩ := entry
  cases expiry with
  | none => simp [expireGt, there]
  | some before =>
    by_cases later : before < now
    · simp [expireGt, there, later, max_eq_left later.le]
    · simp [expireGt, there, later, max_eq_right (not_lt.mp later)]

theorem expireNx_value : (expireNx store key now other).map Entry.value = (store other).map Entry.value := by
  by_cases same : other = key
  · subst same
    cases there : store other with
    | none => simp [expireNx, there]
    | some entry => simp [expireNx_self there]
  · rw [expireNx_other same]

theorem expireGt_value : (expireGt store key now other).map Entry.value = (store other).map Entry.value := by
  by_cases same : other = key
  · subst same
    cases there : store other with
    | none => simp [expireGt, there]
    | some entry => simp [expireGt_self there]
  · rw [expireGt_other same]

omit [DecidableEq κ] in
theorem purge_some : purge now store key = some entry ↔ store key = some entry ∧ entry.lasts now = true := by
  simp [purge, Option.filter_eq_some_iff]

omit [DecidableEq κ] in
theorem purge_none (absent : store key = none) : purge now store key = none := by
  simp [purge, absent]

end Store

abbrev Scored (α : Type u) := List (ℤ × α)

section Scored

variable {α : Type u} [LinearOrder α]

namespace Scored

def members (set : Scored α) : List α := set.map Prod.snd

def remove (set : Scored α) (member : α) : Scored α := set.filter fun scored => scored.2 ≠ member

def add (set : Scored α) (score : ℤ) (member : α) : Scored α :=
  (set.remove member).orderedInsert (fun first second => toLex first ≤ toLex second) (score, member)

variable {set : Scored α} {score : ℤ} {member other : α}

theorem mem_remove : other ∈ (set.remove member).members ↔ other ∈ set.members ∧ other ≠ member := by
  constructor
  · intro there
    obtain ⟨scored, kept, rfl⟩ := List.mem_map.mp there
    have both := List.mem_filter.mp kept
    exact ⟨List.mem_map_of_mem both.1, by simpa using both.2⟩
  · intro ⟨there, differ⟩
    obtain ⟨scored, kept, rfl⟩ := List.mem_map.mp there
    exact List.mem_map_of_mem (List.mem_filter.mpr ⟨kept, by simpa using differ⟩)

theorem mem_add : other ∈ (set.add score member).members ↔ other = member ∨ other ∈ set.members := by
  have inserted : other ∈ (set.add score member).members ↔
      other = member ∨ other ∈ (set.remove member).members := by
    simp only [members, add, List.mem_map, List.mem_orderedInsert]
    constructor
    · intro ⟨scored, place, same⟩
      rcases place with rfl | before
      · exact .inl same.symm
      · exact .inr ⟨scored, before, same⟩
    · intro place
      rcases place with rfl | ⟨scored, before, same⟩
      · exact ⟨_, .inl rfl, rfl⟩
      · exact ⟨scored, .inr before, same⟩
  rw [inserted, mem_remove]
  constructor
  · exact fun place => place.imp_right And.left
  · intro place
    by_cases same : other = member
    · exact .inl same
    · exact .inr ⟨place.resolve_left same, same⟩

end Scored

end Scored

end Expiring
