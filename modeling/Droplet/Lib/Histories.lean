import Mathlib

/-! Records that grow at their end: what each entry was written after, and the last entry of a kind;
and what stands at a place of a list in which one place is set, or to which one is added. -/

namespace Histories

universe u v

variable {α : Type u} {β : Type v}

def Each (fits : List α → α → Prop) (log : List α) : Prop :=
  ∀ earlier entry later, log = earlier ++ entry :: later → fits earlier entry

variable {fits : List α → α → Prop} {log : List α}

theorem each_nil : Each fits [] := by
  intro earlier entry later same
  simp at same

theorem Each.append (each : Each fits log) {entry : α} (fitting : fits log entry) :
    Each fits (log ++ [entry]) := by
  intro earlier written later same
  rcases List.eq_nil_or_concat later with none_later | some_later
  · rw [none_later] at same
    obtain ⟨same_log, same_entry⟩ := List.append_inj' same rfl
    cases List.singleton_inj.mp same_entry
    rw [← same_log]
    exact fitting
  · obtain ⟨front, last, rfl⟩ := some_later
    rw [List.concat_eq_append, ← List.cons_append, ← List.append_assoc] at same
    exact each earlier written front (List.append_inj' same rfl).1

theorem Each.append_list (each : Each fits log) {more : List α}
    (fitting : ∀ front entry back, more = front ++ entry :: back → fits (log ++ front) entry) :
    Each fits (log ++ more) := by
  induction more using List.reverseRecOn with
  | nil =>
    rw [List.append_nil]
    exact each
  | append_singleton front entry ih =>
    rw [← List.append_assoc]
    apply Each.append
    · apply ih
      intro before written after same
      exact fitting before written (after ++ [entry]) (by simp [same])
    · exact fitting front entry [] rfl

def latest (kind : α → Option β) (log : List α) : Option β :=
  log.foldl (fun last entry => (kind entry).or last) none

variable {kind : α → Option β}

@[simp] theorem latest_append (log : List α) (entry : α) :
    latest kind (log ++ [entry]) = (kind entry).or (latest kind log) := by
  rw [latest, List.foldl_append]
  rfl

theorem latest_append_none {more : List α} (other : ∀ entry ∈ more, kind entry = none) :
    latest kind (log ++ more) = latest kind log := by
  induction more using List.reverseRecOn with
  | nil => rw [List.append_nil]
  | append_singleton front entry ih =>
    rw [← List.append_assoc, latest_append, other entry (by simp), Option.none_or]
    exact ih fun earlier member => other earlier (List.mem_append_left _ member)

theorem mem_of_latest {last : β} (found : latest kind log = some last) :
    ∃ entry ∈ log, kind entry = some last := by
  induction log using List.reverseRecOn with
  | nil => cases found
  | append_singleton log entry ih =>
    rw [latest_append, Option.or_eq_some_iff] at found
    rcases found with here | ⟨_, before⟩
    · exact ⟨entry, List.mem_append_right _ (List.mem_singleton.mpr rfl), here⟩
    · obtain ⟨earlier, member, there⟩ := ih before
      exact ⟨earlier, List.mem_append_left _ member, there⟩

end Histories

namespace Places

universe u

variable {α : Type u} {items : List α} {i j : ℕ} {next item : α}

theorem set_cases (found : (items.set i next)[j]? = some item) :
    (j = i ∧ item = next) ∨ (j ≠ i ∧ items[j]? = some item) := by
  rw [List.getElem?_set] at found
  split at found
  · rename_i same
    split at found
    · exact .inl ⟨same.symm, (Option.some.inj found).symm⟩
    · cases found
  · rename_i differ
    exact .inr ⟨Ne.symm differ, found⟩

theorem append_cases (found : (items ++ [next])[j]? = some item) :
    (j = items.length ∧ item = next) ∨ items[j]? = some item := by
  rw [List.getElem?_append] at found
  split at found
  · exact .inr found
  · rename_i beyond
    obtain ⟨zero, same⟩ := List.getElem?_eq_some_iff.mp found
    simp only [List.length_singleton] at zero
    refine .inl ⟨by omega, ?_⟩
    rw [← same]
    simp

theorem singleton_cases (found : [next][j]? = some item) : j = 0 ∧ item = next := by
  cases j with
  | zero => exact ⟨rfl, (Option.some.inj found).symm⟩
  | succ j => cases found

end Places
