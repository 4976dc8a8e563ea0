import Mathlib

/-! A value that is toggled at instants: replayed forward, and read backward from what each toggle found. -/

namespace Toggles

universe u v

variable {T : Type u} [LinearOrder T]

def toggles : Bool → List T → List (T × Bool)
  | _, [] => []
  | value, time :: rest => (time, value) :: toggles (!value) rest

/-- The value when all is done. -/
def final : Bool → List T → Bool
  | value, [] => value
  | value, _ :: rest => final (!value) rest

/-- The value after the toggles before an instant. -/
def replay (start : Bool) (times : List T) (t : T) : Bool :=
  (times.filter (· < t)).foldl (fun value _ => !value) start

variable {value : Bool} {times rest : List T} {t t' : T}

theorem replay_cons_lt {time : T} (before : time < t) :
    replay value (time :: rest) t = replay (!value) rest t := by
  simp [replay, before]

theorem replay_of_le (later : ∀ time ∈ times, t ≤ time) : replay value times t = value := by
  have none : times.filter (· < t) = [] :=
    List.filter_eq_nil_iff.mpr fun time there => by simpa using later time there
  rw [replay, none, List.foldl_nil]

theorem replay_all (before : ∀ time ∈ times, time < t) : replay value times t = final value times := by
  induction times generalizing value with
  | nil => rfl
  | cons time rest ih =>
    rw [replay_cons_lt (before time (.head _)), final]
    exact ih fun later there => before later (.tail _ there)

omit [LinearOrder T] in
theorem toggles_fst (value : Bool) (times : List T) : (toggles value times).map Prod.fst = times := by
  induction times generalizing value with
  | nil => rfl
  | cons time rest ih => rw [toggles, List.map_cons, ih]

/-- Backward: where the toggles are cut at an instant, the next one found the value, or none is left. -/
theorem found_eq_replay (value : Bool) (cut : ℕ) (earlier : ∀ i (bound : i < times.length), i < cut ↔ times[i] < t)
    (within : cut ≤ times.length) :
    (((toggles value times)[cut]?).map Prod.snd).getD (final value times) = replay value times t := by
  induction times generalizing value cut with
  | nil => rfl
  | cons time rest ih =>
    cases cut with
    | zero =>
      have later : ∀ other ∈ time :: rest, t ≤ other := by
        intro other there
        obtain ⟨i, bound, is⟩ := List.getElem_of_mem there
        have := (earlier i bound).not.mp (Nat.not_lt_zero i)
        rw [is] at this
        exact not_lt.mp this
      rw [replay_of_le later]
      rfl
    | succ cut =>
      have first : time < t := (earlier 0 (by simp)).mp (by omega)
      rw [replay_cons_lt first, toggles, List.getElem?_cons_succ, final]
      refine ih (!value) cut ?_ (by simpa using within)
      intro i bound
      have := earlier (i + 1) (by simpa using bound)
      simpa using this

def joins (events : List (T × Bool)) (from_ until_ : T) : ℕ :=
  events.countP fun event => from_ ≤ event.1 ∧ event.1 < until_ ∧ event.2 = false

def leaves (events : List (T × Bool)) (from_ until_ : T) : ℕ :=
  events.countP fun event => from_ ≤ event.1 ∧ event.1 < until_ ∧ event.2 = true

/-- The value at the end of a window is that at its start, with what came and without what went. -/
theorem replay_window (ascending : times.Pairwise (· ≤ ·)) (window : t ≤ t') :
    (replay value times t').toNat + leaves (toggles value times) t t' =
      (replay value times t).toNat + joins (toggles value times) t t' := by
  induction times generalizing value with
  | nil => rfl
  | cons time rest ih =>
    obtain ⟨first, tail⟩ := List.pairwise_cons.mp ascending
    have next := @ih (!value) tail
    simp only [leaves, joins] at next ⊢
    rw [toggles, List.countP_cons, List.countP_cons]
    by_cases before : time < t
    · have outside : ¬ t ≤ time := not_le.mpr before
      rw [replay_cons_lt before, replay_cons_lt (before.trans_le window)]
      simpa [outside] using next
    · have later : ∀ other ∈ rest, t ≤ other := fun other there => (not_lt.mp before).trans (first other there)
      have still : replay value (time :: rest) t = value :=
        replay_of_le fun other there => by
          rcases List.mem_cons.mp there with is | there
          · rw [is]
            exact not_lt.mp before
          · exact later other there
      rw [replay_of_le later] at next
      rw [still]
      by_cases inside : time < t'
      · rw [replay_cons_lt inside]
        cases value <;> simp [not_lt.mp before, inside] at next ⊢ <;> omega
      · have after : ∀ other ∈ rest, t' ≤ other :=
          fun other there => (not_lt.mp inside).trans (first other there)
        rw [replay_of_le after] at next
        rw [replay_of_le fun other there => by
          rcases List.mem_cons.mp there with is | there
          · rw [is]
            exact not_lt.mp inside
          · exact after other there]
        simp only [inside, false_and, and_false, decide_false]
        simpa using next

section
variable {E : Type v} (key : E → T)

def sort (events : List E) : List E := events.insertionSort fun a b => key a ≤ key b

theorem filter_orderedInsert (t : T) (event : E) (events : List E) :
    (events.orderedInsert (fun a b => key a ≤ key b) event).filter (key · = t) =
      (event :: events).filter (key · = t) := by
  induction events with
  | nil => rfl
  | cons other rest ih =>
    rw [List.orderedInsert_cons]
    split
    · rfl
    next later =>
      rw [List.filter_cons, ih]
      by_cases is : key event = t
      · have differ : key other ≠ t := fun also => later (by rw [is, also])
        simp [is, differ]
      · simp [is, List.filter_cons]

theorem filter_sort (t : T) (events : List E) :
    (sort key events).filter (key · = t) = events.filter (key · = t) := by
  induction events with
  | nil => rfl
  | cons event rest ih =>
    rw [sort, List.insertionSort_cons, filter_orderedInsert, List.filter_cons, List.filter_cons]
    rw [sort] at ih
    rw [ih]

theorem eq_of_filters {first second : List E} (ordered : first.Pairwise (key · ≤ key ·))
    (also : second.Pairwise (key · ≤ key ·))
    (same : ∀ t, first.filter (key · = t) = second.filter (key · = t)) : first = second := by
  induction first generalizing second with
  | nil =>
    cases second with
    | nil => rfl
    | cons event rest =>
      have := same (key event)
      simp at this
  | cons event rest ih =>
    cases second with
    | nil =>
      have := same (key event)
      simp at this
    | cons other others =>
      obtain ⟨low, rising⟩ := List.pairwise_cons.mp ordered
      obtain ⟨low', rising'⟩ := List.pairwise_cons.mp also
      have one : key event ≤ key other := by
        have there : other ∈ (event :: rest).filter (key · = key other) := by
          rw [same]
          simp
        rcases List.mem_cons.mp (List.mem_filter.mp there).1 with is | inside
        · rw [is]
        · exact low other inside
      have two : key other ≤ key event := by
        have there : event ∈ (other :: others).filter (key · = key event) := by
          rw [← same]
          simp
        rcases List.mem_cons.mp (List.mem_filter.mp there).1 with is | inside
        · rw [is]
        · exact low' event inside
      have heads := same (key event)
      rw [List.filter_cons_of_pos (by simp), List.filter_cons_of_pos (by simp [le_antisymm two one])] at heads
      obtain ⟨rfl, _⟩ := List.cons.inj heads
      refine congrArg _ (ih rising rising' ?_)
      intro t
      have tails := same t
      rw [List.filter_cons, List.filter_cons] at tails
      split at tails
      · exact (List.cons.inj tails).2
      · exact tails

theorem sort_eq {events history : List E} (ordered : history.Pairwise (key · ≤ key ·))
    (listed : ∀ t, events.filter (key · = t) = history.filter (key · = t)) : sort key events = history := by
  refine eq_of_filters key ?_ ordered fun t => (filter_sort key t events).trans (listed t)
  have trans : IsTrans E fun a b => key a ≤ key b := ⟨fun _ _ _ => le_trans⟩
  have total : Std.Total fun a b : E => key a ≤ key b := ⟨fun a b => le_total (key a) (key b)⟩
  exact List.pairwise_insertionSort _ events

theorem perm_of_listed {events history : List E} (ordered : history.Pairwise (key · ≤ key ·))
    (listed : ∀ t, events.filter (key · = t) = history.filter (key · = t)) : events.Perm history := by
  rw [← sort_eq key ordered listed]
  exact (List.perm_insertionSort _ events).symm

end

end Toggles
