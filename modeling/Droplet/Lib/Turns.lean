import Mathlib

/-! Work that takes its turn: each piece waits until the one before it has settled.

The queue is a stored promise, as programs keep one in a variable or in a map: who joins
waits for the stored promise and stores its own. The stored promise may be dropped once it
has settled, and only by the turn that stored it. At most one turn runs at a time. -/

namespace Turns

universe u

variable {ω : Type u}

inductive Phase (ω : Type u) where
  | waiting (work : ω)
  | running (work : ω)
  | settled

structure Turn (ω : Type u) where
  before : Option ℕ
  phase : Phase ω

/-- The turns in the order they joined, and whose promise is stored. -/
structure Queue (ω : Type u) where
  turns : List (Turn ω)
  entry : Option ℕ

namespace Queue

def empty : Queue ω := ⟨[], none⟩

def join (queue : Queue ω) (work : ω) : Queue ω :=
  ⟨queue.turns ++ [⟨queue.entry, .waiting work⟩], some queue.turns.length⟩

def set (queue : Queue ω) (i : ℕ) (phase : Phase ω) : Queue ω :=
  { queue with turns := queue.turns.modify i (fun turn => { turn with phase := phase }) }

def drop (queue : Queue ω) : Queue ω := { queue with entry := none }

def Settled (queue : Queue ω) (i : ℕ) : Prop := ∃ before, queue.turns[i]? = some ⟨before, .settled⟩

def Runs (queue : Queue ω) (i : ℕ) (work : ω) : Prop :=
  ∃ before, queue.turns[i]? = some ⟨before, .running work⟩

/-- The turn has come: what it waited for has settled. -/
def Ready (queue : Queue ω) (i : ℕ) (work : ω) : Prop :=
  ∃ before, queue.turns[i]? = some ⟨before, .waiting work⟩ ∧ ∀ j ∈ before, queue.Settled j

end Queue

structure Orderly (queue : Queue ω) : Prop where
  entry : ∀ i ∈ queue.entry, i + 1 = queue.turns.length
  idle : queue.entry = none → ∀ i < queue.turns.length, queue.Settled i
  before : ∀ i turn, queue.turns[i]? = some turn → ∀ j ∈ turn.before, j + 1 = i
  alone : ∀ i turn, queue.turns[i]? = some turn → turn.before = none → ∀ j < i, queue.Settled j
  started : ∀ i turn, queue.turns[i]? = some turn → (∀ work, turn.phase ≠ .waiting work) →
    ∀ j < i, queue.Settled j

theorem Orderly.empty : Orderly (Queue.empty : Queue ω) := by
  constructor <;> simp [Queue.empty]

variable {queue : Queue ω}

theorem Orderly.single (orderly : Orderly queue) {i j : ℕ} {work other : ω}
    (first : queue.Runs i work) (second : queue.Runs j other) : i = j := by
  obtain ⟨before, here⟩ := first
  obtain ⟨earlier, there⟩ := second
  rcases lt_trichotomy i j with less | same | more
  · obtain ⟨_, settled⟩ := orderly.started j _ there (by simp) i less
    rw [here] at settled
    cases settled
  · exact same
  · obtain ⟨_, settled⟩ := orderly.started i _ here (by simp) j more
    rw [there] at settled
    cases settled

variable {i : ℕ} {work : ω}

theorem settled_join (settled : queue.Settled i) : (queue.join work).Settled i := by
  obtain ⟨before, found⟩ := settled
  obtain ⟨bound, _⟩ := List.getElem?_eq_some_iff.mp found
  refine ⟨before, ?_⟩
  rw [Queue.join, List.getElem?_append_left bound]
  exact found

theorem Orderly.join (orderly : Orderly queue) (work : ω) : Orderly (queue.join work) := by
  -- A turn of the longer queue is one of before or the new one at the end.
  have split : ∀ i turn, (queue.join work).turns[i]? = some turn → queue.turns[i]? = some turn ∨
        (i = queue.turns.length ∧ turn = ⟨queue.entry, .waiting work⟩) := by
    intro i turn found
    simp only [Queue.join] at found
    rcases lt_or_ge i queue.turns.length with less | more
    · left
      rwa [List.getElem?_append_left less] at found
    · right
      rw [List.getElem?_append_right more] at found
      have zero : i - queue.turns.length = 0 := by
        obtain ⟨bound, _⟩ := List.getElem?_eq_some_iff.mp found
        simp only [List.length_singleton] at bound
        omega
      rw [zero] at found
      exact ⟨by omega, (Option.some.inj found).symm⟩
  constructor
  · intro i same
    obtain rfl := Option.some.inj same
    simp [Queue.join]
  · intro empty
    cases empty
  · intro i turn found j waits
    rcases split i turn found with old | ⟨rfl, rfl⟩
    · exact orderly.before i turn old j waits
    · exact orderly.entry j waits
  · intro i turn found none j less
    rcases split i turn found with old | ⟨rfl, rfl⟩
    · exact settled_join (orderly.alone i turn old none j less)
    · exact settled_join (orderly.idle none j less)
  · intro i turn found started j less
    rcases split i turn found with old | ⟨rfl, rfl⟩
    · exact settled_join (orderly.started i turn old started j less)
    · exact absurd rfl (started work)

theorem getElem?_set (queue : Queue ω) (i j : ℕ) (phase : Phase ω) :
    (queue.set i phase).turns[j]? =
      (queue.turns[j]?).map (fun turn => if i = j then { turn with phase := phase } else turn) := by
  simp only [Queue.set, List.getElem?_modify]
  cases queue.turns[j]? with
  | none => rfl
  | some turn => split <;> simp_all

theorem settled_set {i j : ℕ} {phase : Phase ω} (unsettled : ¬ queue.Settled i)
    (settled : queue.Settled j) : (queue.set i phase).Settled j := by
  have other : i ≠ j := fun same => unsettled (same ▸ settled)
  obtain ⟨before, found⟩ := settled
  exact ⟨before, by rw [getElem?_set, found, Option.map_some, if_neg other]⟩

section

variable (orderly : Orderly queue)
include orderly

theorem Orderly.set (phase : Phase ω) (unsettled : ¬ queue.Settled i)
    (all : ∀ j < i, queue.Settled j) : Orderly (queue.set i phase) := by
  have split : ∀ k turn, (queue.set i phase).turns[k]? = some turn →
      ∃ old, queue.turns[k]? = some old ∧ turn.before = old.before ∧
        (i = k ∨ turn.phase = old.phase) := by
    intro k turn found
    rw [getElem?_set] at found
    obtain ⟨old, here, rfl⟩ := Option.map_eq_some_iff.mp found
    refine ⟨old, here, ?_, ?_⟩
    · split <;> rfl
    · by_cases same : i = k
      · exact .inl same
      · right
        rw [if_neg same]
  constructor
  · intro k same
    have length : (queue.set i phase).turns.length = queue.turns.length := by simp [Queue.set]
    rw [length]
    exact orderly.entry k same
  · intro none k bound
    rw [Queue.set, List.length_modify] at bound
    exact settled_set unsettled (orderly.idle none k bound)
  · intro k turn found j waits
    obtain ⟨old, here, before, _⟩ := split k turn found
    exact orderly.before k old here j (before ▸ waits)
  · intro k turn found none j less
    obtain ⟨old, here, before, _⟩ := split k turn found
    exact settled_set unsettled (orderly.alone k old here (before ▸ none) j less)
  · intro k turn found started j less
    obtain ⟨old, here, _, same | kept⟩ := split k turn found
    · exact settled_set unsettled (all j (same ▸ less))
    · refine settled_set unsettled (orderly.started k old here ?_ j less)
      exact kept ▸ started

theorem Orderly.runs_set (phase : Phase ω) (runs : queue.Runs i work) : Orderly (queue.set i phase) := by
  obtain ⟨before, found⟩ := runs
  apply orderly.set phase
  · intro settled
    obtain ⟨_, other⟩ := settled
    rw [found] at other
    cases other
  · exact orderly.started i _ found (by simp)

theorem Orderly.start (phase : Phase ω) (ready : queue.Ready i work) : Orderly (queue.set i phase) := by
  obtain ⟨before, found, waited⟩ := ready
  apply orderly.set phase
  · intro settled
    obtain ⟨_, other⟩ := settled
    rw [found] at other
    cases other
  · cases before with
    | none => exact orderly.alone i _ found rfl
    | some j =>
      have next := orderly.before i _ found j rfl
      have settled := waited j rfl
      obtain ⟨earlier, here⟩ := settled
      intro k less
      rcases Nat.lt_or_ge k j with before | from_j
      · exact orderly.started j _ here (by simp) k before
      · obtain rfl : k = j := by omega
        exact ⟨earlier, here⟩

theorem Orderly.drop (stored : queue.entry = some i) (settled : queue.Settled i) : Orderly queue.drop := by
  refine ⟨by simp [Queue.drop], ?_, orderly.before, orderly.alone, orderly.started⟩
  intro _ k bound
  have last := orderly.entry i stored
  obtain ⟨before, here⟩ := settled
  rcases Nat.lt_or_ge k i with less | more
  · exact orderly.started i _ here (by simp) k less
  · simp only [Queue.drop] at bound
    obtain rfl : k = i := by omega
    exact ⟨before, here⟩

end

theorem runs_join {work other : ω} (runs : (queue.join other).Runs i work) : queue.Runs i work := by
  obtain ⟨before, found⟩ := runs
  simp only [Queue.join] at found
  rcases lt_or_ge i queue.turns.length with less | more
  · rw [List.getElem?_append_left less] at found
    exact ⟨before, found⟩
  · rw [List.getElem?_append_right more] at found
    obtain ⟨bound, same⟩ := List.getElem?_eq_some_iff.mp found
    simp only [List.length_singleton] at bound
    simp at same

theorem runs_set {i j : ℕ} {phase : Phase ω} (runs : (queue.set i phase).Runs j work) :
    (i = j ∧ phase = .running work) ∨ (i ≠ j ∧ queue.Runs j work) := by
  obtain ⟨before, found⟩ := runs
  rw [getElem?_set] at found
  obtain ⟨old, here, same⟩ := Option.map_eq_some_iff.mp found
  by_cases equal : i = j
  · left
    rw [if_pos equal] at same
    exact ⟨equal, congrArg Turn.phase same⟩
  · right
    rw [if_neg equal] at same
    exact ⟨equal, before, same ▸ here⟩

end Turns
