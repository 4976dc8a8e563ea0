import Mathlib

/-! Runs of a system that takes one step for each event, and runs whose steps all meet a condition. -/

namespace Stepping

universe u v

variable {σ : Type u} {ε : Type v} (step : σ → ε → σ)

def run (state : σ) (events : List ε) : σ := events.foldl step state

@[simp] theorem run_nil (state : σ) : run step state [] = state := rfl

@[simp] theorem run_cons (state : σ) (event : ε) (rest : List ε) :
    run step state (event :: rest) = run step (step state event) rest := rfl

theorem run_append (state : σ) (first second : List ε) :
    run step state (first ++ second) = run step (run step state first) second := by
  rw [run, run, run, List.foldl_append]

def Along (allowed : σ → ε → Prop) : σ → List ε → Prop
  | _, [] => True
  | state, event :: rest => allowed state event ∧ Along allowed (step state event) rest

instance Along.decidable {allowed : σ → ε → Prop} [∀ state event, Decidable (allowed state event)] :
    ∀ state events, Decidable (Along step allowed state events)
  | _, [] => inferInstanceAs (Decidable True)
  | state, event :: rest => @instDecidableAnd _ _ _ (decidable (step state event) rest)

variable {step} {allowed : σ → ε → Prop} {state : σ}

theorem Along.append {first second : List ε} :
    Along step allowed state (first ++ second) ↔
      Along step allowed state first ∧ Along step allowed (run step state first) second := by
  induction first generalizing state with
  | nil => simp [Along]
  | cons event rest ih => simp [Along, ih, and_assoc]

theorem Along.and {granted : σ → ε → Prop} {events : List ε} (first : Along step allowed state events)
    (second : Along step granted state events) :
    Along step (fun state event => allowed state event ∧ granted state event) state events := by
  induction events generalizing state with
  | nil => trivial
  | cons event rest ih => exact ⟨⟨first.1, second.1⟩, ih first.2 second.2⟩

theorem Along.imp {granted : σ → ε → Prop} {events : List ε}
    (weaker : ∀ state event, allowed state event → granted state event)
    (along : Along step allowed state events) : Along step granted state events := by
  induction events generalizing state with
  | nil => trivial
  | cons event rest ih => exact ⟨weaker state event along.1, ih along.2⟩

theorem Along.of_forall {events : List ε} (all : ∀ event ∈ events, ∀ state, allowed state event) :
    Along step allowed state events := by
  induction events generalizing state with
  | nil => trivial
  | cons event rest ih =>
    exact ⟨all event (.head _) state, ih fun later member => all later (.tail _ member)⟩

theorem Along.keeps {invariant : σ → Prop}
    (keeps : ∀ state event, invariant state → allowed state event → invariant (step state event))
    {events : List ε} (along : Along step allowed state events) (start : invariant state) :
    invariant (run step state events) := by
  induction events generalizing state with
  | nil => exact start
  | cons event rest ih => exact ih along.2 (keeps state event start along.1)

theorem run_keeps {invariant : σ → Prop}
    (keeps : ∀ state event, invariant state → invariant (step state event)) (events : List ε)
    (start : invariant state) : invariant (run step state events) := by
  induction events generalizing state with
  | nil => exact start
  | cons event rest ih => exact ih (keeps state event start)

theorem along_congr {invariant : σ → Prop} {granted : σ → ε → Prop}
    (keeps : ∀ state event, invariant state → invariant (step state event))
    (same : ∀ state event, invariant state → (allowed state event ↔ granted state event))
    {events : List ε} (start : invariant state) :
    Along step allowed state events ↔ Along step granted state events := by
  induction events generalizing state with
  | nil => exact Iff.rfl
  | cons event rest ih => exact and_congr (same state event start) (ih (keeps state event start))

theorem along_ascends {α : Type*} [Preorder α] {measure : σ → α} {events : List ε} :
    Along step (fun state event => measure state ≤ measure (step state event)) state events ↔
      ∀ first next rest, events = first ++ next ++ rest →
        measure (run step state first) ≤ measure (run step state (first ++ next)) := by
  constructor
  · intro along first next rest split
    rw [split] at along
    have later := (Along.append.mp (Along.append.mp along).1).2
    rw [run_append]
    have climbs : ∀ reached event, measure (run step state first) ≤ measure reached →
        measure reached ≤ measure (step reached event) →
          measure (run step state first) ≤ measure (step reached event) := by
      intro reached event below rises
      exact below.trans rises
    exact later.keeps climbs (le_refl _)
  · intro ascends
    induction events generalizing state with
    | nil => trivial
    | cons event rest ih =>
      refine ⟨ascends [] [event] rest rfl, ih ?_⟩
      intro first next later split
      exact ascends (event :: first) next later (congrArg (event :: ·) split)

end Stepping
