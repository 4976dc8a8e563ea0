import Droplet.Lib.Histories
import Droplet.Brain.Lease

/-! Which runs can still touch a claim, and that none of them touches a later one. -/

namespace Droplet.Brain

open Droplet.Lib

def Entry.winner (passKey : PassKey) : Entry → Option RunId
  | .won run key => if key = passKey then some run else none
  | _ => none

def lastWon (passKey : PassKey) (log : List Entry) : Option RunId :=
  Histories.latest (Entry.winner passKey) log

/-- The statement, when the database runs it or its answer is taken in, lets the run touch a claim. -/
def Request.arms (request : Request) : Bool :=
  match request.statement, request.answer with
  | .claim _, some (.count 1) => request.awaited
  | .beat _, none => true
  | .release, none => true
  | _, _ => false

/-- A run that won and may still send a heartbeat or a release, or has one on its way. -/
def World.Armed (world : World) (id : RunId) : Prop :=
  (∃ run, world.runs[id]? = some run ∧ run.stage = .running) ∨
    ∃ request ∈ world.requests, request.run = id ∧ request.arms = true

def World.owner (world : World) (id : RunId) : Option (WorkerId × PassKey) :=
  world.runs[id]?.map fun run => (run.workerId, run.passKey)

/-- What an entry may be written after: a heartbeat or a release of a run whose claim a later run won
finds nothing to touch. -/
def Fitting (earlier : List Entry) : Entry → Prop
  | .beat run passKey held => ∀ last, lastWon passKey earlier = some last → last ≠ run → held = false
  | .released run passKey held =>
    ∀ last, lastWon passKey earlier = some last → last ≠ run → held = false
  | _ => True

structure Fenced (world : World) : Prop where
  sent : ∀ request ∈ world.requests, request.run < world.runs.length
  won : ∀ run passKey, .won run passKey ∈ world.log → run < world.runs.length
  held : ∀ passKey row workerId, world.passes passKey = some row → row.heldBy workerId = true →
    ∃ last, lastWon passKey world.log = some last ∧ world.owner last = some (workerId, passKey)
  sole : ∀ a b owner, world.Armed a → world.Armed b → world.owner a = some owner →
    world.owner b = some owner → a = b
  last : ∀ a workerId passKey last, world.Armed a → world.owner a = some (workerId, passKey) →
    lastWon passKey world.log = some last → world.owner last = some (workerId, passKey) → a = last
  fitting : Histories.Each Fitting world.log

theorem lastWon_append (passKey : PassKey) (log : List Entry) (entry : Entry) :
    lastWon passKey (log ++ [entry]) = (entry.winner passKey).or (lastWon passKey log) :=
  Histories.latest_append log entry

theorem mem_of_lastWon {passKey : PassKey} {log : List Entry} {last : RunId}
    (found : lastWon passKey log = some last) : .won last passKey ∈ log := by
  obtain ⟨entry, member, won⟩ := Histories.mem_of_latest found
  cases entry with
  | won run key =>
    simp only [Entry.winner, Option.ite_none_right_eq_some, Option.some.injEq] at won
    rw [← won.1, ← won.2]
    exact member
  | beat | released | told => cases won

@[simp] theorem BrainPass.claimed_heldBy (workerId other : WorkerId) (now : ℤ) (row : BrainPass) :
    (row.claimed workerId now).heldBy other = (workerId == other) := by
  simp [claimed, heldBy]

@[simp] theorem BrainPass.beaten_heldBy (workerId : WorkerId) (now : ℤ) (row : BrainPass) :
    (row.beaten now).heldBy workerId = row.heldBy workerId := rfl

@[simp] theorem BrainPass.released_heldBy (workerId : WorkerId) (row : BrainPass) :
    row.released.heldBy workerId = false := rfl

variable {world next : World}

/-- Who holds what, who can touch it and what was won are as before, or less. -/
structure Narrower (world next : World) : Prop where
  length : world.runs.length ≤ next.runs.length
  owners : ∀ id, id < world.runs.length → next.owner id = world.owner id
  armed : ∀ id, next.Armed id → world.Armed id
  sent : ∀ request ∈ next.requests, request.run < next.runs.length
  rows : ∀ passKey row workerId, next.passes passKey = some row → row.heldBy workerId = true →
    ∃ row', world.passes passKey = some row' ∧ row'.heldBy workerId = true

section

variable (fenced : Fenced world)
include fenced

theorem Fenced.armed_known {id : RunId} (armed : world.Armed id) : id < world.runs.length := by
  rcases armed with running | ⟨request, member, same, _⟩
  · obtain ⟨run, found, _⟩ := running
    exact (List.getElem?_eq_some_iff.mp found).1
  · rw [← same]
    exact fenced.sent request member

theorem Fenced.last_known {passKey : PassKey} {last : RunId}
    (found : lastWon passKey world.log = some last) : last < world.runs.length :=
  fenced.won last passKey (mem_of_lastWon found)

theorem Fenced.narrow (narrower : Narrower world next)
    (lasts : ∀ passKey, lastWon passKey next.log = lastWon passKey world.log)
    (fitting : Histories.Each Fitting next.log)
    (won : ∀ run passKey, .won run passKey ∈ next.log → .won run passKey ∈ world.log) : Fenced next where
  sent := narrower.sent
  won := by
    intro run passKey member
    exact (fenced.won run passKey (won run passKey member)).trans_le narrower.length
  held := by
    intro passKey row workerId found held
    obtain ⟨row', found', held'⟩ := narrower.rows passKey row workerId found held
    obtain ⟨last, is_last, owner⟩ := fenced.held passKey row' workerId found' held'
    refine ⟨last, (lasts passKey).trans is_last, ?_⟩
    exact (narrower.owners last (fenced.last_known is_last)).trans owner
  sole := by
    intro a b owner armed_a armed_b owner_a owner_b
    have old_a := narrower.armed a armed_a
    have old_b := narrower.armed b armed_b
    rw [narrower.owners a (fenced.armed_known old_a)] at owner_a
    rw [narrower.owners b (fenced.armed_known old_b)] at owner_b
    exact fenced.sole a b owner old_a old_b owner_a owner_b
  last := by
    intro a workerId passKey last armed owner is_last owner_last
    rw [lasts] at is_last
    have old := narrower.armed a armed
    rw [narrower.owners a (fenced.armed_known old)] at owner
    rw [narrower.owners last (fenced.last_known is_last)] at owner_last
    exact fenced.last a workerId passKey last old owner is_last owner_last
  fitting := fitting

theorem Fenced.quiet (narrower : Narrower world next) (log : next.log = world.log) : Fenced next := by
  apply fenced.narrow narrower
  · intro passKey
    rw [log]
  · rw [log]
    exact fenced.fitting
  · intro run passKey
    rw [log]
    exact id

theorem Fenced.noted (narrower : Narrower world next) {entry : Entry}
    (log : next.log = world.log ++ [entry]) (no_claim : ∀ run passKey, entry ≠ .won run passKey)
    (fitting : Fitting world.log entry) : Fenced next := by
  apply fenced.narrow narrower
  · intro passKey
    rw [log, lastWon_append]
    cases entry with
    | won run key => exact absurd rfl (no_claim run key)
    | beat | released | told => rfl
  · rw [log]
    exact fenced.fitting.append fitting
  · intro run passKey member
    rw [log, List.mem_append, List.mem_singleton] at member
    rcases member with earlier | same
    · exact earlier
    · exact absurd same.symm (no_claim run passKey)

theorem Fenced.fits {id last : RunId} {workerId : WorkerId}
    {passKey : PassKey} {row : BrainPass} (armed : world.Armed id)
    (owner : world.owner id = some (workerId, passKey)) (found : world.passes passKey = some row)
    (held : row.heldBy workerId = true) (is_last : lastWon passKey world.log = some last) : last = id := by
  obtain ⟨holder, is_holder, owner_holder⟩ := fenced.held passKey row workerId found held
  have same : last = holder := Option.some_inj.mp (is_last.symm.trans is_holder)
  rw [same]
  exact (fenced.last id workerId passKey holder armed owner is_holder owner_holder).symm

end

end Droplet.Brain
