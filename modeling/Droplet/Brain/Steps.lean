import Droplet.Brain.Fence

/-! No step lets a run touch a claim it did not win, as long as a process wins a pass only when no
earlier run of it can still touch that pass. -/

namespace Droplet.Brain

open Droplet.Lib

variable {base world next : World} {id : RunId}

theorem Narrower.refl (fenced : Fenced world) : Narrower world world where
  length := le_refl _
  owners _ _ := rfl
  armed _ armed := armed
  sent := fenced.sent
  rows _ row _ found held := ⟨row, found, held⟩

theorem Narrower.send (narrower : Narrower base world) {statement : Statement} (known : id < world.runs.length)
    (arms : (⟨id, statement, none, true⟩ : Request).arms = true → base.Armed id) :
    Narrower base (world.send id statement) where
  length := narrower.length
  owners := narrower.owners
  armed := by
    intro other armed
    rcases armed with running | ⟨request, member, same, armed⟩
    · exact narrower.armed other (Or.inl running)
    · rcases List.mem_append.mp member with earlier | new
      · exact narrower.armed other (Or.inr ⟨request, earlier, same, armed⟩)
      · cases List.mem_singleton.mp new
        rw [← same]
        exact arms armed
  sent := by
    intro request member
    rcases List.mem_append.mp member with earlier | new
    · exact narrower.sent request earlier
    · cases List.mem_singleton.mp new
      exact known
  rows := narrower.rows

theorem owner_modify {change : Run → Run}
    (same : ∀ run, (change run).workerId = run.workerId ∧ (change run).passKey = run.passKey) :
    ({ world with runs := world.runs.modify id change } : World).owner = world.owner := by
  funext other
  simp only [World.owner, List.getElem?_modify]
  cases world.runs[other]? with
  | none => rfl
  | some run =>
    by_cases here : id = other
    · simp [here, same run]
    · simp [here]

section

variable (narrower : Narrower base world)
include narrower

theorem Narrower.modify {change : Run → Run}
    (same : ∀ run, (change run).workerId = run.workerId ∧ (change run).passKey = run.passKey)
    (arms : ∀ run, world.runs[id]? = some run → (change run).stage = .running → base.Armed id) :
    Narrower base { world with runs := world.runs.modify id change } where
  length := by
    rw [List.length_modify]
    exact narrower.length
  owners := by
    intro other known
    rw [owner_modify same]
    exact narrower.owners other known
  armed := by
    intro other armed
    rcases armed with ⟨run, found, running⟩ | requested
    · rw [List.getElem?_modify, Option.map_eq_map, Option.map_eq_some_iff] at found
      obtain ⟨before, found, changed⟩ := found
      by_cases here : id = other
      · subst here
        rw [if_pos rfl] at changed
        rw [← changed] at running
        exact arms _ found running
      · rw [if_neg here] at changed
        cases changed
        exact narrower.armed other (Or.inl ⟨run, found, running⟩)
    · exact narrower.armed other (Or.inr requested)
  sent := by
    intro request member
    rw [List.length_modify]
    exact narrower.sent request member
  rows := narrower.rows

theorem Narrower.setStage {stage : Stage}
    (arms : stage = .running → base.Armed id) : Narrower base (world.setStage id stage) :=
  narrower.modify (fun _ => ⟨rfl, rfl⟩) fun _ _ running => arms running

theorem Narrower.abort : Narrower base (world.abort id) :=
  narrower.modify (fun _ => ⟨rfl, rfl⟩) fun run found running =>
    narrower.armed id (Or.inl ⟨run, found, running⟩)

theorem Narrower.onProcess (workerId : WorkerId)
    (change : Process → Process) : Narrower base (world.onProcess workerId change) :=
  ⟨narrower.length, narrower.owners, narrower.armed, narrower.sent, narrower.rows⟩

theorem Narrower.note (entry : Entry) : Narrower base (world.note entry) :=
  ⟨narrower.length, narrower.owners, narrower.armed, narrower.sent, narrower.rows⟩

theorem Narrower.refuse (run : Run) (reason : Refusal) : Narrower base (world.refuse id run reason) := by
  have refused : Narrower base (world.setStage id (.refused reason)) := by
    apply narrower.setStage
    intro running
    cases running
  unfold World.refuse World.settleAttempt
  exact refused.onProcess _ _

theorem Narrower.replace {place : ℕ} {request other : Request}
    (found : world.requests[place]? = some request) (run : other.run = request.run)
    (arms : other.arms = true → request.arms = true) :
    Narrower base { world with requests := world.requests.set place other } where
  length := narrower.length
  owners := narrower.owners
  armed := by
    intro id armed
    rcases armed with running | ⟨written, member, same, armed⟩
    · exact narrower.armed id (Or.inl running)
    · rcases List.mem_or_eq_of_mem_set member with earlier | new
      · exact narrower.armed id (Or.inr ⟨written, earlier, same, armed⟩)
      · cases new
        exact narrower.armed id
          (Or.inr ⟨request, List.mem_of_getElem? found, run.symm.trans same, arms armed⟩)
  sent := by
    intro written member
    rcases List.mem_or_eq_of_mem_set member with earlier | new
    · exact narrower.sent written earlier
    · rw [new, run]
      exact narrower.sent request (List.mem_of_getElem? found)
  rows := narrower.rows

theorem Narrower.hear {place : ℕ} {request : Request}
    (found : world.requests[place]? = some request) : Narrower base (world.hear place request) := by
  have arms : ({ request with awaited := false } : Request).arms = true → request.arms = true := by
    unfold Request.arms
    dsimp only
    intro armed
    split at armed
    · cases armed
    · rfl
    · rfl
    · cases armed
  exact narrower.replace found rfl arms

end

variable {row : Option BrainPass}

section

variable (narrower : Narrower base world)
include narrower

theorem Narrower.put {passKey : PassKey}
    (holders : ∀ written workerId, row = some written → written.heldBy workerId = true →
      ∃ before, world.passes passKey = some before ∧ before.heldBy workerId = true) :
    Narrower base { world with passes := Function.update world.passes passKey row } where
  length := narrower.length
  owners := narrower.owners
  armed := narrower.armed
  sent := narrower.sent
  rows := by
    intro key written workerId found held
    dsimp only at found
    by_cases same : key = passKey
    · subst same
      rw [Function.update_self] at found
      obtain ⟨before, found, held⟩ := holders written workerId found held
      exact narrower.rows key before workerId found held
    · rw [Function.update_of_ne same] at found
      exact narrower.rows key written workerId found held

theorem Narrower.startPass (run : Run) (known : id < world.runs.length) (armed : base.Armed id) :
    Narrower base (world.startPass id run) := by
  unfold World.startPass
  split
  · apply Narrower.send
    · exact narrower.setStage fun _ => armed
    · rw [World.setStage, List.length_modify]
      exact known
    · exact fun _ => armed
  · have started : Narrower base (world.setStage id .running) := narrower.setStage fun _ => armed
    unfold World.settleAttempt
    exact (started.onProcess _ _).onProcess _ _

theorem Narrower.afterLookUp (run : Run) (outcome : Option Answer) :
    Narrower base (world.afterLookUp id run outcome) := by
  unfold World.afterLookUp
  split
  all_goals exact narrower.refuse run _

theorem Narrower.finish (run : Run) : Narrower base (world.finish id run) := by
  have finished : Narrower base (world.setStage id .finished) := by
    apply narrower.setStage
    intro running
    cases running
  unfold World.finish
  exact finished.onProcess _ _

end

variable {outcome : Option Answer}

theorem Narrower.afterClaim (narrower : Narrower base world) (run : Run)
    (known : id < world.runs.length) (won : outcome = some (.count 1) → base.Armed id) :
    Narrower base (world.afterClaim id run outcome) := by
  unfold World.afterClaim
  split
  · exact narrower.startPass run known (won rfl)
  · apply Narrower.send
    · apply narrower.setStage
      intro running
      cases running
    · rw [World.setStage, List.length_modify]
      exact known
    · intro arms
      cases arms
  · exact narrower.refuse run _

def World.Wins (world : World) (place : ℕ) (winner : RunId) (run : Run) : Prop :=
  ∃ request now row, world.requests[place]? = some request ∧ request.answer = none ∧
    request.statement = .claim now ∧ request.run = winner ∧ world.runs[winner]? = some run ∧
    world.passes run.passKey = some row ∧ row.claimable now = true

/-- The answer that a claim was won comes back to a process that is not shutting down. -/
def World.Starts (world : World) (place : ℕ) (winner : RunId) (run : Run) : Prop :=
  ∃ request now, world.requests[place]? = some request ∧ request.awaited = true ∧
    request.answer = some (.count 1) ∧ request.statement = .claim now ∧ request.run = winner ∧
    world.runs[winner]? = some run ∧ run.stage = .claiming ∧
    (world.processes run.workerId).shuttingDown = false

/-- A process wins a pass only when no other run of it can still touch that pass, and starts on it only
when no other run of it waits for the release of that pass. -/
def Apart (world : World) : Event → Prop
  | .execute place =>
    ∀ winner run, world.Wins place winner run → ∀ other otherRun,
      world.runs[other]? = some otherRun → other ≠ winner → otherRun.workerId = run.workerId →
        otherRun.passKey = run.passKey → ¬ world.Armed other
  | .deliver place =>
    ∀ winner run, world.Starts place winner run → ∀ other otherRun,
      world.runs[other]? = some otherRun → other ≠ winner → otherRun.workerId = run.workerId →
        otherRun.passKey = run.passKey → otherRun.stage ≠ .releasing
  | _ => True

theorem Narrower.logged (narrower : Narrower base world) (log : List Entry) :
    Narrower base { world with log := log } :=
  ⟨narrower.length, narrower.owners, narrower.armed, narrower.sent, narrower.rows⟩

theorem owner_of_found {run : Run} (found : world.runs[id]? = some run) :
    world.owner id = some (run.workerId, run.passKey) := by
  rw [World.owner, found]
  rfl

theorem found_of_owner {workerId : WorkerId} {passKey : PassKey}
    (owner : world.owner id = some (workerId, passKey)) :
    ∃ run, world.runs[id]? = some run ∧ run.workerId = workerId ∧ run.passKey = passKey := by
  obtain ⟨run, found, same⟩ := Option.map_eq_some_iff.mp owner
  rw [Prod.mk.injEq] at same
  exact ⟨run, found, same⟩

variable {place : ℕ} {request : Request} {run : Run}

variable {data : BrainPass → BrainPass}

theorem updateMany_count {where_ : BrainPass → Bool} (counted : (updateMany where_ data row).2 = .count 1) :
    ∃ written, row = some written ∧ where_ written = true := by
  cases row with
  | none => cases counted
  | some written =>
    refine ⟨written, rfl, ?_⟩
    by_contra misses
    simp [updateMany, misses] at counted

theorem updateMany_row {where_ : BrainPass → Bool} {next : BrainPass}
    (found : (updateMany where_ data row).1 = some next) :
    ∃ before, row = some before ∧ (next = before ∨ where_ before = true ∧ next = data before) := by
  cases row with
  | none => cases found
  | some before =>
    refine ⟨before, rfl, ?_⟩
    unfold updateMany at found
    dsimp only at found
    split at found
    · rename_i matches_
      exact Or.inr ⟨matches_, (Option.some_inj.mp found).symm⟩
    · exact Or.inl (Option.some_inj.mp found).symm

section

variable (fenced : Fenced world)
include fenced

section

variable (found : world.requests[place]? = some request)
include found

theorem Fenced.executed (row : Option BrainPass) (answer : Answer) (log : List Entry)
    (arms : ({ request with answer := some answer } : Request).arms = false)
    (holders : ∀ written workerId, row = some written → written.heldBy workerId = true →
      ∃ before, world.passes run.passKey = some before ∧ before.heldBy workerId = true) :
    Narrower world
      { world with
        passes := Function.update world.passes run.passKey row
        requests := world.requests.set place { request with answer := some answer }
        log := log } := by
  have put := (Narrower.refl fenced).put holders
  have replaced := put.replace found (rfl : ({ request with answer := some answer } : Request).run =
    request.run) fun armed => absurd armed (by rw [arms]; exact Bool.false_ne_true)
  exact replaced.logged log

theorem Fenced.touched (owned : world.runs[request.run]? = some run) (armed : request.arms = true) {answer : Answer}
    (counted : (updateMany (BrainPass.heldBy run.workerId) data
      (world.passes run.passKey)).2 = answer) :
    ∀ last, lastWon run.passKey world.log = some last → last ≠ request.run →
      (answer == .count 1) = false := by
  intro last is_last differs
  by_contra touches
  have one : answer = .count 1 := by simpa using touches
  obtain ⟨row, found_row, held⟩ := updateMany_count (counted.trans one)
  exact differs (fenced.fits (Or.inr ⟨request, List.mem_of_getElem? found, rfl, armed⟩)
    (owner_of_found owned) found_row held is_last)

theorem Fenced.wins {now : ℤ} {row : BrainPass} (owned : world.runs[request.run]? = some run)
    (alone : ∀ other otherRun, world.runs[other]? = some otherRun → other ≠ request.run →
      otherRun.workerId = run.workerId → otherRun.passKey = run.passKey → ¬ world.Armed other) :
    Fenced
      { world with
        passes := Function.update world.passes run.passKey (some (row.claimed run.workerId now))
        requests := world.requests.set place { request with answer := some (.count 1) }
        log := world.log ++ [.won request.run run.passKey] } := by
  have armed_cases {id : RunId} (armed : ({ world with
      passes := Function.update world.passes run.passKey (some (row.claimed run.workerId now))
      requests := world.requests.set place { request with answer := some (.count 1) }
      log := world.log ++ [.won request.run run.passKey] } : World).Armed id) :
      world.Armed id ∨ id = request.run := by
    rcases armed with running | ⟨written, member, same, armed⟩
    · exact Or.inl (Or.inl running)
    · rcases List.mem_or_eq_of_mem_set member with earlier | new
      · exact Or.inl (Or.inr ⟨written, earlier, same, armed⟩)
      · rw [new] at same
        exact Or.inr same.symm
  have unarmed {id : RunId} (differs : id ≠ request.run)
      (owner : world.owner id = some (run.workerId, run.passKey)) : ¬ world.Armed id := by
    obtain ⟨other, found, worker, key⟩ := found_of_owner owner
    exact alone id other found differs worker key
  have own : world.owner request.run = some (run.workerId, run.passKey) := owner_of_found owned
  refine ⟨?_, ?_, ?_, ?_, ?_, ?_⟩
  · intro written member
    rcases List.mem_or_eq_of_mem_set member with earlier | new
    · exact fenced.sent written earlier
    · rw [new]
      exact fenced.sent request (List.mem_of_getElem? found)
  · intro winner passKey member
    rcases List.mem_append.mp member with earlier | new
    · exact fenced.won winner passKey earlier
    · cases List.mem_singleton.mp new
      exact fenced.sent request (List.mem_of_getElem? found)
  · intro passKey written workerId found_row held
    dsimp only at found_row
    by_cases same : passKey = run.passKey
    · rw [same, Function.update_self] at found_row
      rw [← Option.some_inj.mp found_row, BrainPass.claimed_heldBy, beq_iff_eq] at held
      refine ⟨request.run, ?_, ?_⟩
      · rw [lastWon_append, same]
        simp [Entry.winner]
      · rw [same, ← held]
        exact own
    · rw [Function.update_of_ne same] at found_row
      obtain ⟨last, is_last, owner⟩ := fenced.held passKey written workerId found_row held
      refine ⟨last, ?_, owner⟩
      rw [lastWon_append, Entry.winner, if_neg (Ne.symm same)]
      exact is_last
  · intro a b owner armed_a armed_b owner_a owner_b
    rcases armed_cases armed_a with old_a | new_a
    · rcases armed_cases armed_b with old_b | new_b
      · exact fenced.sole a b owner old_a old_b owner_a owner_b
      · by_contra differs
        rw [new_b] at owner_b differs
        exact unarmed differs (owner_a.trans (owner_b.symm.trans own)) old_a
    · rcases armed_cases armed_b with old_b | new_b
      · by_contra differs
        rw [new_a] at owner_a differs
        exact unarmed (Ne.symm differs) (owner_b.trans (owner_a.symm.trans own)) old_b
      · rw [new_a, new_b]
  · intro a workerId passKey last armed owner is_last owner_last
    rw [lastWon_append, Entry.winner] at is_last
    split at is_last
    · rename_i same
      have winner : request.run = last := Option.some_inj.mp is_last
      rcases armed_cases armed with old | new
      · by_contra differs
        rw [← winner] at owner_last differs
        exact unarmed differs (owner.trans (owner_last.symm.trans own)) old
      · exact new.trans winner
    · rcases armed_cases armed with old | new
      · exact fenced.last a workerId passKey last old owner is_last owner_last
      · rename_i differs
        rw [new] at owner
        have same := own.symm.trans owner
        simp only [Option.some.injEq, Prod.mk.injEq] at same
        exact absurd same.2 differs
  · exact fenced.fitting.append trivial

end

theorem Fenced.executeAt (place : ℕ) (alone : ∀ winner run, world.Wins place winner run → ∀ other otherRun,
      world.runs[other]? = some otherRun → other ≠ winner → otherRun.workerId = run.workerId →
        otherRun.passKey = run.passKey → ¬ world.Armed other) :
    Fenced (world.executeAt place) := by
  unfold World.executeAt
  split
  swap
  · exact fenced
  rename_i request found
  split
  swap
  · exact fenced
  rename_i run unanswered owned
  obtain ⟨id, statement, answer, awaited⟩ := request
  dsimp only at unanswered owned
  subst unanswered
  unfold World.execute
  cases statement with
  | claim now =>
    cases row_found : world.passes run.passKey with
    | none =>
      simp only [Statement.execute, updateMany, Entry.of, List.append_nil]
      refine fenced.quiet (fenced.executed found none _ _ rfl ?_) rfl
      intro written workerId none_written
      cases none_written
    | some row =>
      by_cases claims : row.claimable now = true
      · simp only [Statement.execute, updateMany, claims, if_true, Entry.of]
        apply fenced.wins found owned
        exact alone id run ⟨_, now, row, found, rfl, rfl, rfl, owned, row_found, claims⟩
      · simp only [Statement.execute, updateMany, claims, Bool.false_eq_true, if_false, Entry.of,
          List.append_nil]
        refine fenced.quiet (fenced.executed found (some row) _ _ rfl ?_) rfl
        intro written workerId same held
        cases same
        exact ⟨row, row_found, held⟩
  | lookUp =>
    simp only [Statement.execute, Entry.of, List.append_nil]
    refine fenced.quiet (fenced.executed found _ _ _ rfl ?_) rfl
    intro written workerId same held
    exact ⟨written, same, held⟩
  | beat now =>
    simp only [Statement.execute, Entry.of]
    refine fenced.noted (fenced.executed found _ _ _ rfl ?_) rfl ?_ ?_
    · intro written workerId same held
      obtain ⟨before, found_row, unchanged | ⟨_, beaten⟩⟩ := updateMany_row same
      · exact ⟨before, found_row, unchanged ▸ held⟩
      · rw [beaten, BrainPass.beaten_heldBy] at held
        exact ⟨before, found_row, held⟩
    · intro winner passKey same
      cases same
    · exact fenced.touched found owned rfl rfl
  | release =>
    simp only [Statement.execute, Entry.of]
    refine fenced.noted (fenced.executed found _ _ _ rfl ?_) rfl ?_ ?_
    · intro written workerId same held
      obtain ⟨before, found_row, unchanged | ⟨_, released⟩⟩ := updateMany_row same
      · exact ⟨before, found_row, unchanged ▸ held⟩
      · rw [released, BrainPass.released_heldBy] at held
        cases held
    · intro winner passKey same
      cases same
    · exact fenced.touched found owned rfl rfl

theorem told_afterBeat (narrower : Narrower world next)
    (log : next.log = world.log) (outcome : Option Answer) : Fenced (next.afterBeat id outcome) := by
  have no_claim (held : Bool) : ∀ run passKey, Entry.told id held ≠ .won run passKey := by
    intro run passKey same
    cases same
  unfold World.afterBeat
  split
  · exact fenced.noted (narrower.note _) (congrArg (· ++ [_]) log) (no_claim true) trivial
  · exact fenced.noted (narrower.abort.note _) (congrArg (· ++ [_]) log) (no_claim false) trivial
  · exact fenced.quiet narrower log

end

theorem log_afterClaim (run : Run) (outcome : Option Answer) :
    (world.afterClaim id run outcome).log = world.log := by
  unfold World.afterClaim World.startPass
  split
  · split <;> rfl
  · rfl
  · rfl

theorem log_afterLookUp (run : Run) (outcome : Option Answer) :
    (world.afterLookUp id run outcome).log = world.log := by
  unfold World.afterLookUp
  split <;> rfl

section

variable (fenced : Fenced world)
include fenced

theorem Fenced.react (narrower : Narrower world next)
    (log : next.log = world.log) {statement : Statement} (known : id < next.runs.length)
    (won : ∀ now, statement = .claim now → outcome = some (.count 1) → world.Armed id) :
    Fenced (next.react id run statement outcome) := by
  unfold World.react
  split
  · rename_i now _
    refine fenced.quiet (narrower.afterClaim run known (won now rfl)) ?_
    exact (log_afterClaim run outcome).trans log
  · exact fenced.quiet (narrower.afterLookUp run outcome) ((log_afterLookUp run outcome).trans log)
  · exact fenced.quiet (narrower.refuse run .shuttingDown) log
  · exact fenced.quiet (narrower.finish run) log
  · exact told_afterBeat fenced narrower log outcome
  · exact fenced.quiet narrower log

theorem Fenced.settleAt (found : world.requests[place]? = some request)
    (answered : ∀ answer, outcome = some answer → request.answer = outcome) :
    Fenced (world.settleAt place request outcome) := by
  unfold World.settleAt
  split
  swap
  · exact fenced
  rename_i run owned
  split
  swap
  · exact fenced
  rename_i waits
  apply fenced.react ((Narrower.refl fenced).hear found) rfl
  · exact (List.getElem?_eq_some_iff.mp owned).1
  · intro now is_claim won
    refine Or.inr ⟨request, List.mem_of_getElem? found, rfl, ?_⟩
    rw [Request.arms, is_claim, answered _ won, won]
    exact waits

theorem Fenced.runWithLease (workerId : WorkerId) (passKey : PassKey)
    (now : ℤ) : Fenced (world.runWithLease workerId passKey now) := by
  have called (stage : Stage) (waits : stage ≠ .running) : Narrower world { world with
        runs := world.runs ++ [⟨workerId, passKey, stage, false⟩] } := by
    refine ⟨by simp, ?_, ?_, ?_, fun _ row _ found held => ⟨row, found, held⟩⟩
    · intro id known
      rw [World.owner, World.owner, List.getElem?_append_left known]
    · intro id armed
      rcases armed with ⟨run, found, running⟩ | requested
      · rcases Places.append_cases found with new | old
        · rw [new.2] at running
          exact absurd running waits
        · exact Or.inl ⟨run, old, running⟩
      · exact Or.inr requested
    · intro request member
      rw [List.length_append]
      exact (fenced.sent request member).trans_le (Nat.le_add_right _ _)
  unfold World.runWithLease
  split
  · refine fenced.quiet (called (.refused .shuttingDown) ?_) rfl
    intro same
    cases same
  · refine fenced.quiet (((called .claiming ?_).onProcess workerId _).send ?_ ?_) rfl
    · intro same
      cases same
    · simp [World.onProcess]
    · intro arms
      cases arms

theorem Fenced.timer (id : RunId) (now : ℤ) : Fenced (world.timer id now) := by
  unfold World.timer
  split
  · rename_i run found
    split
    · rename_i running
      refine fenced.quiet ((Narrower.refl fenced).send ?_ ?_) rfl
      · exact (List.getElem?_eq_some_iff.mp found).1
      · exact fun _ => Or.inl ⟨run, found, running⟩
    · exact fenced
  · exact fenced

theorem Fenced.passEnds (id : RunId) : Fenced (world.passEnds id) := by
  unfold World.passEnds
  split
  · rename_i run found
    split
    · rename_i running
      have ended : Narrower world (world.setStage id .releasing) := by
        apply (Narrower.refl fenced).setStage
        intro same
        cases same
      refine fenced.quiet (ended.send ?_ ?_) rfl
      · rw [World.setStage, List.length_modify]
        exact (List.getElem?_eq_some_iff.mp found).1
      · exact fun _ => Or.inl ⟨run, found, running⟩
    · exact fenced
  · exact fenced

theorem Fenced.seed (passKey : PassKey) : Fenced (world.seed passKey) := by
  refine fenced.quiet ((Narrower.refl fenced).put ?_) rfl
  intro written workerId same held
  cases there : world.passes passKey with
  | none =>
    rw [there] at same
    cases same
    cases held
  | some row =>
    rw [there] at same
    cases same
    exact ⟨row, rfl, held⟩

theorem Fenced.enable (passKey : PassKey) (enabled : Bool) : Fenced (world.enable passKey enabled) := by
  refine fenced.quiet ((Narrower.refl fenced).put ?_) rfl
  intro written workerId same held
  obtain ⟨row, there, rfl⟩ := Option.map_eq_some_iff.mp same
  exact ⟨row, there, held⟩

theorem Fenced.step {event : Event} (apart : Apart world event) : Fenced (world.step event) := by
  cases event with
  | seed passKey => exact fenced.seed passKey
  | enable passKey enabled => exact fenced.enable passKey enabled
  | call workerId passKey now => exact fenced.runWithLease workerId passKey now
  | timer run now => exact fenced.timer run now
  | passEnds run => exact fenced.passEnds run
  | execute place => exact fenced.executeAt place apart
  | deliver place =>
    rw [World.step, World.deliverAt]
    split
    · rename_i request found
      split
      · rename_i answer answered
        apply fenced.settleAt found
        intro other same
        exact answered
      · exact fenced
    · exact fenced
  | reject place =>
    rw [World.step, World.rejectAt]
    split
    · rename_i request found
      apply fenced.settleAt found
      intro other same
      cases same
    · exact fenced
  | releaseAllPasses workerId =>
    rw [World.step, World.releaseAllPasses]
    split
    · exact fenced.quiet ((Narrower.refl fenced).onProcess workerId _) rfl
    · exact fenced
  | wake workerId =>
    rw [World.step, World.wake]
    split
    · split
      · exact fenced.quiet ((Narrower.refl fenced).onProcess workerId _) rfl
      · exact fenced
    · exact fenced

end

end Droplet.Brain
