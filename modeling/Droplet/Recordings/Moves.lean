import Droplet.Recordings.Tables

/-! What a move's steps do: preparing and starting it, and taking in its result. -/

namespace Droplet.Recordings

open Effects

variable (arithmetic : Arithmetic)

/-- A row that is about to be taken up again has waited. -/
def Patient (facts : RecordingsFacts) : Prop :=
  facts.hostError = none → facts.drivesError = none →
    ∀ w, workRow arithmetic facts = some w → (driveOf facts w.fsUuid).isSome = true →
      w.status = .MISSING ∨ w.status = .ACTIVE → Rested w facts.instant

/-- The answers of the environment that the wait is kept under. -/
def Allowed (store : Store) (command : Command) (answer : Answer) : Prop :=
  match command, answer.outcome with
  | .collectFacts, .observed observation =>
    store.byOwner = false →
      Patient arithmetic ((store.at_ answer.instant).factsOf arithmetic observation)
  | _, _ => True

/-- Every call is made in a tracked store. -/
abbrev Ends {α : Type} (program : Op α) (post : α → Store → Prop) (fails : Failure → Store → Prop)
    (store : Store) : Prop :=
  Holds (exec arithmetic) (Allowed arithmetic) Tracked program post fails store

/-- Whether it returns or throws, the store is calm again. -/
abbrev EndsCalm {α : Type} (program : Op α) (store : Store) : Prop :=
  Ends arithmetic program (fun _ => Calm) (fun _ => Calm) store

variable {arithmetic} {α : Type} {store : Store} {w : AllocationRecord}
  {fails : Failure → Store → Prop}

variable {command : Command}

theorem ask_ends {post : Reply → Store → Prop} (tracked : Tracked store)
    (answered : ∀ answer, Allowed arithmetic store command answer →
      match (exec arithmetic store command answer).2 with
      | .failed failure => fails failure (exec arithmetic store command answer).1
      | reply => post reply (exec arithmetic store command answer).1) :
    Ends arithmetic (ask command) post fails store := by
  refine ⟨tracked, ?_⟩
  intro answer granted
  have there := answered answer granted
  cases reply : (exec arithmetic store command answer).2 <;> rw [reply] at there <;> exact there

variable {post : Unit → Store → Prop}

theorem attempt_ends (tracked : Tracked store)
    (answered : ∀ answer, Allowed arithmetic store command answer →
      post () (exec arithmetic store command answer).1) :
    Ends arithmetic (attempt command) post fails store := ⟨tracked, answered⟩

/-- Calls that change no row and leave no record. -/
def Command.quiet : Command → Bool
  | .loadRecordingsAllocations => true
  | .applyNvrTarget _ _ => true
  | .resizeNvr _ => true
  | .deleteOldFootage => true
  | .now => true
  | .recordActivity _ _ _ _ => true
  | .notifyOwners _ title _ => title ≠ TITLE_MOVE_GAVE_UP
  | _ => false

/-- Calls whose result the outcome decides in whether they fail and in nothing else. -/
def Command.blind : Command → Bool
  | .collectFacts => false
  | .getMigration => false
  | _ => true

theorem exec_blind (command : Command) (blind : command.blind = true) (answer : Answer) :
    (∃ failure, exec arithmetic store command answer =
      ((store.at_ answer.instant).sent command, .failed failure)) ∨
    exec arithmetic store command answer =
      ((store.at_ answer.instant).sent command).execute arithmetic command .fine := by
  obtain ⟨instant, outcome⟩ := answer
  cases outcome with
  | failed failure => exact .inl ⟨failure, by cases command <;> rfl⟩
  | _ => cases command <;> first | exact .inr rfl | cases blind

theorem exec_quiet (is_quiet : command.quiet = true) (answer : Answer) :
    (exec arithmetic store command answer).1 = store.at_ answer.instant := by
  have blind : command.blind = true := by cases command <;> first | rfl | cases is_quiet
  have unsent : (store.at_ answer.instant).sent command = store.at_ answer.instant := by
    cases command with
    | notifyOwners row title body => exact if_neg (of_decide_eq_true is_quiet)
    | _ => first | rfl | cases is_quiet
  rcases exec_blind command blind answer with refused | done
  · obtain ⟨failure, same⟩ := refused
    rw [same, unsent]
  · rw [done, unsent]
    cases command <;> first | rfl | cases is_quiet

theorem ask_quiet (is_quiet : command.quiet = true) {post : Reply → Store → Prop}
    (tracked : Tracked store) (after : ∀ instant reply, post reply (store.at_ instant))
    (failed : ∀ instant failure, fails failure (store.at_ instant)) :
    Ends arithmetic (ask command) post fails store := by
  apply ask_ends tracked
  intro answer _
  rw [exec_quiet is_quiet]
  split
  · exact failed _ _
  · exact after _ _

theorem attempt_quiet (is_quiet : command.quiet = true) (tracked : Tracked store)
    (after : ∀ instant, post () (store.at_ instant)) : Ends arithmetic (attempt command) post fails store := by
  apply attempt_ends tracked
  intro answer _
  rw [exec_quiet is_quiet]
  exact after _

theorem exec_update (id : RowId) (status : Option (List AllocationStatus)) (data : RowUpdate) (answer : Answer) :
    (∃ failure, exec arithmetic store (.updateMany id status data) answer =
      (store.at_ answer.instant, .failed failure)) ∨
    exec arithmetic store (.updateMany id status data) answer =
      (store.at_ answer.instant).update id status data :=
  exec_blind (.updateMany id status data) rfl answer

theorem update_reply (id : RowId) (status : Option (List AllocationStatus)) (data : RowUpdate) :
    ∃ count, (store.update id status data).2 = .count count := by
  rw [Store.update]
  split <;> exact ⟨_, rfl⟩

theorem transition_ends {from_ : List AllocationStatus} {data : RowUpdate}
    {post : Bool → Store → Prop} (tracked : Tracked store) (current : Current store w) (passes : w.status ∈ from_)
    (after : ∀ instant, post true ((store.at_ instant).update w.id (some from_) data).1)
    (failed : ∀ instant failure, fails failure (store.at_ instant)) :
    Ends arithmetic (transition w.id from_ data) post fails store := by
  apply Holds.bind
  apply ask_ends tracked
  intro answer _
  rcases exec_update w.id (some from_) data answer with refused | done
  · obtain ⟨failure, same⟩ := refused
    rw [same]
    exact failed _ failure
  · have count : ((store.at_ answer.instant).update w.id (some from_) data).2 = .count 1 :=
      update_count current (by
        intro allowed same
        cases same
        exact passes)
    rw [done, count]
    exact after _

theorem exec_start (row : RowId) (fsUuid : String) (answer : Answer) :
    (exec arithmetic store (.startMigration row fsUuid) answer).1 =
      (store.at_ answer.instant).log
        [.started row store.byOwner (store.at_ answer.instant).clock] := by
  rcases exec_blind (.startMigration row fsUuid) rfl answer with refused | done
  · obtain ⟨failure, same⟩ := refused
    rw [same]
    rfl
  · rw [done]
    rfl

theorem start_right (tracked : Tracked store) (current : Current store w)
    (few : w.migrationFailures ≤ MAX_AUTO_RETRIES) (rested : Rested w store.clock) (byOwner : Bool) :
    Right store.trace (.started w.id byOwner store.clock) := by
  have known := tracked.current current
  refine ⟨by rw [known.failures]; exact few, ?_⟩
  intro last delay failed listed
  rw [known.last] at failed
  rw [known.failures] at listed
  rw [← retryDelay_eq few listed]
  exact rested last failed few

theorem startUnlessBusy_ends (calm : Calm store) (current : Current store w)
    (few : w.migrationFailures ≤ MAX_AUTO_RETRIES) (rested : Rested w store.clock) :
    let after (next : Store) : Prop := Calm next ∧ Current next w ∧ store.clock ≤ next.clock ∧
      lastLive next.trace = lastLive store.trace
    Ends arithmetic (startUnlessBusy w) (fun _ => after) (fun _ => after) store := by
  intro after
  have started : ∀ answer, after (exec arithmetic store (.startMigration w.id w.fsUuid) answer).1 := by
    intro answer
    rw [exec_start]
    have later : store.clock ≤ (store.at_ answer.instant).clock := le_max_left _ _
    have right := start_right (calm.1.at_ answer.instant) current few (rested.later later) store.byOwner
    refine ⟨(calm.at_ answer.instant).plain rfl right, current, later, ?_⟩
    rw [Store.log, lastLive_append]
    rfl
  apply Holds.tryCatch
  apply Holds.bind
  apply ask_ends calm.1
  intro answer _
  have there := started answer
  split
  · split
    · exact there
    · exact there
  · exact there

theorem prepareAndMigrate_ends (calm : Calm store) (current : Current store w)
    (pending : w.status = .PENDING) (few : w.migrationFailures ≤ MAX_AUTO_RETRIES) :
    Ends arithmetic (prepareAndMigrate w) (fun _ => Calm)
      (fun _ next => Calm next ∧ lastLive next.trace = lastLive store.trace) store := by
  have rested : Rested w store.clock := (calm.1.current current).rested (.inl pending)
  apply Holds.bind
  apply ask_quiet rfl calm.1
  · intro instant _
    have calm_now := calm.at_ instant
    have later : store.clock ≤ (store.at_ instant).clock := le_max_left _ _
    apply Holds.bind
    apply Holds.mono (startUnlessBusy_ends calm_now current few (rested.later later))
    · intro _ next there
      obtain ⟨calm_next, current_next, still_later, same_live⟩ := there
      apply Holds.bind
      apply transition_ends calm_next.1 current_next (by simp [pending])
      · intro instant
        apply (calm_next.at_ instant).update_plain rfl rfl
        intro row member is_chosen stage same
        cases same
        -- the row written is the one that was read
        obtain ⟨read, in_rows, same_id, -, same_failures, same_last⟩ := current_next
        have same_row := calm_next.1.same_row member in_rows ((chosen_iff.mp is_chosen).1.trans same_id.symm)
        rw [same_row]
        refine ⟨fun _ => by rw [same_failures]; exact few, ?_⟩
        intro _ last
        rw [same_last, same_failures]
        exact ((rested.later later).later (still_later.trans (le_max_left _ _))) last
      · intro instant _
        exact ⟨calm_next.at_ instant, same_live⟩
    · intro _ next there
      exact ⟨there.1, there.2.2.2⟩
  · intro instant _
    exact ⟨calm.at_ instant, rfl⟩

theorem outcomeOfBridgeError_ends {failure : Failure} {step : String} (calm : Calm store) :
    EndsCalm arithmetic (outcomeOfBridgeError failure step) store := by
  unfold outcomeOfBridgeError
  split
  · split
    · exact calm
    · exact calm
  · exact calm

theorem startWork_ends (calm : Calm store) (current : Current store w) (pending : w.status = .PENDING) :
    EndsCalm arithmetic (startWork w) store := by
  rw [startWork]
  split
  · exact calm
  · rename_i not_exhausted
    apply Holds.tryCatch
    apply Holds.bind
    apply Holds.mono (prepareAndMigrate_ends calm current pending (Nat.not_lt.mp not_exhausted))
    · intro _ next there
      exact there
    · intro failure next there
      exact outcomeOfBridgeError_ends there.1

theorem exec_delete (doomed : AllocationRecord → Bool) (answer : Answer) :
    (∃ failure, exec arithmetic store (.deleteMany doomed) answer =
      (store.at_ answer.instant, .failed failure)) ∨
    exec arithmetic store (.deleteMany doomed) answer = (store.at_ answer.instant).remove doomed :=
  exec_blind (.deleteMany doomed) rfl answer

theorem deleteMany_ends {doomed : AllocationRecord → Bool} (tracked : Tracked store)
    (after : ∀ instant, post () ((store.at_ instant).remove doomed).1)
    (failed : ∀ instant failure, fails failure (store.at_ instant)) :
    Ends arithmetic (deleteMany doomed) post fails store := by
  apply Holds.bind
  apply ask_ends tracked
  intro answer _
  rcases exec_delete doomed answer with refused | done
  · obtain ⟨failure, same⟩ := refused
    rw [same]
    exact failed _ failure
  · rw [done]
    exact after _

theorem complete_ends {status : NvrMigrationStatus} (calm : Calm store) (current : Current store w)
    (migrating : w.status = .MIGRATING) (own : store.byOwner = false)
    (reported : lastReport store.trace = some status) (job : status.job = some .migrate)
    (done : status.state = .done) : EndsCalm arithmetic (complete w) store := by
  apply Holds.bind
  apply transition_ends calm.1 current (by simp [migrating])
  swap
  · intro instant _
    exact calm.at_ instant
  intro instant
  let data : RowUpdate :=
    { status := some .ACTIVE, migrationFailures := some 0, lastFailureAt := some none }
  have flipped : Calm ((store.at_ instant).update w.id (some [.MIGRATING]) data).1 :=
    (calm.at_ instant).update_renewed rfl rfl
  have trace : ((store.at_ instant).update w.id (some [.MIGRATING]) data).1.trace =
      store.trace ++ [.succeeded w.id] := by
    have said := @update_trace (store.at_ instant) w data (some [.MIGRATING]) current (by
      intro allowed same
      cases same
      simp [migrating])
    rw [said]
    simp [data, RowUpdate.entries, own, Store.at_]
  apply Holds.bind
  apply deleteMany_ends flipped.1
  · intro later
    have removed := (flipped.at_ later).remove (fun row => row.id ≠ w.id) (by
      intro row _ other _
      rw [Store.at_, trace]
      exact ⟨store.trace, w.id, [], status, rfl, by simpa using Ne.symm (of_decide_eq_true other),
        by simp, reported, job, done⟩)
    apply Holds.bind
    apply attempt_quiet rfl removed.1
    intro told
    apply Holds.bind
    apply attempt_quiet rfl (removed.at_ told).1
    intro last
    exact (removed.at_ told).at_ last
  · intro later _
    exact flipped.at_ later

/-- A fourth failure was counted, and the owner is yet to be told. -/
def Untold (store : Store) (row : RowId) : Prop :=
  Tracked store ∧ (episode row store.trace).failures = MAX_AUTO_RETRIES + 1 ∧
    (episode row store.trace).told = 0 ∧
    ∀ other, row ≠ other → (episode other store.trace).failures = MAX_AUTO_RETRIES + 1 →
      (episode other store.trace).told = 1

theorem Untold.at_ {row : RowId} (untold : Untold store row) (instant : ℤ) :
    Untold (store.at_ instant) row := ⟨untold.1.at_ instant, untold.2⟩

theorem Untold.tell {row : RowId} (untold : Untold store row) : Calm (store.log [.gaveUp row]) := by
  obtain ⟨tracked, failures, not_told, others⟩ := untold
  have other_same (other : RowId) (apart : row ≠ other) :
      episode other (store.trace ++ [.gaveUp row]) = episode other store.trace := by
    rw [episode_append]
    simp [Episode.next, apart]
  have own_same : episode row (store.trace ++ [.gaveUp row]) =
      { episode row store.trace with told := 1 } := by
    rw [episode_append]
    simp [Episode.next, not_told]
  constructor
  · refine ⟨tracked.right.append ⟨failures, not_told⟩, tracked.ids, tracked.drawn, ?_, ?_, ?_⟩
    · intro id beyond
      have apart : row ≠ id := by
        intro same
        rw [same, tracked.unused id beyond] at failures
        cases failures
      exact (other_same id apart).trans (tracked.unused id beyond)
    · intro old member
      have known := tracked.rows old member
      by_cases same : row = old.id
      · rw [← same] at known ⊢
        rw [Store.log, own_same]
        exact ⟨known.failures, known.last, known.migrating, known.rested⟩
      · rw [Store.log, other_same _ same]
        exact known
    · intro id
      by_cases same : row = id
      · rw [← same, Store.log, own_same]
        exact ⟨failures.le, le_rfl, fun _ => failures⟩
      · rw [Store.log, other_same _ same]
        exact tracked.bounded id
  · intro id many
    by_cases same : row = id
    · rw [← same, Store.log, own_same]
    · rw [Store.log, other_same _ same] at many ⊢
      exact others id same many

theorem exec_gaveUp (row : RowId) (body : String) (answer : Answer) :
    (exec arithmetic store (.notifyOwners row TITLE_MOVE_GAVE_UP body) answer).1 =
      (store.at_ answer.instant).log [.gaveUp row] := by
  rcases exec_blind (.notifyOwners row TITLE_MOVE_GAVE_UP body) rfl answer with refused | done
  · obtain ⟨failure, same⟩ := refused
    rw [same]
    rfl
  · rw [done]
    rfl

theorem counted_update (calm : Calm store) (current : Current store w)
    (migrating : w.status = .MIGRATING) {stage : AllocationStatus} {instant : ℤ}
    (stage_is : stage =
      if w.migrationFailures + 1 > MAX_AUTO_RETRIES then AllocationStatus.PENDING else .DEGRADED) :
    let next := (store.update w.id (some [.MIGRATING])
      { status := some stage, migrationFailures := some (w.migrationFailures + 1)
        lastFailureAt := some (some instant) }).1
    if w.migrationFailures + 1 > MAX_AUTO_RETRIES then Untold next w.id else Calm next := by
  let data : RowUpdate :=
    { status := some stage, migrationFailures := some (w.migrationFailures + 1)
      lastFailureAt := some (some instant) }
  intro next
  have known := calm.1.current current
  have few : w.migrationFailures ≤ MAX_AUTO_RETRIES := known.migrating migrating
  have not_told : (episode w.id store.trace).told = 0 := by
    have bounded := calm.1.bounded w.id
    by_contra some_told
    have many := bounded.2.2 (Nat.pos_of_ne_zero some_told)
    rw [known.failures] at many
    omega
  have entries (byOwner : Bool) (clock : ℤ) : data.entries byOwner clock w.id = [.counted w.id instant] := by
    simp [data, RowUpdate.entries]
  have own : episode w.id (store.trace ++ [.counted w.id instant]) =
      ⟨w.migrationFailures + 1, some instant, 0⟩ := by
    rw [episode_append]
    simp [Episode.next, known.failures, not_told]
  have tracked : Tracked next := by
    apply calm.1.update
    intro row member is_chosen
    obtain ⟨read, in_rows, same_id, -⟩ := current
    have is_w := (chosen_iff.mp is_chosen).1
    dsimp only
    rw [show RowUpdate.entries _ _ _ _ = _ from entries _ _, is_w, own]
    refine ⟨⟨rfl, rfl, ?_, ?_⟩, ?_⟩
    · intro is_migrating
      have stage_migrating : stage = .MIGRATING := is_migrating
      rw [stage_is] at stage_migrating
      split at stage_migrating <;> cases stage_migrating
    · intro entered last failed few_now
      have stage_entered : stage = .PENDING ∨ stage = .MIGRATING := entered
      have few_next : w.migrationFailures + 1 ≤ MAX_AUTO_RETRIES := few_now
      rw [stage_is, if_neg (by omega)] at stage_entered
      rcases stage_entered with pending | is_migrating
      · cases pending
      · cases is_migrating
    · exact ⟨by dsimp only; omega, Nat.zero_le 1, fun some_told => absurd some_told (lt_irrefl 0)⟩
  have trace : next.trace = store.trace ++ [.counted w.id instant] := by
    have said := @update_trace store w data (some [.MIGRATING]) current (by
      intro allowed same
      cases same
      simp [migrating])
    rw [entries] at said
    exact said
  have others : ∀ other, w.id ≠ other → (episode other next.trace).failures = MAX_AUTO_RETRIES + 1 →
        (episode other next.trace).told = 1 := by
    intro other apart
    have same : episode other (store.trace ++ [.counted w.id instant]) = episode other store.trace := by
      rw [episode_append]
      simp [Episode.next, apart]
    rw [trace, same]
    exact calm.2 other
  split
  · rename_i exhausted
    refine ⟨tracked, ?_, ?_, others⟩
    · rw [trace, own]
      dsimp only
      omega
    · rw [trace, own]
  · rename_i not_exhausted
    refine ⟨tracked, ?_⟩
    intro id many
    by_cases same : w.id = id
    · rw [← same, trace, own] at many
      exact absurd many (by dsimp only; omega)
    · exact others id same many

theorem failed_ends (status : NvrMigrationStatus) (calm : Calm store) (current : Current store w)
    (migrating : w.status = .MIGRATING) : EndsCalm arithmetic (failed w status) store := by
  apply Holds.bind
  apply Holds.bind
  apply ask_quiet rfl calm.1
  swap
  · intro instant _
    exact calm.at_ instant
  intro read reply
  have calm_read := calm.at_ read
  split
  swap
  · exact calm_read
  rename_i instant
  apply Holds.bind
  apply transition_ends calm_read.1 current (by simp [migrating])
  swap
  · intro later _
    exact calm_read.at_ later
  intro later
  have counted := @counted_update _ w (calm_read.at_ later) current migrating _ instant rfl
  dsimp only at counted ⊢
  by_cases exhausted : w.migrationFailures + 1 > MAX_AUTO_RETRIES
  · rw [if_pos exhausted] at counted
    rw [if_pos exhausted] at counted
    simp only [exhausted, if_true]
    apply Holds.bind
    apply attempt_quiet rfl counted.1
    intro audited
    have untold := counted.at_ audited
    apply Holds.bind
    apply attempt_ends untold.1
    intro answer _
    rw [exec_gaveUp]
    exact (untold.at_ answer.instant).tell
  · rw [if_neg exhausted] at counted
    rw [if_neg exhausted] at counted
    simp only [exhausted, if_false]
    apply Holds.bind
    apply attempt_quiet rfl counted.1
    intro audited
    exact counted.at_ audited

theorem onMigrationState_ends {status : Option NvrMigrationStatus} (calm : Calm store)
    (current : Current store w) (migrating : w.status = .MIGRATING) (own : store.byOwner = false)
    (reported : ∀ known, status = some known → lastReport store.trace = some known) :
    EndsCalm arithmetic (onMigrationState w status) store := by
  cases status with
  | none => exact calm
  | some known =>
    unfold onMigrationState
    dsimp only
    split
    · exact calm
    split
    · rename_i is_done
      exact complete_ends calm current migrating own (reported known rfl) is_done.1 is_done.2
    split
    · exact failed_ends known calm current migrating
    split
    · exact calm
    have known_row := calm.1.current current
    apply Holds.tryCatch
    apply Holds.bind
    apply Holds.mono (startUnlessBusy_ends calm current (known_row.migrating migrating)
      (known_row.rested (.inr migrating)))
    · intro _ next there
      exact there.1
    · intro failure next there
      exact outcomeOfBridgeError_ends there.1

end Droplet.Recordings
