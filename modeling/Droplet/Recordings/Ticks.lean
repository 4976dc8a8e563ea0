import Droplet.Recordings.Moves

/-! What the operations of the allocator keep. -/

namespace Droplet.Recordings

open Effects

variable (arithmetic : Arithmetic)

structure Found (store : Store) (facts : RecordingsFacts) (byOwner : Bool) : Prop where
  calm : Calm store
  rows : ∀ row ∈ facts.allocations, row ∈ store.rows
  instant : facts.instant ≤ store.clock
  reported : ∀ status, facts.migration = some status → lastReport store.trace = some status
  live : lastLive store.trace = (liveRow arithmetic facts).map AllocationRecord.id
  patient : byOwner = false → Patient arithmetic facts
  own : store.byOwner = byOwner

variable {arithmetic} {store : Store} {facts : RecordingsFacts} {w : AllocationRecord}
  {byOwner : Bool}

theorem liveRow_mem {live : AllocationRecord} (found : liveRow arithmetic facts = some live) :
    live ∈ facts.allocations := by
  unfold liveRow at found
  obtain ⟨fsUuid, -, there⟩ := Option.bind_eq_some_iff.mp found
  exact List.mem_of_find?_eq_some there

section

variable (calm : Calm store)
include calm

theorem collected (observation : Observation)
    (patient : store.byOwner = false → Patient arithmetic (store.factsOf arithmetic observation)) :
    Found arithmetic (store.collect arithmetic observation).1
      (store.factsOf arithmetic observation) store.byOwner := by
  let facts := store.factsOf arithmetic observation
  let asked : Entry := .recordsOnto ((liveRow arithmetic facts).map AllocationRecord.id)
  have rows : ∀ row ∈ facts.allocations, row ∈ store.rows := by
    intro row member
    exact (List.mergeSort_perm _ _).mem_iff.mp member
  cases known : observation.migration with
  | none =>
    have same : (store.collect arithmetic observation).1 = store.log [asked] := by
      rw [Store.collect, known]
      rfl
    rw [same]
    refine ⟨calm.plain rfl trivial, rows, le_rfl, ?_, ?_, patient, rfl⟩
    · intro status reported
      have none_known : observation.migration = some status := reported
      rw [known] at none_known
      cases none_known
    · exact lastLive_append _ _
  | some status =>
    have same : (store.collect arithmetic observation).1 = (store.log [.reported status]).log [asked] := by
      rw [Store.collect, known, Store.log, Store.log, Store.log, List.append_assoc]
      rfl
    rw [same]
    have first : Calm (store.log [.reported status]) := calm.plain rfl trivial
    refine ⟨first.plain rfl trivial, rows, le_rfl, ?_, ?_, patient, rfl⟩
    · intro other reported
      have some_known : observation.migration = some other := reported
      rw [known] at some_known
      cases some_known
      rw [Store.log, lastReport_append, Store.log, lastReport_append]
    · exact lastLive_append _ _

theorem collectFacts_ends :
    Ends arithmetic collectFacts (fun facts next => Found arithmetic next facts store.byOwner)
      (fun _ => Calm) store := by
  apply Holds.bind
  apply ask_ends calm.1
  intro answer granted
  obtain ⟨instant, outcome⟩ := answer
  have later := calm.at_ instant
  cases outcome with
  | observed observation => exact collected later observation granted
  | _ => exact later

section

variable (current : Current store w)
include current

theorem enter_ends {from_ : List AllocationStatus} {stage : AllocationStatus} (passes : w.status ∈ from_)
    (not_migrating : stage ≠ .MIGRATING) (rested : stage = .PENDING → Rested w store.clock) :
    Ends arithmetic (transition w.id from_ { status := some stage })
      (fun done next => done = true ∧ Calm next ∧ Current next { w with status := stage } ∧
        store.clock ≤ next.clock)
      (fun _ => Calm) store := by
  apply transition_ends calm.1 current passes
  swap
  · intro instant _
    exact calm.at_ instant
  intro instant
  have calm_now := calm.at_ instant
  have later : store.clock ≤ (store.at_ instant).clock := le_max_left _ _
  refine ⟨rfl, ?_, ?_, ?_⟩
  · apply calm_now.update_plain rfl rfl
    intro row member is_chosen next same
    cases same
    refine ⟨fun migrating => absurd migrating not_migrating, ?_⟩
    intro entered
    obtain ⟨read, in_rows, same_id, -, same_failures, same_last⟩ := current
    have same_row := calm.1.same_row (show row ∈ store.rows from member) in_rows
      ((chosen_iff.mp is_chosen).1.trans same_id.symm)
    rw [same_row]
    have waited := (rested (entered.resolve_right not_migrating)).later later
    intro last
    rw [same_last, same_failures]
    exact waited last
  · have current_now : Current (store.at_ instant) w := current
    exact current_now.update (by
      intro allowed same
      cases same
      exact passes) 0
  · rw [Store.update]
    split <;> exact later

theorem handlePending_ends (pending : w.status = .PENDING) (recovered : Bool) :
    EndsCalm arithmetic (handlePending w recovered facts) store := by
  rw [handlePending]
  split
  · exact calm
  · apply Holds.bind
    apply Holds.mono (startWork_ends calm current pending)
    · intro outcome next there
      split <;> exact there
    · intro _ next there
      exact there

theorem handleDegraded_ends (degraded : w.status = .DEGRADED) (instant : facts.instant ≤ store.clock) :
    EndsCalm arithmetic (handleDegraded w facts) store := by
  rw [handleDegraded]
  split
  · exact calm
  rename_i not_waiting
  split
  · exact calm
  have rested : Rested w store.clock := by
    intro last failed _
    have waited : ¬ facts.instant - last < retryDelay w.migrationFailures := by
      simpa [stillWaits, failed] using not_waiting
    omega
  apply Holds.bind
  apply Holds.mono (enter_ends calm current (by simp [degraded]) (by simp) (fun _ => rested))
  · intro done next there
    obtain ⟨rfl, calm_next, current_next, -⟩ := there
    exact startWork_ends calm_next current_next rfl
  · intro _ next there
    exact there

theorem handleDrifted_ends (active : w.status = .ACTIVE) (rested : Rested w store.clock) :
    EndsCalm arithmetic (handleDrifted w facts) store := by
  rw [handleDrifted]
  apply Holds.bind
  apply Holds.mono (enter_ends calm current (by simp [active]) (by simp) (fun _ => rested))
  · intro done next there
    obtain ⟨rfl, calm_next, current_next, -⟩ := there
    simp only [Bool.not_true, Bool.false_eq_true, if_false]
    split
    · exact calm_next
    · exact startWork_ends calm_next current_next rfl
  · intro _ next there
    exact there

theorem mark_ends {stage : AllocationStatus} (idle : stage ≠ .MIGRATING ∧ stage ≠ .PENDING) {α : Type} (outcome : α) :
    EndsCalm arithmetic (do let _ ← transition w.id [w.status] { status := some stage }; return outcome) store := by
  apply Holds.bind
  apply Holds.mono (enter_ends calm current (by simp) idle.1 (fun pending => absurd pending idle.2))
  · intro _ next there
    exact there.2.1
  · intro _ next there
    exact there

end

end

theorem handleWork_ends (found : Found arithmetic store facts false)
    (work : workRow arithmetic facts = some w) (asked : facts.hostError = none ∧ facts.drivesError = none) :
    EndsCalm arithmetic (handleWork w facts) store := by
  have current : Current store w := .of_mem (found.rows w (List.mem_of_find?_eq_some work))
  unfold handleWork
  split
  · split
    · exact found.calm
    · exact mark_ends found.calm current (by simp) _
  rename_i not_absent
  have present : (driveOf facts w.fsUuid).isSome = true := by
    simpa [Option.isNone_iff_eq_none, Option.isSome_iff_ne_none] using not_absent
  have patient := found.patient rfl asked.1 asked.2 w work present
  have waited (taken : w.status = .MISSING ∨ w.status = .ACTIVE) : Rested w store.clock :=
    (patient taken).later found.instant
  split
  · rename_i missing
    apply Holds.bind
    apply Holds.mono (enter_ends found.calm current (by simp [missing]) (by simp)
      (fun _ => waited (.inl missing)))
    · intro done next there
      obtain ⟨rfl, calm_next, current_next, -⟩ := there
      exact handlePending_ends calm_next current_next rfl true
    · intro _ next there
      exact there
  · unfold handlePresent
    split
    · rename_i migrating
      exact onMigrationState_ends found.calm current migrating found.own found.reported
    · rename_i degraded
      exact handleDegraded_ends found.calm current degraded found.instant
    · rename_i active
      exact handleDrifted_ends found.calm current active (waited (.inr active))
    · rename_i pending
      exact handlePending_ends found.calm current pending false
    · rename_i not_missing _ missing
      exact absurd missing not_missing

theorem resize_ends (calm : Calm store) (current : Current store w) (bytes : ℕ) {α : Type}
    (outcome : α) :
    Ends arithmetic (do
        let _ ← ask (.resizeNvr bytes)
        let _ ← transition w.id [w.status] { reservedBytes := some bytes }
        return outcome)
      (fun _ next => Calm next ∧ Current next w) (fun _ next => Calm next ∧ Current next w) store := by
  apply Holds.bind
  apply ask_quiet rfl calm.1
  swap
  · intro instant _
    exact ⟨calm.at_ instant, current⟩
  intro asked _
  have calm_asked := calm.at_ asked
  have current_asked : Current (store.at_ asked) w := current
  apply Holds.bind
  apply transition_ends calm_asked.1 current_asked (by simp)
  swap
  · intro instant _
    exact ⟨calm_asked.at_ instant, current⟩
  intro instant
  refine ⟨(calm_asked.at_ instant).update_plain rfl rfl (by simp), ?_⟩
  have current_now : Current ((store.at_ asked).at_ instant) w := current
  exact current_now.update (by simp) 0

theorem resizeLive_ends (calm : Calm store) (current : Current store w)
    (d : RecordingsDriveCandidate) (outcome : ReconcileOutcome) :
    Ends arithmetic (resizeLive arithmetic w d facts outcome)
      (fun _ next => Calm next ∧ Current next w) (fun _ next => Calm next ∧ Current next w) store := by
  unfold resizeLive
  dsimp only
  split
  · split
    · exact ⟨calm, current⟩
    · split
      · exact resize_ends calm current _ _
      · exact ⟨calm, current⟩
  split
  · exact ⟨calm, current⟩
  split
  · exact resize_ends calm current _ _
  · exact ⟨calm, current⟩
  · exact ⟨calm, current⟩

theorem desiredStatus_stage (live : AllocationRecord) (d : RecordingsDriveCandidate)
    (facts : RecordingsFacts) (growthBlocked : Bool) :
    desiredStatus live d facts growthBlocked = .DEGRADED ∨
      desiredStatus live d facts growthBlocked = live.status ∨
      desiredStatus live d facts growthBlocked = .ACTIVE := by
  unfold desiredStatus
  split
  · exact .inl rfl
  split
  · exact .inr (.inl rfl)
  · exact .inr (.inr rfl)

theorem settleLive_ends (calm : Calm store) (current : Current store w) (d : RecordingsDriveCandidate)
    (outcome : ReconcileOutcome) (growthBlocked : Bool) :
    Ends arithmetic (settleLive w d facts outcome growthBlocked) (fun _ => Calm) (fun _ => Calm)
      store := by
  unfold settleLive
  dsimp only
  split
  · exact calm
  rename_i moves
  apply Holds.bind
  apply Holds.mono (enter_ends calm current (by simp) ?_ ?_)
  · intro _ next there
    split <;> exact there.2.1
  · intro _ next there
    exact there
  · rcases desiredStatus_stage w d facts growthBlocked with degraded | same | active
    · simp [degraded]
    · exact absurd same.symm moves
    · simp [active]
  · intro pending
    rcases desiredStatus_stage w d facts growthBlocked with degraded | same | active
    · rw [degraded] at pending
      cases pending
    · exact absurd same.symm moves
    · rw [active] at pending
      cases pending

theorem handleLive_ends (found : Found arithmetic store facts byOwner) (live : liveRow arithmetic facts = some w) :
    EndsCalm arithmetic (handleLive arithmetic w facts) store := by
  have current : Current store w := .of_mem (found.rows w (liveRow_mem live))
  unfold handleLive
  split
  · split
    · exact found.calm
    · exact mark_ends found.calm current (by simp) _
  · rename_i d _
    apply Holds.bind
    apply Holds.tryCatch
    apply Holds.bind
    apply Holds.mono (resizeLive_ends found.calm current d _)
    · intro resized next there
      exact settleLive_ends there.1 there.2 d resized.1 resized.2
    · intro failure next there
      split
      · dsimp only
        split
        · exact there.1
        · exact settleLive_ends there.1 there.2 d _ true
      · exact there.1

theorem exec_create (fsUuid : String) (mode : AllocationMode) (reservedBytes : ℕ) (answer : Answer) :
    (∃ failure, exec arithmetic store (.create fsUuid mode reservedBytes) answer =
      (store.at_ answer.instant, .failed failure)) ∨
    exec arithmetic store (.create fsUuid mode reservedBytes) answer =
      (store.at_ answer.instant).insert fsUuid mode reservedBytes :=
  exec_blind (.create fsUuid mode reservedBytes) rfl answer

structure Created (store : Store) (row : AllocationRecord) (recorded : Option RowId) : Prop where
  calm : Calm store
  current : Current store row
  pending : row.status = .PENDING
  untouched : row.migrationFailures = 0
  onto : lastLive store.trace = recorded
  apart : recorded ≠ some row.id

theorem create_ends (calm : Calm store) (fsUuid : String) (mode : AllocationMode) (reservedBytes : ℕ)
    (known : ∀ id, lastLive store.trace = some id → id < store.drawn) :
    Ends arithmetic (create fsUuid mode reservedBytes)
      (fun row next => Created next row (lastLive store.trace)) (fun _ => Calm) store := by
  apply Holds.bind
  apply ask_ends calm.1
  intro answer _
  rcases exec_create fsUuid mode reservedBytes answer with refused | done
  · obtain ⟨failure, same⟩ := refused
    rw [same]
    exact calm.at_ _
  · rw [done]
    have inserted := (calm.at_ answer.instant).insert fsUuid mode reservedBytes
    cases reply : ((store.at_ answer.instant).insert fsUuid mode reservedBytes).2 with
    | created row =>
      obtain ⟨member, drawn, pending, trace⟩ := insert_created reply
      have tracked := inserted.1.current (Current.of_mem member)
      refine ⟨inserted, Current.of_mem member, pending, ?_, by rw [trace]; rfl, ?_⟩
      · rw [← tracked.failures, trace, drawn]
        rw [(calm.at_ answer.instant).1.unused _ le_rfl]
        rfl
      · intro same
        have below := known row.id same
        rw [drawn] at below
        exact lt_irrefl _ below
    | _ => exact inserted

theorem Found.live_drawn (found : Found arithmetic store facts byOwner) (id : RowId)
    (live : lastLive store.trace = some id) : id < store.drawn := by
  rw [found.live] at live
  obtain ⟨row, is_live, rfl⟩ := Option.map_eq_some_iff.mp live
  exact found.calm.1.drawn row (found.rows row (liveRow_mem is_live))

theorem createFirst_ends (found : Found arithmetic store facts byOwner) :
    EndsCalm arithmetic (createFirst arithmetic facts) store := by
  unfold createFirst
  split
  · exact found.calm
  split
  · exact found.calm
  · apply Holds.bind
    apply Holds.tryCatch
    apply Holds.bind
    apply Holds.mono (create_ends found.calm _ _ _ found.live_drawn)
    · intro row next created
      apply Holds.bind
      apply attempt_quiet rfl created.calm.1
      intro audited
      apply Holds.bind
      apply attempt_quiet rfl (created.calm.at_ audited).1
      intro told
      apply Holds.bind
      apply Holds.mono (startWork_ends ((created.calm.at_ audited).at_ told) created.current created.pending)
      all_goals
        intro _ _ there
        exact there
    · intro failure next there
      split
      · exact there
      · exact there

theorem tick_ends (found : Found arithmetic store facts false) :
    EndsCalm arithmetic (tick arithmetic facts) store := by
  unfold tick
  split
  · exact found.calm
  rename_i asked
  have answered : facts.hostError = none ∧ facts.drivesError = none := by
    simpa using asked
  split
  · exact createFirst_ends found
  split
  · rename_i work is_work
    exact handleWork_ends found is_work answered
  · split
    · rename_i live is_live
      exact handleLive_ends found is_live
    · exact found.calm

theorem reconcile_ends (calm : Calm store) (own : store.byOwner = false) :
    EndsCalm arithmetic (reconcile arithmetic) store := by
  apply Holds.bind
  apply Holds.mono (collectFacts_ends calm)
  · intro facts next found
    rw [own] at found
    exact tick_ends found
  · intro _ next there
    exact there

theorem getMigration_ends (calm : Calm store) (current : Current store w) :
    Ends arithmetic migrationStatus
      (fun status next => Calm next ∧ Current next w ∧ next.byOwner = store.byOwner ∧
        ∀ known, status = some known → lastReport next.trace = some known)
      (fun _ => Calm) store := by
  apply Holds.tryCatch
  apply Holds.bind
  apply ask_ends calm.1
  intro answer _
  obtain ⟨instant, outcome⟩ := answer
  have later := calm.at_ instant
  have unknown : Calm (store.at_ instant) ∧ Current (store.at_ instant) w ∧
      (store.at_ instant).byOwner = store.byOwner ∧
      ∀ known, none = some known → lastReport (store.at_ instant).trace = some known :=
    ⟨later, current, rfl, by simp⟩
  cases outcome with
  | status status =>
    refine ⟨later.plain rfl trivial, current, rfl, ?_⟩
    intro known is_known
    cases is_known
    exact lastReport_append _ _
  | _ => exact unknown

theorem exec_load (answer : Answer) :
    exec arithmetic store .loadRecordingsAllocations answer =
        (store.at_ answer.instant, .rows (inPreference arithmetic store.rows)) ∨
      ∃ failure, exec arithmetic store .loadRecordingsAllocations answer =
        (store.at_ answer.instant, .failed failure) :=
  (exec_blind .loadRecordingsAllocations rfl answer).symm

theorem pollMigration_ends (calm : Calm store) (own : store.byOwner = false) :
    EndsCalm arithmetic pollMigration store := by
  apply Holds.bind
  apply Holds.bind
  apply ask_ends calm.1
  intro answer _
  have later := calm.at_ answer.instant
  rcases exec_load answer with loaded | refused
  swap
  · obtain ⟨failure, same⟩ := refused
    rw [same]
    exact later
  rw [loaded]
  dsimp only
  apply Holds.pure
  split
  swap
  · exact later
  rename_i w found
  have member : w ∈ store.rows :=
    (List.mergeSort_perm _ _).mem_iff.mp (List.mem_of_find?_eq_some found)
  have migrating : w.status = .MIGRATING := by simpa using List.find?_some found
  apply Holds.bind
  apply Holds.mono (getMigration_ends later (Current.of_mem member))
  · intro status next there
    obtain ⟨calm_next, current, own_next, reported⟩ := there
    split
    · rename_i known
      apply Holds.bind
      apply Holds.mono (onMigrationState_ends calm_next current migrating (own_next.trans own) reported)
      all_goals
        intro _ _ there
        exact there
    · exact calm_next
  · intro _ next there
    exact there

theorem freshFacts_ends (calm : Calm store) :
    Ends arithmetic freshFacts (fun facts next => Found arithmetic next facts store.byOwner)
      (fun _ => Calm) store := by
  apply Holds.bind
  apply Holds.mono (collectFacts_ends calm)
  · intro facts next found
    split
    · exact found.calm
    · exact found
  · intro _ next there
    exact there

variable {post : Unit → Store → Prop}

theorem requireKnownRetention_ends (calm : Calm store) (known : post () store) :
    Ends arithmetic (requireKnownRetention facts) post (fun _ => Calm) store := by
  unfold requireKnownRetention
  split
  · exact calm
  · exact known

theorem audit_ends (calm : Calm store) (severity : Severity) (what : String) (actor : RecordingsActor)
    (refs : List (String × Ref)) : EndsCalm arithmetic (audit severity what actor refs) store :=
  attempt_quiet rfl calm.1 fun instant => calm.at_ instant

theorem prepareCreated_ends {row : AllocationRecord} {live : Option RowId} (created : Created store row live) :
    EndsCalm arithmetic (prepareCreated row) store := by
  apply Holds.tryCatch
  apply Holds.mono (prepareAndMigrate_ends created.calm created.current created.pending
    (by rw [created.untouched]; exact Nat.zero_le _))
  · intro _ next there
    exact there
  · intro failure next there
    obtain ⟨calm_next, same_live⟩ := there
    apply Holds.bind
    apply deleteMany_ends calm_next.1
    · intro instant
      apply (calm_next.at_ instant).remove
      intro other _ doomed is_live
      have is_row : other.id = row.id := of_decide_eq_true doomed
      have onto : lastLive next.trace = some other.id := is_live
      rw [same_live, created.onto, is_row] at onto
      exact absurd onto created.apart
    · intro instant _
      exact calm_next.at_ instant

section

variable (calm : Calm store)
include calm

theorem prepareAnew_ends (current : Current store w)
    (pending : w.status = .PENDING) (untouched : w.migrationFailures = 0) :
    EndsCalm arithmetic (prepareAndMigrate w) store := by
  apply Holds.mono (prepareAndMigrate_ends calm current pending (by rw [untouched]; exact Nat.zero_le _))
  · intro _ next there
    exact there
  · intro _ next there
    exact there.1

theorem updateRow_ends {data : RowUpdate} (after : ∀ instant, post () ((store.at_ instant).update w.id none data).1) :
    Ends arithmetic (updateRow w.id data) post (fun _ => Calm) store := by
  apply Holds.bind
  apply ask_ends calm.1
  intro answer _
  rcases exec_update w.id none data answer with refused | done
  · obtain ⟨failure, same⟩ := refused
    rw [same]
    exact calm.at_ _
  · obtain ⟨count, reply⟩ := @update_reply (store.at_ answer.instant) w.id none data
    rw [done, reply]
    exact after _

theorem requireSized_ends (mode : AllocationMode) (known : post () store) :
    Ends arithmetic (requireSized mode facts) post (fun _ => Calm) store := by
  unfold requireSized
  split
  · exact requireKnownRetention_ends calm known
  · exact known

theorem requireDrive_ends {drive : Option RecordingsDriveCandidate} {code : RecordingsErrorCode}
    {message : String} {post : RecordingsDriveCandidate → Store → Prop} (known : ∀ d, post d store) :
    Ends arithmetic (requireDrive drive code message) post (fun _ => Calm) store := by
  cases drive with
  | none => exact calm
  | some drive => exact known drive

theorem createTarget_ends (fsUuid : String) (mode : AllocationMode)
    (reserved : ℕ) (known : ∀ id, lastLive store.trace = some id → id < store.drawn) :
    EndsCalm arithmetic (createTarget fsUuid mode reserved) store := by
  apply Holds.bind
  apply Holds.mono (create_ends calm _ _ _ known)
  · intro row next created
    exact prepareCreated_ends created
  · intro _ next there
    exact there

theorem retarget_ends (current : Current store w) (mode : AllocationMode) (reserved : ℕ) :
    EndsCalm arithmetic (retarget w mode reserved) store := by
  apply Holds.bind
  apply updateRow_ends calm
  intro instant
  have current_now : Current (store.at_ instant) w := current
  exact prepareAnew_ends ((calm.at_ instant).update_renewed rfl rfl) (current_now.update (by simp) 0) rfl rfl

end

section

variable (found : Found arithmetic store facts byOwner)
include found

theorem setDrive_ends (fsUuid : String)
    (wantMode : Option AllocationMode) (actor : RecordingsActor) :
    Ends arithmetic (setDrive arithmetic facts fsUuid wantMode actor) (fun _ => Calm)
      (fun _ => Calm) store := by
  apply Holds.bind
  have chosen_drive : Ends arithmetic (eligibleDrive arithmetic facts fsUuid)
      (fun _ next => next = store) (fun _ => Calm) store := by
    unfold eligibleDrive
    split
    · exact found.calm
    · split
      · rfl
      · exact found.calm
  apply Holds.mono chosen_drive
  swap
  · intro _ next there
    exact there
  intro drive next same
  rw [same]
  apply Holds.bind
  apply requireSized_ends found.calm
  apply Holds.bind
  apply deleteMany_ends found.calm.1
  swap
  · intro instant _
    exact found.calm.at_ instant
  intro instant
  -- the live row is none of the rows dropped
  have removed : Calm ((store.at_ instant).remove fun row => row.fsUuid ≠ fsUuid &&
      some row.id ≠ (liveRow arithmetic facts).map AllocationRecord.id).1 := by
    apply (found.calm.at_ instant).remove
    intro row _ doomed is_live
    have onto : lastLive store.trace = some row.id := is_live
    rw [found.live] at onto
    simp only [Bool.and_eq_true, decide_eq_true_eq] at doomed
    exact absurd onto.symm doomed.2
  split
  · rename_i existing found_existing
    have is_drive : existing.fsUuid = fsUuid := by simpa using List.find?_some found_existing
    have member := found.rows existing (List.mem_of_find?_eq_some found_existing)
    apply Holds.bind
    apply Holds.mono (retarget_ends removed (Current.of_mem ?_) _ _)
    · intro _ next there
      exact audit_ends there _ _ _ _
    · intro _ next there
      exact there
    · refine List.mem_filter.mpr ⟨member, ?_⟩
      simp [is_drive]
  · apply Holds.bind
    apply Holds.mono (createTarget_ends removed _ _ _ ?_)
    · intro _ next there
      exact audit_ends there _ _ _ _
    · intro _ next there
      exact there
    · intro id live
      rw [Store.remove, Store.log, (deleted_later _ _).1] at live
      exact found.live_drawn id live

theorem setFirst_ends (wantMode : AllocationMode)
    (actor : RecordingsActor) :
    Ends arithmetic (setFirst arithmetic facts wantMode actor) (fun _ => Calm) (fun _ => Calm)
      store := by
  apply Holds.bind
  apply requireDrive_ends found.calm
  intro drive
  apply Holds.bind
  apply requireSized_ends found.calm
  apply Holds.bind
  apply Holds.mono (createTarget_ends found.calm _ _ _ found.live_drawn)
  · intro _ next there
    exact audit_ends there _ _ _ _
  · intro _ next there
    exact there

theorem setMode_ends (live : AllocationRecord)
    (wantMode : AllocationMode) (actor : RecordingsActor) :
    Ends arithmetic (setMode arithmetic facts live wantMode actor) (fun _ => Calm) (fun _ => Calm)
      store := by
  apply Holds.bind
  apply requireDrive_ends found.calm
  intro drive
  apply Holds.bind
  apply requireSized_ends found.calm
  apply Holds.bind
  apply ask_quiet rfl found.calm.1
  · intro resized _
    have calm_resized := found.calm.at_ resized
    apply Holds.bind
    apply updateRow_ends calm_resized
    intro instant
    exact audit_ends ((calm_resized.at_ instant).update_plain rfl rfl (by simp)) _ _ _ _
  · intro instant _
    exact found.calm.at_ instant

theorem retryMove_ends (stuck : w ∈ facts.allocations) (actor : RecordingsActor) :
    EndsCalm arithmetic (retryMove w actor) store := by
  have current : Current store w := .of_mem (found.rows w stuck)
  apply Holds.bind
  apply transition_ends found.calm.1 current (by simp)
  swap
  · intro instant _
    exact found.calm.at_ instant
  intro instant
  have current_now : Current (store.at_ instant) w := current
  apply Holds.bind
  apply Holds.mono (prepareAnew_ends ((found.calm.at_ instant).update_renewed rfl rfl)
    (current_now.update (by simp) 0) rfl rfl)
  · intro _ next there
    exact audit_ends there _ _ _ _
  · intro _ next there
    exact there

theorem setFromFacts_ends (req : SetAllocationRequest)
    (actor : RecordingsActor) :
    Ends arithmetic (setFromFacts arithmetic facts req actor) (fun _ => Calm) (fun _ => Calm)
      store := by
  unfold setFromFacts
  split
  · exact setDrive_ends found _ _ actor
  split
  · split
    · exact found.calm
    split
    · exact setFirst_ends found _ actor
    · exact setMode_ends found _ _ actor
  · split
    · exact found.calm
    · rename_i stuck is_stuck
      split
      · obtain ⟨fsUuid, -, there⟩ := Option.bind_eq_some_iff.mp is_stuck
        exact retryMove_ends found (List.mem_of_find?_eq_some there) actor
      · exact found.calm

end

theorem requireIdle_ends (calm : Calm store) (known : post () store) :
    Ends arithmetic (requireIdle facts) post (fun _ => Calm) store := by
  unfold requireIdle
  split
  · exact calm
  · exact known

theorem setAllocation_ends (calm : Calm store) (req : SetAllocationRequest) (actor : RecordingsActor) :
    EndsCalm arithmetic (setAllocation arithmetic req actor) store := by
  apply Holds.bind
  apply Holds.mono (freshFacts_ends calm)
  · intro facts next found
    apply Holds.bind
    exact requireIdle_ends found.calm (setFromFacts_ends found req actor)
  · intro _ next there
    exact there

theorem deleteOldFootage_ends (calm : Calm store) (actor : RecordingsActor) :
    EndsCalm arithmetic (deleteOldFootage actor) store := by
  apply Holds.bind
  apply Holds.mono (freshFacts_ends calm)
  swap
  · intro _ next there
    exact there
  intro facts next found
  have old : Ends arithmetic (requireOldFootage facts) (fun _ other => other = next)
      (fun _ => Calm) next := by
    unfold requireOldFootage
    split
    · exact found.calm
    · split
      · exact found.calm
      · rfl
  apply Holds.bind
  apply Holds.mono old
  · intro source other same
    rw [same]
    apply Holds.bind
    apply requireIdle_ends found.calm
    apply Holds.bind
    apply ask_quiet rfl found.calm.1
    · intro instant _
      exact audit_ends (found.calm.at_ instant) _ _ _ _
    · intro instant _
      exact found.calm.at_ instant
  · intro _ other there
    exact there

theorem start_ends (operation : Operation) (store : Store) (calm : Calm store) :
    (start arithmetic operation store).2.Keeps (exec arithmetic) (Allowed arithmetic) Tracked
      (fun _ => Calm) (start arithmetic operation store).1 := by
  have ended (program : Op Unit) (state : Store)
      (ends : Ends arithmetic program (fun _ => Calm) (fun _ => Calm) state) :
      (program.run.bind fun _ => .done ()).Keeps (exec arithmetic) (Allowed arithmetic) Tracked
        (fun _ => Calm) state := by
    apply Prog.Keeps.bind
    apply Prog.Keeps.mono ends
    intro result next there
    cases result <;> exact there
  have begun : Calm { store with byOwner := operation.byOwner } :=
    ⟨⟨calm.1.right, calm.1.ids, calm.1.drawn, calm.1.unused, calm.1.rows, calm.1.bounded⟩, calm.2⟩
  apply ended
  cases operation with
  | reconcile =>
    apply Holds.bind
    apply Holds.mono (reconcile_ends begun rfl)
    · intro _ _ there
      exact there
    · intro _ _ there
      exact there
  | pollMigration => exact pollMigration_ends begun rfl
  | setAllocation req actor => exact setAllocation_ends begun req actor
  | deleteOldFootage actor => exact deleteOldFootage_ends begun actor

end Droplet.Recordings
