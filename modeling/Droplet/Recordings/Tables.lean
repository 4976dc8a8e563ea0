import Droplet.Recordings.Backoff

/-! What the statements of the allocator leave of the rows. -/

namespace Droplet.Recordings

open Effects

/-- The row still stands as it was read. -/
def Current (store : Store) (w : AllocationRecord) : Prop :=
  ∃ row ∈ store.rows, row.id = w.id ∧ row.status = w.status ∧
    row.migrationFailures = w.migrationFailures ∧ row.lastFailureAt = w.lastFailureAt

variable {store : Store} {w : AllocationRecord} {id : RowId} {data : RowUpdate}
  {status : Option (List AllocationStatus)}

theorem Current.of_mem (member : w ∈ store.rows) : Current store w := ⟨w, member, rfl, rfl, rfl, rfl⟩

theorem Tracked.same_row (tracked : Tracked store) {first second : AllocationRecord}
    (in_first : first ∈ store.rows) (in_second : second ∈ store.rows) (same : first.id = second.id) :
    first = second := List.inj_on_of_nodup_map tracked.ids in_first in_second same

theorem Tracked.current (tracked : Tracked store) (current : Current store w) :
    RowTracked (episode w.id store.trace) store.clock w := by
  obtain ⟨row, member, same_id, same_status, same_failures, same_last⟩ := current
  have row_tracked := tracked.rows row member
  rw [same_id] at row_tracked
  refine ⟨?_, ?_, ?_, ?_⟩
  · exact row_tracked.failures.trans same_failures
  · exact row_tracked.last.trans same_last
  · rw [← same_status, ← same_failures]
    exact row_tracked.migrating
  · intro stage
    rw [← same_status] at stage
    intro last
    rw [← same_last, ← same_failures]
    exact row_tracked.rested stage last

theorem entries_other (data : RowUpdate) (byOwner : Bool) (clock : ℤ) {row : RowId} (trace : List Entry)
    (other : id ≠ row) : episode row (trace ++ data.entries byOwner clock id) = episode row trace := by
  unfold RowUpdate.entries
  split
  · rw [List.append_nil]
  · rw [episode_append]
    cases byOwner <;> simp [Episode.next, other]
  · rw [episode_append]
    simp [Episode.next, other]

theorem entries_right {trace : List Entry} (all : AllRight trace) (byOwner : Bool) (clock : ℤ) :
    AllRight (trace ++ data.entries byOwner clock id) := by
  unfold RowUpdate.entries
  split
  · rw [List.append_nil]
    exact all
  · apply all.append
    cases byOwner <;> trivial
  · exact all.append trivial

theorem chosen_iff {row : AllocationRecord} :
    chosen id status row = true ↔
      row.id = id ∧ ∀ allowed, status = some allowed → row.status ∈ allowed := by
  cases status <;> simp [chosen]

theorem update_ids :
    (store.rows.map fun row => if chosen id status row then data.apply store.clock row else row).map
      AllocationRecord.id = store.rows.map AllocationRecord.id := by
  rw [List.map_map]
  apply List.map_congr_left
  intro row _
  rw [Function.comp_apply]
  split <;> rfl

theorem Tracked.update (tracked : Tracked store)
    (written : ∀ row ∈ store.rows, chosen id status row = true →
      let trace := store.trace ++ data.entries store.byOwner store.clock id
      RowTracked (episode row.id trace) store.clock (data.apply store.clock row) ∧
        (episode row.id trace).Bounded) :
    Tracked (store.update id status data).1 := by
  rw [Store.update]
  split
  swap
  · exact tracked
  rename_i some_chosen
  obtain ⟨hit, in_rows, is_chosen⟩ := List.any_eq_true.mp some_chosen
  have own_id : hit.id = id := (chosen_iff.mp is_chosen).1
  have drawn : hit.id < store.drawn := tracked.drawn hit in_rows
  refine ⟨entries_right tracked.right _ _, ?_, ?_, ?_, ?_, ?_⟩
  · rw [update_ids]
    exact tracked.ids
  · intro row member
    obtain ⟨old, was, rfl⟩ := List.mem_map.mp member
    have below := tracked.drawn old was
    split <;> exact below
  · intro other beyond
    have apart : id ≠ other := by
      rw [← own_id]
      exact (drawn.trans_le beyond).ne
    exact (entries_other data _ _ _ apart).trans (tracked.unused other beyond)
  · intro row member
    obtain ⟨old, was, rfl⟩ := List.mem_map.mp member
    by_cases chosen_old : chosen id status old = true
    · rw [if_pos chosen_old]
      exact (written old was chosen_old).1
    · rw [if_neg chosen_old]
      have apart : id ≠ old.id := by
        intro same
        apply chosen_old
        rw [tracked.same_row was in_rows (by rw [own_id, same])]
        exact is_chosen
      have same_episode := entries_other data store.byOwner store.clock store.trace apart
      rw [show (store.log (data.entries store.byOwner store.clock id)).trace =
        store.trace ++ data.entries store.byOwner store.clock id from rfl, same_episode]
      exact tracked.rows old was
  · intro other
    by_cases same : id = other
    · have known := (written hit in_rows is_chosen).2
      rw [own_id, same] at known
      rw [← same] at known ⊢
      exact known
    · have same_episode := entries_other data store.byOwner store.clock store.trace same
      rw [show (store.log (data.entries store.byOwner store.clock id)).trace =
        store.trace ++ data.entries store.byOwner store.clock id from rfl, same_episode]
      exact tracked.bounded other

theorem Current.update (current : Current store w)
    (passes : ∀ allowed, status = some allowed → w.status ∈ allowed) (clock : ℤ) :
    Current (store.update w.id status data).1 (data.apply clock w) := by
  obtain ⟨row, member, same_id, same_status, same_failures, same_last⟩ := current
  have is_chosen : chosen w.id status row = true := by
    rw [chosen_iff, same_status]
    exact ⟨same_id, passes⟩
  have some_chosen : store.rows.any (chosen w.id status) = true :=
    List.any_eq_true.mpr ⟨row, member, is_chosen⟩
  rw [Store.update, if_pos some_chosen]
  refine ⟨data.apply store.clock row, ?_, same_id, ?_, ?_, ?_⟩
  · exact List.mem_map.mpr ⟨row, member, by rw [if_pos is_chosen]⟩
  · simp [RowUpdate.apply, same_status]
  · simp [RowUpdate.apply, same_failures]
  · simp [RowUpdate.apply, same_last]

theorem update_count (current : Current store w) (passes : ∀ allowed, status = some allowed → w.status ∈ allowed) :
    (store.update w.id status data).2 = .count 1 := by
  obtain ⟨row, member, same_id, same_status, -⟩ := current
  have some_chosen : store.rows.any (chosen w.id status) = true := by
    refine List.any_eq_true.mpr ⟨row, member, ?_⟩
    rw [chosen_iff, same_status]
    exact ⟨same_id, passes⟩
  rw [Store.update, if_pos some_chosen]

theorem update_trace (current : Current store w) (passes : ∀ allowed, status = some allowed → w.status ∈ allowed) :
    (store.update w.id status data).1.trace =
      store.trace ++ data.entries store.byOwner store.clock w.id := by
  obtain ⟨row, member, same_id, same_status, -⟩ := current
  have some_chosen : store.rows.any (chosen w.id status) = true := by
    refine List.any_eq_true.mpr ⟨row, member, ?_⟩
    rw [chosen_iff, same_status]
    exact ⟨same_id, passes⟩
  rw [Store.update, if_pos some_chosen]
  rfl

theorem Calm.update_plain (calm : Calm store) (no_failures : data.migrationFailures = none)
    (no_instant : data.lastFailureAt = none)
    (entered : ∀ row ∈ store.rows, chosen id status row = true → ∀ next, data.status = some next →
      (next = .MIGRATING → row.migrationFailures ≤ MAX_AUTO_RETRIES) ∧
        (next = .PENDING ∨ next = .MIGRATING → Rested row store.clock)) :
    Calm (store.update id status data).1 := by
  have silent (byOwner : Bool) (clock : ℤ) : data.entries byOwner clock id = [] := by
    rw [RowUpdate.entries, no_failures]
  constructor
  · apply calm.1.update
    intro row member is_chosen
    rw [silent, List.append_nil]
    refine ⟨?_, calm.1.bounded row.id⟩
    have was := calm.1.rows row member
    have failures : (data.apply store.clock row).migrationFailures = row.migrationFailures := by
      simp [RowUpdate.apply, no_failures]
    have last : (data.apply store.clock row).lastFailureAt = row.lastFailureAt := by
      simp [RowUpdate.apply, no_instant]
    have rested_same (clock : ℤ) : Rested (data.apply store.clock row) clock ↔ Rested row clock := by
      rw [Rested, Rested, failures, last]
    cases next : data.status with
    | none =>
      have stage : (data.apply store.clock row).status = row.status := by
        simp [RowUpdate.apply, next]
      refine ⟨was.failures.trans failures.symm, was.last.trans last.symm, ?_, ?_⟩
      · rw [stage, failures]
        exact was.migrating
      · rw [stage, rested_same]
        exact was.rested
    | some next_status =>
      have stage : (data.apply store.clock row).status = next_status := by
        simp [RowUpdate.apply, next]
      obtain ⟨few, rested⟩ := entered row member is_chosen next_status next
      refine ⟨was.failures.trans failures.symm, was.last.trans last.symm, ?_, ?_⟩
      · rw [stage, failures]
        exact few
      · rw [stage, rested_same]
        exact rested
  · intro other
    have same_trace : (store.update id status data).1.trace = store.trace := by
      rw [Store.update]
      split
      · rw [Store.log, silent, List.append_nil]
      · rfl
    rw [same_trace]
    exact calm.2 other

theorem Calm.update_renewed (calm : Calm store) (no_failures : data.migrationFailures = some 0)
    (no_instant : data.lastFailureAt = some none) : Calm (store.update id status data).1 := by
  have anew (trace : List Entry) (byOwner : Bool) (clock : ℤ) :
      episode id (trace ++ data.entries byOwner clock id) = .fresh := by
    have one : data.entries byOwner clock id = [if byOwner then .renewed id else .succeeded id] := by
      simp [RowUpdate.entries, no_failures]
    rw [one, episode_append]
    cases byOwner <;> simp [Episode.next]
  constructor
  · apply calm.1.update
    intro row member is_chosen
    dsimp only
    rw [(chosen_iff.mp is_chosen).1, anew]
    have failures : (data.apply store.clock row).migrationFailures = 0 := by
      simp [RowUpdate.apply, no_failures]
    have last : (data.apply store.clock row).lastFailureAt = none := by
      simp [RowUpdate.apply, no_instant]
    refine ⟨⟨failures.symm, last.symm, ?_, ?_⟩, by simp [Episode.Bounded, Episode.fresh]⟩
    · intro _
      rw [failures]
      exact Nat.zero_le _
    · intro _ instant failed
      rw [last] at failed
      cases failed
  · intro other
    rw [Store.update]
    split
    · by_cases same : id = other
      · rw [← same, Store.log, anew]
        simp [Episode.fresh]
      · rw [Store.log, entries_other _ _ _ _ same]
        exact calm.2 other
    · exact calm.2 other

theorem Tracked.insert (tracked : Tracked store) (fsUuid : String) (mode : AllocationMode)
    (reservedBytes : ℕ) : Tracked (store.insert fsUuid mode reservedBytes).1 := by
  rw [Store.insert]
  split
  · exact tracked
  have unseen := tracked.unused store.drawn le_rfl
  refine ⟨tracked.right, ?_, ?_, ?_, ?_, tracked.bounded⟩
  · rw [List.map_append, List.nodup_append]
    refine ⟨tracked.ids, by simp, ?_⟩
    intro first in_first second in_second
    obtain ⟨row, member, rfl⟩ := List.mem_map.mp in_first
    have below := tracked.drawn row member
    simp only [List.map_cons, List.map_nil, List.mem_singleton] at in_second
    rw [in_second]
    exact below.ne
  · intro row member
    rcases List.mem_append.mp member with old | new
    · exact (tracked.drawn row old).trans (Nat.lt_succ_self _)
    · rw [List.mem_singleton.mp new]
      exact Nat.lt_succ_self _
  · intro id beyond
    exact tracked.unused id ((Nat.le_succ _).trans beyond)
  · intro row member
    rcases List.mem_append.mp member with old | new
    · exact tracked.rows row old
    · rw [List.mem_singleton.mp new]
      dsimp only
      rw [unseen]
      refine ⟨rfl, rfl, fun _ => Nat.zero_le _, ?_⟩
      intro _ instant failed
      cases failed

theorem Calm.insert (calm : Calm store) (fsUuid : String) (mode : AllocationMode)
    (reservedBytes : ℕ) : Calm (store.insert fsUuid mode reservedBytes).1 := by
  refine ⟨calm.1.insert fsUuid mode reservedBytes, ?_⟩
  rw [Store.insert]
  split <;> exact calm.2

theorem insert_created {fsUuid : String} {mode : AllocationMode} {reservedBytes : ℕ}
    (created : (store.insert fsUuid mode reservedBytes).2 = .created w) :
    w ∈ (store.insert fsUuid mode reservedBytes).1.rows ∧ w.id = store.drawn ∧ w.status = .PENDING ∧
      (store.insert fsUuid mode reservedBytes).1.trace = store.trace := by
  rw [Store.insert] at created ⊢
  split at created
  · cases created
  · rename_i unique
    rw [if_neg unique]
    cases created
    exact ⟨by simp, rfl, rfl, rfl⟩

theorem MovedAway.deleted {trace : List Entry} {row : RowId} (moved : MovedAway trace row)
    (other : RowId) : MovedAway (trace ++ [.deleted other]) row := by
  obtain ⟨front, target, gone, status, rfl, apart, only, reported⟩ := moved
  refine ⟨front, target, gone ++ [.deleted other], status, by simp, apart, ?_, reported⟩
  intro entry member
  rcases List.mem_append.mp member with before | last
  · exact only entry before
  · exact ⟨other, List.mem_singleton.mp last⟩

theorem deleted_later (trace : List Entry) (gone : List AllocationRecord) :
    lastLive (trace ++ gone.map fun row => .deleted row.id) = lastLive trace ∧
      ∀ row, MovedAway trace row →
        MovedAway (trace ++ gone.map fun row => .deleted row.id) row := by
  induction gone using List.reverseRecOn with
  | nil => simp
  | append_singleton gone row ih =>
    rw [List.map_append, List.map_singleton, ← List.append_assoc, lastLive_append]
    exact ⟨ih.1, fun other moved => (ih.2 other moved).deleted row.id⟩

theorem Calm.deleted (calm : Calm store) (gone : List AllocationRecord)
    (may : ∀ row ∈ gone, lastLive store.trace = some row.id → MovedAway store.trace row.id) :
    Calm (store.log (gone.map fun row => .deleted row.id)) := by
  induction gone using List.reverseRecOn with
  | nil =>
    rw [List.map_nil, Store.log, List.append_nil]
    exact calm
  | append_singleton gone last ih =>
    have before := ih fun row member => may row (List.mem_append_left _ member)
    have right : Right (store.trace ++ gone.map fun row => .deleted row.id) (.deleted last.id) := by
      intro live
      rw [(deleted_later store.trace gone).1] at live
      exact (deleted_later store.trace gone).2 _ (may last (by simp) live)
    have after : Calm (Store.log _ [.deleted last.id]) := before.plain rfl right
    rw [List.map_append, List.map_singleton, Store.log, ← List.append_assoc]
    exact after

theorem Calm.filtered (calm : Calm store) (kept : AllocationRecord → Bool) :
    Calm { store with rows := store.rows.filter kept } := by
  refine ⟨⟨calm.1.right, ?_, ?_, calm.1.unused, ?_, calm.1.bounded⟩, calm.2⟩
  · exact calm.1.ids.sublist (List.filter_sublist.map _)
  · intro row member
    exact calm.1.drawn row (List.mem_of_mem_filter member)
  · intro row member
    exact calm.1.rows row (List.mem_of_mem_filter member)

theorem Calm.remove (calm : Calm store) (doomed : AllocationRecord → Bool)
    (may : ∀ row ∈ store.rows, doomed row = true → lastLive store.trace = some row.id →
      MovedAway store.trace row.id) : Calm (store.remove doomed).1 := by
  have logged := calm.deleted (store.rows.filter doomed) (by
    intro row member
    exact may row (List.mem_of_mem_filter member) (List.of_mem_filter member))
  exact logged.filtered fun row => !doomed row

end Droplet.Recordings
