import Droplet.Recordings.World

/-! What the record says of a row since its last success or the owner's last action on it, and what holds
of the rows at every call of the allocator. -/

namespace Droplet.Recordings

open Effects

/-- Since the last success of a row, or the last action of an owner on it. -/
structure Episode where
  failures : ℕ
  lastAt : Option ℤ
  told : ℕ

def Episode.fresh : Episode := ⟨0, none, 0⟩

def Episode.next (row : RowId) (episode : Episode) : Entry → Episode
  | .counted other instant =>
    if other = row then
      { episode with
        failures := episode.failures + 1
        lastAt := some instant }
    else episode
  | .succeeded other => if other = row then .fresh else episode
  | .renewed other => if other = row then .fresh else episode
  | .gaveUp other => if other = row then { episode with told := episode.told + 1 } else episode
  | _ => episode

def episode (row : RowId) (trace : List Entry) : Episode := trace.foldl (Episode.next row) .fresh

def lastReport (trace : List Entry) : Option NvrMigrationStatus :=
  trace.foldl (fun last entry => match entry with | .reported status => some status | _ => last) none

def lastLive (trace : List Entry) : Option RowId :=
  trace.foldl (fun last entry => match entry with | .recordsOnto live => live | _ => last) none

/-- A move to another row was reported done and taken in, and nothing but deletions came after. -/
def MovedAway (trace : List Entry) (row : RowId) : Prop :=
  ∃ front target gone status, trace = front ++ .succeeded target :: gone ∧ target ≠ row ∧
    (∀ entry ∈ gone, ∃ other, entry = .deleted other) ∧
    lastReport front = some status ∧ status.job = some .migrate ∧ status.state = .done

def Right (earlier : List Entry) : Entry → Prop
  | .started row _ instant =>
    (episode row earlier).failures ≤ MAX_AUTO_RETRIES ∧
      ∀ last delay, (episode row earlier).lastAt = some last →
        RETRY_DELAYS_MS[(episode row earlier).failures - 1]? = some delay → last + delay ≤ instant
  | .gaveUp row =>
    (episode row earlier).failures = MAX_AUTO_RETRIES + 1 ∧ (episode row earlier).told = 0
  | .deleted row => lastLive earlier = some row → MovedAway earlier row
  | _ => True

def AllRight (trace : List Entry) : Prop :=
  ∀ earlier entry later, trace = earlier ++ entry :: later → Right earlier entry

/-- A counted failure of the row is as long ago as its retry waits, or there is no retry. -/
def Rested (row : AllocationRecord) (clock : ℤ) : Prop :=
  ∀ last, row.lastFailureAt = some last → row.migrationFailures ≤ MAX_AUTO_RETRIES →
    last + retryDelay row.migrationFailures ≤ clock

structure RowTracked (episode : Episode) (clock : ℤ) (row : AllocationRecord) : Prop where
  failures : episode.failures = row.migrationFailures
  last : episode.lastAt = row.lastFailureAt
  migrating : row.status = .MIGRATING → row.migrationFailures ≤ MAX_AUTO_RETRIES
  rested : row.status = .PENDING ∨ row.status = .MIGRATING → Rested row clock

def Episode.Bounded (episode : Episode) : Prop :=
  episode.failures ≤ MAX_AUTO_RETRIES + 1 ∧ episode.told ≤ 1 ∧
    (0 < episode.told → episode.failures = MAX_AUTO_RETRIES + 1)

/-- What holds at every call. -/
structure Tracked (store : Store) : Prop where
  right : AllRight store.trace
  ids : (store.rows.map AllocationRecord.id).Nodup
  drawn : ∀ row ∈ store.rows, row.id < store.drawn
  unused : ∀ id, store.drawn ≤ id → episode id store.trace = .fresh
  rows : ∀ row ∈ store.rows, RowTracked (episode row.id store.trace) store.clock row
  bounded : ∀ id, (episode id store.trace).Bounded

/-- What holds besides when no operation is under way: who gave up was told. -/
def Calm (store : Store) : Prop :=
  Tracked store ∧ ∀ id, (episode id store.trace).failures = MAX_AUTO_RETRIES + 1 →
    (episode id store.trace).told = 1

theorem episode_append (row : RowId) (trace : List Entry) (entry : Entry) :
    episode row (trace ++ [entry]) = (episode row trace).next row entry := by
  rw [episode, List.foldl_append]
  rfl

theorem lastReport_append (trace : List Entry) (entry : Entry) :
    lastReport (trace ++ [entry]) =
      (match entry with | .reported status => some status | _ => lastReport trace) := by
  rw [lastReport, List.foldl_append]
  rfl

theorem lastLive_append (trace : List Entry) (entry : Entry) :
    lastLive (trace ++ [entry]) =
      (match entry with | .recordsOnto live => live | _ => lastLive trace) := by
  rw [lastLive, List.foldl_append]
  rfl

variable {entry : Entry}

theorem AllRight.append {trace : List Entry} (all : AllRight trace) (right : Right trace entry) :
    AllRight (trace ++ [entry]) := by
  intro earlier written later same
  rcases List.eq_nil_or_concat later with none_later | some_later
  · rw [none_later] at same
    obtain ⟨same_trace, same_entry⟩ := List.append_inj' same rfl
    cases List.singleton_inj.mp same_entry
    rw [← same_trace]
    exact right
  · obtain ⟨front, last, rfl⟩ := some_later
    rw [List.concat_eq_append, ← List.cons_append, ← List.append_assoc] at same
    exact all earlier written front (List.append_inj' same rfl).1

theorem allRight_nil : AllRight [] := by
  intro earlier entry later same
  simp at same

def Entry.plain : Entry → Bool
  | .recordsOnto _ => true
  | .reported _ => true
  | .started _ _ _ => true
  | .deleted _ => true
  | _ => false

theorem episode_plain (row : RowId) (trace : List Entry) (is_plain : entry.plain = true) :
    episode row (trace ++ [entry]) = episode row trace := by
  rw [episode_append]
  cases entry <;> first | rfl | cases is_plain

theorem retryDelay_eq {failures : ℕ} {delay : ℤ} (few : failures ≤ MAX_AUTO_RETRIES)
    (listed : RETRY_DELAYS_MS[failures - 1]? = some delay) : retryDelay failures = delay := by
  have bound : failures ≤ 3 := few
  interval_cases failures <;> simp_all [retryDelay, RETRY_DELAYS_MS, MAX_AUTO_RETRIES]

theorem Rested.later {row : AllocationRecord} {clock clock' : ℤ} (rested : Rested row clock)
    (passes : clock ≤ clock') : Rested row clock' := by
  intro last failed few
  exact (rested last failed few).trans passes

theorem RowTracked.later {episode : Episode} {clock clock' : ℤ} {row : AllocationRecord}
    (tracked : RowTracked episode clock row) (passes : clock ≤ clock') : RowTracked episode clock' row :=
  { tracked with rested := fun stage => (tracked.rested stage).later passes }

def Store.at_ (store : Store) (instant : ℤ) : Store := { store with clock := max store.clock instant }

variable {store : Store}

theorem Tracked.at_ (tracked : Tracked store) (instant : ℤ) : Tracked (store.at_ instant) :=
  { tracked with rows := fun row member => (tracked.rows row member).later (le_max_left _ _) }

theorem Calm.at_ (calm : Calm store) (instant : ℤ) : Calm (store.at_ instant) :=
  ⟨calm.1.at_ instant, calm.2⟩

theorem Tracked.plain (tracked : Tracked store) (is_plain : entry.plain = true)
    (right : Right store.trace entry) : Tracked (store.log [entry]) where
  right := tracked.right.append right
  ids := tracked.ids
  drawn := tracked.drawn
  unused := by
    intro id beyond
    exact (episode_plain id _ is_plain).trans (tracked.unused id beyond)
  rows := by
    intro row member
    rw [Store.log, episode_plain _ _ is_plain]
    exact tracked.rows row member
  bounded := by
    intro id
    rw [Store.log, episode_plain _ _ is_plain]
    exact tracked.bounded id

theorem Calm.plain (calm : Calm store) (is_plain : entry.plain = true)
    (right : Right store.trace entry) : Calm (store.log [entry]) := by
  refine ⟨calm.1.plain is_plain right, ?_⟩
  intro id
  rw [Store.log, episode_plain _ _ is_plain]
  exact calm.2 id

end Droplet.Recordings
