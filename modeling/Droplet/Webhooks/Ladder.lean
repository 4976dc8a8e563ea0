import Droplet.Webhooks.Deliveries

/-! When a delivery that failed is attempted again, as long as no row is claimed while an attempt still
has to write it. -/

namespace Droplet.Webhooks

structure Failure where
  began : ℤ
  recorded : ℤ

def Entry.failure (id : DeliveryId) : Entry → Option Failure
  | .failed delivery began recorded => if delivery = id then some ⟨began, recorded⟩ else none
  | _ => none

def failures (id : DeliveryId) (log : List Entry) : List Failure := log.filterMap (Entry.failure id)

/-- The wait after each failure is over, less the time the failed attempt took. -/
def Due (failures : List Failure) (bound : ℤ) : Prop :=
  ∀ (k : ℕ) (failure : Failure) (delay : ℤ), failures[k]? = some failure →
    RETRY_DELAYS_MS[k]? = some delay → failure.recorded + delay ≤ bound + (failure.recorded - failure.began)

/-- What an attempt may begin after. -/
def Rested (earlier : List Entry) : Entry → Prop
  | .started id instant => Due (failures id earlier) instant
  | _ => True

structure RowTracked (failures : List Failure) (row : PmWebhookDelivery) : Prop where
  bounded : row.attempts ≤ MAX_ATTEMPTS
  counted : row.owed = true → row.attempts = failures.length ∧ row.attempts < MAX_ATTEMPTS
  due : row.owed = true → Due failures row.nextAttemptAt

structure ReadTracked (failures : List Failure) (attempt : Attempt) : Prop where
  counted : attempt.read.delivery.attempts = failures.length
  bounded : attempt.read.delivery.attempts < MAX_ATTEMPTS
  due : Due failures attempt.now

structure Tracked (world : World) : Prop where
  ids : ∀ id row, world.deliveries id = some row → row.id = id ∧ id < world.deliveriesDrawn
  known : ∀ (place : ℕ) attempt, world.attempts[place]? = some attempt →
    attempt.stage.holds = true →
      attempt.read.delivery.id < world.deliveriesDrawn ∧ attempt.now ≤ world.clock
  fresh : ∀ id, world.deliveriesDrawn ≤ id → failures id world.log = []
  rows : ∀ id row, world.deliveries id = some row → RowTracked (failures id world.log) row
  reads : ∀ (place : ℕ) attempt, world.attempts[place]? = some attempt →
    attempt.stage.holds = true → ReadTracked (failures attempt.read.delivery.id world.log) attempt
  alone : ∀ (i j : ℕ) a b, world.attempts[i]? = some a → world.attempts[j]? = some b →
    a.stage.holds = true → b.stage.holds = true → a.read.delivery.id = b.read.delivery.id → i = j
  rested : Histories.Each Rested world.log

/-- A sweep claims no row that an attempt still has to write. -/
def Unclaimed (world : World) : Action → Prop
  | .claim locked => ∀ row ∈ world.due locked, ∀ attempt ∈ world.attempts,
      attempt.stage.holds = true → attempt.read.delivery.id ≠ row.id
  | _ => True

variable {list : List Failure}

theorem Due.later {bound bound' : ℤ} (due : Due list bound) (later : bound ≤ bound') : Due list bound' := by
  intro k failure delay found listed
  have waits := due k failure delay found listed
  omega

theorem due_nil (bound : ℤ) : Due [] bound := by
  intro k failure delay found
  cases found

theorem Due.snoc {bound bound' : ℤ} {failure : Failure} (due : Due list bound) (later : bound ≤ bound')
    (waits : ∀ delay, RETRY_DELAYS_MS[list.length]? = some delay → failure.began + delay ≤ bound') :
    Due (list ++ [failure]) bound' := by
  intro k other delay found listed
  rcases Places.append_cases found with ⟨last, same⟩ | earlier
  · subst last
    subst same
    have waited := waits delay listed
    omega
  · exact due.later later k other delay earlier listed

theorem delay_nonneg {k : ℕ} {delay : ℤ} (listed : RETRY_DELAYS_MS[k]? = some delay) : 0 ≤ delay := by
  have member := List.mem_of_getElem? listed
  simp only [RETRY_DELAYS_MS, List.mem_cons, List.not_mem_nil, or_false] at member
  omega

theorem failures_append (id : DeliveryId) (log entries : List Entry) :
    failures id (log ++ entries) = failures id log ++ failures id entries := by
  rw [failures, List.filterMap_append]
  rfl

variable {world next : World}

/-- Fewer rows, fewer attempts that still have to write, and nothing new in the record of failures. -/
structure Fewer (world next : World) : Prop where
  clock : world.clock ≤ next.clock
  drawn : world.deliveriesDrawn ≤ next.deliveriesDrawn
  rows : ∀ id row, next.deliveries id = some row → world.deliveries id = some row
  attempts : ∀ (place : ℕ) attempt, next.attempts[place]? = some attempt →
    attempt.stage.holds = true → ∃ before, world.attempts[place]? = some before ∧
      before.stage.holds = true ∧ attempt.read = before.read ∧ attempt.now = before.now
  failed : ∀ id, failures id next.log = failures id world.log

theorem Tracked.fewer (tracked : Tracked world) (fewer : Fewer world next)
    (rested : Histories.Each Rested next.log) : Tracked next where
  ids := by
    intro id row found
    obtain ⟨same, known⟩ := tracked.ids id row (fewer.rows id row found)
    exact ⟨same, known.trans_le fewer.drawn⟩
  known := by
    intro place attempt found holds
    obtain ⟨before, was, held, read, now⟩ := fewer.attempts place attempt found holds
    obtain ⟨known, past⟩ := tracked.known place before was held
    rw [read, now]
    exact ⟨known.trans_le fewer.drawn, past.trans fewer.clock⟩
  fresh := by
    intro id beyond
    rw [fewer.failed]
    exact tracked.fresh id (fewer.drawn.trans beyond)
  rows := by
    intro id row found
    rw [fewer.failed]
    exact tracked.rows id row (fewer.rows id row found)
  reads := by
    intro place attempt found holds
    obtain ⟨before, was, held, read, now⟩ := fewer.attempts place attempt found holds
    have kept := tracked.reads place before was held
    rw [fewer.failed, read]
    refine ⟨?_, ?_, ?_⟩
    · rw [read]
      exact kept.counted
    · rw [read]
      exact kept.bounded
    · rw [now]
      exact kept.due
  alone := by
    intro i j a b found_a found_b holds_a holds_b same
    obtain ⟨before_a, was_a, held_a, read_a, _⟩ := fewer.attempts i a found_a holds_a
    obtain ⟨before_b, was_b, held_b, read_b, _⟩ := fewer.attempts j b found_b holds_b
    rw [read_a, read_b] at same
    exact tracked.alone i j before_a before_b was_a was_b held_a held_b same
  rested := rested

theorem Fewer.refl (world : World) : Fewer world world where
  clock := le_refl _
  drawn := le_refl _
  rows _ _ found := found
  attempts _ attempt found holds := ⟨attempt, found, holds, rfl, rfl⟩
  failed _ := rfl

theorem Fewer.setStage (fewer : Fewer world next) (place : ℕ) {stage : Stage}
    (holds : ∀ attempt, next.attempts[place]? = some attempt → stage.holds = true →
      attempt.stage.holds = true) : Fewer world (next.setStage place stage) where
  clock := fewer.clock
  drawn := fewer.drawn
  rows := fewer.rows
  attempts := by
    intro other attempt found held
    rw [World.setStage, List.getElem?_modify, Option.map_eq_map, Option.map_eq_some_iff] at found
    obtain ⟨before, was, rfl⟩ := found
    by_cases here : place = other
    · subst here
      simp only [if_true] at held ⊢
      exact fewer.attempts place before was (holds before was held)
    · simp only [here, if_false] at held ⊢
      exact fewer.attempts other before was held
  failed := fewer.failed

theorem Fewer.note (fewer : Fewer world next) {entries : List Entry}
    (quiet : ∀ id, failures id entries = []) : Fewer world (next.note entries) where
  clock := fewer.clock
  drawn := fewer.drawn
  rows := fewer.rows
  attempts := fewer.attempts
  failed := by
    intro id
    rw [World.note, failures_append, quiet, List.append_nil]
    exact fewer.failed id

theorem Fewer.putWebhook (fewer : Fewer world next) (id : WebhookId) (row : Option PmWebhook) :
    Fewer world (next.putWebhook id row) :=
  ⟨fewer.clock, fewer.drawn, fewer.rows, fewer.attempts, fewer.failed⟩

theorem Tracked.at_ (tracked : Tracked world) (instant : ℤ) : Tracked (world.at_ instant) := by
  refine tracked.fewer ?_ tracked.rested
  exact ⟨le_max_left _ _, le_refl _, fun _ _ found => found,
    fun _ attempt found holds => ⟨attempt, found, holds, rfl, rfl⟩, fun _ => rfl⟩

theorem Tracked.create (tracked : Tracked world) (webhookId : WebhookId) (nextAttemptAt : ℤ) :
    Tracked (world.create webhookId nextAttemptAt) where
  ids := by
    intro id row found
    simp only [World.create, World.putDelivery] at found ⊢
    by_cases new : id = world.deliveriesDrawn
    · subst new
      rw [Function.update_self] at found
      cases found
      exact ⟨rfl, Nat.lt_succ_self _⟩
    · rw [Function.update_of_ne new] at found
      obtain ⟨same, known⟩ := tracked.ids id row found
      exact ⟨same, Nat.lt_succ_of_lt known⟩
  known := by
    intro place attempt found holds
    obtain ⟨known, past⟩ := tracked.known place attempt found holds
    exact ⟨Nat.lt_succ_of_lt known, past⟩
  fresh := by
    intro id beyond
    exact tracked.fresh id ((Nat.le_succ _).trans beyond)
  rows := by
    intro id row found
    simp only [World.create, World.putDelivery] at found ⊢
    by_cases new : id = world.deliveriesDrawn
    · subst new
      rw [Function.update_self] at found
      cases found
      rw [tracked.fresh _ (le_refl _)]
      exact ⟨Nat.zero_le _, fun _ => ⟨rfl, Nat.succ_pos _⟩, fun _ => due_nil _⟩
    · rw [Function.update_of_ne new] at found
      exact tracked.rows id row found
  reads := tracked.reads
  alone := tracked.alone
  rested := tracked.rested

theorem Tracked.join (tracked : Tracked world) {more : List Attempt}
    (known : ∀ attempt ∈ more,
      attempt.read.delivery.id < world.deliveriesDrawn ∧ attempt.now ≤ world.clock)
    (reads : ∀ attempt ∈ more, ReadTracked (failures attempt.read.delivery.id world.log) attempt)
    (apart : ∀ attempt ∈ more, ∀ other ∈ world.attempts, other.stage.holds = true →
      other.read.delivery.id ≠ attempt.read.delivery.id)
    (distinct : (more.map fun attempt => attempt.read.delivery.id).Nodup) :
    Tracked { world with attempts := world.attempts ++ more } := by
  have split {place : ℕ} {attempt : Attempt} (found : (world.attempts ++ more)[place]? = some attempt) :
      world.attempts[place]? = some attempt ∨
        ∃ k, place = world.attempts.length + k ∧ more[k]? = some attempt := by
    rw [List.getElem?_append] at found
    split at found
    · exact Or.inl found
    · rename_i beyond
      exact Or.inr ⟨place - world.attempts.length, by omega, found⟩
  refine ⟨tracked.ids, ?_, tracked.fresh, tracked.rows, ?_, ?_, tracked.rested⟩
  · intro place attempt found holds
    rcases split found with old | ⟨k, _, new⟩
    · exact tracked.known place attempt old holds
    · exact known attempt (List.mem_of_getElem? new)
  · intro place attempt found holds
    rcases split found with old | ⟨k, _, new⟩
    · exact tracked.reads place attempt old holds
    · exact reads attempt (List.mem_of_getElem? new)
  · intro i j a b found_a found_b holds_a holds_b same
    rcases split found_a with old_a | ⟨k, at_k, new_a⟩
    · rcases split found_b with old_b | ⟨l, at_l, new_b⟩
      · exact tracked.alone i j a b old_a old_b holds_a holds_b same
      · exact absurd same (apart b (List.mem_of_getElem? new_b) a (List.mem_of_getElem? old_a) holds_a)
    · rcases split found_b with old_b | ⟨l, at_l, new_b⟩
      · exact absurd same.symm (apart a (List.mem_of_getElem? new_a) b (List.mem_of_getElem? old_b) holds_b)
      · have place_a : (more.map fun attempt => attempt.read.delivery.id)[k]? = some a.read.delivery.id := by
          rw [List.getElem?_map, new_a]
          rfl
        have place_b : (more.map fun attempt => attempt.read.delivery.id)[l]? = some a.read.delivery.id := by
          rw [List.getElem?_map, new_b, same]
          rfl
        have bound : k < (more.map fun attempt => attempt.read.delivery.id).length :=
          (List.getElem?_eq_some_iff.mp place_a).1
        have equal : k = l :=
          (List.getElem?_inj bound distinct).mp (place_a.trans place_b.symm)
        rw [at_k, at_l, equal]

theorem failures_started (id : DeliveryId) (log : List Entry) (other : DeliveryId) (instant : ℤ) :
    failures id (log ++ [.started other instant]) = failures id log := by
  rw [failures_append]
  exact List.append_nil _

variable {attempt : Attempt}

theorem Tracked.begin_ (tracked : Tracked world) {place : ℕ}
    (found : world.attempts[place]? = some attempt) (holds : attempt.stage.holds = true) :
    Tracked (world.begin_ place attempt) := by
  obtain ⟨known, past⟩ := tracked.known place attempt found holds
  have read := tracked.reads place attempt found holds
  have set_cases {other : ℕ} {after : Attempt}
      (there : (world.attempts.set place (attempt.begin_ world.clock))[other]? = some after)
      (held : after.stage.holds = true) :
      ∃ before, world.attempts[other]? = some before ∧ before.stage.holds = true ∧
        after.read = before.read ∧ (after.now = before.now ∨ after.now = world.clock) := by
    rcases Places.set_cases there with ⟨same, new⟩ | ⟨_, old⟩
    · subst same
      subst new
      exact ⟨attempt, found, holds, rfl, Or.inr rfl⟩
    · exact ⟨after, old, held, rfl, Or.inl rfl⟩
  refine ⟨tracked.ids, ?_, ?_, ?_, ?_, ?_, ?_⟩
  · intro other after there held
    obtain ⟨before, was, before_held, same, now⟩ := set_cases there held
    obtain ⟨before_known, before_past⟩ := tracked.known other before was before_held
    rw [same]
    refine ⟨before_known, ?_⟩
    rcases now with kept | begun
    · rw [kept]
      exact before_past
    · rw [begun]
      exact le_refl _
  · intro id beyond
    rw [World.begin_, failures_started]
    exact tracked.fresh id beyond
  · intro id row there
    rw [World.begin_, failures_started]
    exact tracked.rows id row there
  · intro other after there held
    obtain ⟨before, was, before_held, same, now⟩ := set_cases there held
    have before_read := tracked.reads other before was before_held
    rw [World.begin_, failures_started, same]
    refine ⟨?_, ?_, ?_⟩
    · rw [same]
      exact before_read.counted
    · rw [same]
      exact before_read.bounded
    · rcases now with kept | begun
      · rw [kept]
        exact before_read.due
      · rw [begun]
        exact before_read.due.later (tracked.known other before was before_held).2
  · intro i j a b there_a there_b held_a held_b same
    obtain ⟨before_a, was_a, before_held_a, same_a, _⟩ := set_cases there_a held_a
    obtain ⟨before_b, was_b, before_held_b, same_b, _⟩ := set_cases there_b held_b
    rw [same_a, same_b] at same
    exact tracked.alone i j before_a before_b was_a was_b before_held_a before_held_b same
  · exact tracked.rested.append (read.due.later past)

theorem Attempt.data_id (attempt : Attempt) (row : PmWebhookDelivery) : (attempt.data row).id = row.id := by
  unfold Attempt.data
  split
  · rfl
  · split <;> rfl
  · rfl
  · rfl
  · rfl

theorem Attempt.settled_holds (attempt : Attempt) : attempt.settled.holds = false := by
  unfold Attempt.settled
  split
  · split <;> rfl
  · split <;> rfl
  · rfl

def Attempt.failure (attempt : Attempt) (clock : ℤ) : List Failure :=
  match attempt.stage with
  | .failing _ _ => [⟨attempt.now, clock⟩]
  | _ => []

theorem Attempt.record_failures (attempt : Attempt) (clock : ℤ) (id : DeliveryId) :
    failures id (attempt.record clock) =
      if attempt.read.delivery.id = id then attempt.failure clock else [] := by
  unfold Attempt.record Attempt.failure
  cases attempt.stage with
  | failing error code =>
    by_cases same : attempt.read.delivery.id = id
    all_goals simp [failures, Entry.failure, same]
  | delivering code =>
    cases attempt.test
    · simp [failures, Entry.failure]
    · simp [failures]
  | _ => simp [failures]

theorem ReadTracked.data {row : PmWebhookDelivery} (read : ReadTracked list attempt)
    (tracked : RowTracked list row) (owed : row.owed = true) (clock : ℤ) :
    RowTracked (list ++ attempt.failure clock) (attempt.data row) := by
  obtain ⟨counted, below⟩ := tracked.counted owed
  have few := read.bounded
  rw [read.counted] at few
  unfold Attempt.data Attempt.failure
  cases stage : attempt.stage with
  | givingUp error =>
    simp only [List.append_nil]
    refine ⟨tracked.bounded, ?_, ?_⟩
    all_goals
      intro now_owed
      cases now_owed
  | blocking =>
    simp only [List.append_nil]
    split
    · refine ⟨tracked.bounded, ?_, ?_⟩
      all_goals
        intro now_owed
        cases now_owed
    · refine ⟨tracked.bounded, fun _ => ⟨counted, below⟩, fun _ => read.due.later ?_⟩
      simp [BLOCKED_RECHECK_MS]
  | failing error code =>
    refine ⟨?_, ?_, ?_⟩
    · exact read.bounded
    · intro now_owed
      dsimp only [PmWebhookDelivery.owed] at now_owed
      split at now_owed
      · cases now_owed
      · rename_i goes_on
        simp only [Attempt.exhausted, Bool.or_eq_true, decide_eq_true_eq, not_or, not_le] at goes_on
        rw [List.length_append, read.counted, List.length_singleton]
        rw [read.counted] at goes_on
        exact ⟨rfl, goes_on.2⟩
    · intro now_owed
      dsimp only [PmWebhookDelivery.owed] at now_owed ⊢
      split at now_owed
      · cases now_owed
      · rename_i goes_on
        rw [if_neg goes_on, read.counted]
        cases listed : RETRY_DELAYS_MS[list.length]? with
        | none =>
          apply read.due.snoc
          · simp
          · intro delay some_delay
            rw [listed] at some_delay
            cases some_delay
        | some delay =>
          apply read.due.snoc
          · have waits := delay_nonneg listed
            simp only [Option.getD_some]
            omega
          · intro other same
            rw [listed] at same
            cases same
            exact le_refl _
  | delivering code =>
    simp only [List.append_nil]
    refine ⟨read.bounded, ?_, ?_⟩
    all_goals
      intro now_owed
      cases now_owed
  | _ =>
    simp only [List.append_nil]
    exact tracked

theorem rested_record (log : List Entry) (attempt : Attempt) (clock : ℤ)
    (rested : Histories.Each Rested log) : Histories.Each Rested (log ++ attempt.record clock) := by
  unfold Attempt.record
  split
  · exact rested.append trivial
  · split
    · rw [List.append_nil]
      exact rested
    · exact rested.append trivial
  · rw [List.append_nil]
    exact rested

theorem Tracked.settle (tracked : Tracked world) {place : ℕ}
    (found : world.attempts[place]? = some attempt) (holds : attempt.stage.holds = true) :
    Tracked (world.settle place attempt) := by
  have over_ : Tracked (world.setStage place attempt.settled) := by
    refine tracked.fewer ((Fewer.refl world).setStage place ?_) tracked.rested
    intro before _ held
    rw [attempt.settled_holds] at held
    cases held
  unfold World.settle
  split
  swap
  · exact over_
  rename_i row row_found
  split
  swap
  · exact over_
  rename_i owed
  obtain ⟨row_id, _⟩ := tracked.ids _ row row_found
  have read := tracked.reads place attempt found holds
  have written := read.data (tracked.rows _ row row_found) owed world.clock
  have others {other : ℕ} {after : Attempt}
      (there : (((world.putDelivery row.id (some (attempt.data row))).note
        (attempt.record world.clock)).setStage place attempt.settled).attempts[other]? = some after)
      (held : after.stage.holds = true) :
      world.attempts[other]? = some after ∧
        after.read.delivery.id ≠ attempt.read.delivery.id := by
    rw [World.setStage, List.getElem?_modify, Option.map_eq_map, Option.map_eq_some_iff] at there
    obtain ⟨before, was, rfl⟩ := there
    by_cases here : place = other
    · simp only [here, if_true, attempt.settled_holds, Bool.false_eq_true] at held
    · simp only [here, if_false] at held ⊢
      refine ⟨was, ?_⟩
      intro same
      exact here (tracked.alone place other attempt before found was holds held same.symm)
  have unfailed {id : DeliveryId} (differs : attempt.read.delivery.id ≠ id) :
      failures id (world.log ++ attempt.record world.clock) = failures id world.log := by
    rw [failures_append, attempt.record_failures, if_neg differs, List.append_nil]
  refine ⟨?_, ?_, ?_, ?_, ?_, ?_, rested_record world.log attempt world.clock tracked.rested⟩
  · intro id other there
    simp only [World.setStage, World.note, World.putDelivery] at there ⊢
    by_cases same : id = row.id
    · subst same
      rw [Function.update_self] at there
      cases there
      rw [attempt.data_id, row_id]
      exact ⟨rfl, (tracked.ids _ row row_found).2⟩
    · rw [Function.update_of_ne same] at there
      exact tracked.ids id other there
  · intro other after there held
    exact tracked.known other after (others there held).1 held
  · intro id beyond
    have known := (tracked.ids _ row row_found).2
    rw [World.setStage, World.note]
    refine (unfailed ?_).trans (tracked.fresh id beyond)
    intro same
    rw [same] at known
    exact absurd known (Nat.not_lt.mpr beyond)
  · intro id other there
    simp only [World.setStage, World.note, World.putDelivery] at there ⊢
    by_cases same : id = row.id
    · subst same
      rw [Function.update_self] at there
      cases there
      rw [failures_append, attempt.record_failures, row_id, if_pos rfl]
      exact written
    · rw [Function.update_of_ne same] at there
      rw [unfailed (fun equal => same (equal.symm.trans row_id.symm))]
      exact tracked.rows id other there
  · intro other after there held
    obtain ⟨was, differs⟩ := others there held
    have kept := tracked.reads other after was held
    rw [← unfailed differs.symm] at kept
    exact kept
  · intro i j a b there_a there_b held_a held_b same
    exact tracked.alone i j a b (others there_a held_a).1 (others there_b held_b).1 held_a held_b same

variable {locked : List DeliveryId}

theorem mem_due {row : PmWebhookDelivery} (member : row ∈ world.due locked) :
    (∃ id, world.deliveries id = some row) ∧ row.owed = true ∧ row.nextAttemptAt ≤ world.clock := by
  have found := List.mem_of_mem_take member
  rw [(List.mergeSort_perm _ _).mem_iff] at found
  simp only [List.mem_filter, List.mem_filterMap, Bool.and_eq_true, decide_eq_true_eq] at found
  obtain ⟨⟨id, _, there⟩, ⟨owed, past⟩, _⟩ := found
  exact ⟨⟨id, there⟩, owed, past⟩

theorem Tracked.due_nodup (tracked : Tracked world) (locked : List DeliveryId) :
    ((world.due locked).map PmWebhookDelivery.id).Nodup := by
  have all : (((List.range world.deliveriesDrawn).filterMap world.deliveries).map
      PmWebhookDelivery.id).Nodup := by
    have same : ((List.range world.deliveriesDrawn).filterMap world.deliveries).map PmWebhookDelivery.id =
          (List.range world.deliveriesDrawn).filter fun id => (world.deliveries id).isSome := by
      rw [List.map_filterMap, ← List.filterMap_eq_filter]
      apply List.filterMap_congr
      intro id _
      cases found : world.deliveries id with
      | none => simp [Option.guard, found]
      | some row => simp [Option.guard, found, (tracked.ids id row found).1]
    rw [same]
    exact List.nodup_range.filter _
  have sorted := ((List.mergeSort_perm (((List.range world.deliveriesDrawn).filterMap
    world.deliveries).filter fun row =>
      row.owed && decide (row.nextAttemptAt ≤ world.clock) && !locked.contains row.id)
    fun first second => decide (first.nextAttemptAt ≤ second.nextAttemptAt)).map
      PmWebhookDelivery.id).nodup_iff.mpr (all.sublist (List.filter_sublist.map _))
  exact sorted.sublist ((List.take_sublist _ _).map _)

theorem Tracked.lease (tracked : Tracked world) (locked : List DeliveryId) :
    Tracked
      { world with
        deliveries := fun id =>
          if id ∈ (world.due locked).map PmWebhookDelivery.id then
            (world.deliveries id).map (PmWebhookDelivery.leased world.clock)
          else world.deliveries id } := by
  refine ⟨?_, tracked.known, tracked.fresh, ?_, tracked.reads, tracked.alone, tracked.rested⟩
  · intro id row found
    dsimp only at found
    split at found
    · obtain ⟨before, was, rfl⟩ := Option.map_eq_some_iff.mp found
      exact tracked.ids id before was
    · exact tracked.ids id row found
  · intro id row found
    dsimp only at found
    split at found
    · rename_i taken
      obtain ⟨due, member, same⟩ := List.mem_map.mp taken
      obtain ⟨⟨other, there⟩, _, past⟩ := mem_due member
      have here : other = id := (tracked.ids other due there).1.symm.trans same
      rw [here] at there
      obtain ⟨before, was, rfl⟩ := Option.map_eq_some_iff.mp found
      cases Option.some_inj.mp (was.symm.trans there)
      have kept := tracked.rows id due was
      refine ⟨kept.bounded, kept.counted, fun owed => (kept.due owed).later ?_⟩
      have lease : (0 : ℤ) ≤ DELIVERY_LEASE_MS := by decide
      simp only [PmWebhookDelivery.leased]
      omega
    · exact tracked.rows id row found

theorem mem_taken (member : attempt ∈ world.taken locked) :
    attempt.now = world.clock ∧ attempt.stage = .waiting ∧
      ∃ row ∈ world.due locked, attempt.read.delivery = row.leased world.clock := by
  rw [World.taken, List.mem_mapIdx] at member
  obtain ⟨k, bound, same⟩ := member
  rw [← same]
  refine ⟨rfl, rfl, ?_⟩
  have listed := List.getElem_mem bound
  obtain ⟨row, claimed, read⟩ := List.mem_filterMap.mp listed
  rw [World.claimed, (List.mergeSort_perm _ _).mem_iff, List.mem_map] at claimed
  obtain ⟨before, due, leased⟩ := claimed
  refine ⟨before, due, ?_⟩
  obtain ⟨hook, _, both⟩ := Option.map_eq_some_iff.mp read
  dsimp only
  rw [← both]
  exact leased.symm

theorem Tracked.taken_nodup (tracked : Tracked world) (locked : List DeliveryId) :
    ((world.taken locked).map fun attempt => attempt.read.delivery.id).Nodup := by
  have claimed : ((world.claimed locked).map PmWebhookDelivery.id).Nodup := by
    rw [World.claimed, ((List.mergeSort_perm _ _).map _).nodup_iff, List.map_map]
    exact tracked.due_nodup locked
  have reads : (((world.claimed locked).filterMap fun row =>
      (world.webhooks row.webhookId).map (DeliveryWithWebhook.mk row)).map
        fun read => read.delivery.id).Nodup := by
    have same : ((world.claimed locked).filterMap fun row =>
        (world.webhooks row.webhookId).map (DeliveryWithWebhook.mk row)).map
          (fun read => read.delivery.id) =
        ((world.claimed locked).filter fun row => (world.webhooks row.webhookId).isSome).map
          PmWebhookDelivery.id := by
      rw [List.map_filterMap, ← List.filterMap_eq_filter, List.map_filterMap]
      apply List.filterMap_congr
      intro row _
      cases found : world.webhooks row.webhookId with
      | none | some => simp [Option.guard, found]
    rw [same]
    exact claimed.sublist (List.filter_sublist.map _)
  have same : (world.taken locked).map (fun attempt => attempt.read.delivery.id) =
      ((world.claimed locked).filterMap fun row =>
        (world.webhooks row.webhookId).map (DeliveryWithWebhook.mk row)).map
          fun read => read.delivery.id := by
    rw [World.taken]
    apply List.ext_getElem?
    intro k
    simp only [List.getElem?_map, List.getElem?_mapIdx, Option.map_map]
    rfl
  rw [same]
  exact reads

theorem Tracked.claim (tracked : Tracked world) (unclaimed : ∀ row ∈ world.due locked, ∀ attempt ∈ world.attempts,
      attempt.stage.holds = true → attempt.read.delivery.id ≠ row.id) :
    Tracked (world.claim locked) := by
  have joined := @Tracked.join _ (tracked.lease locked) (world.taken locked) ?_ ?_ ?_
    (tracked.taken_nodup locked)
  · exact ⟨joined.ids, joined.known, joined.fresh, joined.rows, joined.reads, joined.alone, joined.rested⟩
  · intro attempt member
    obtain ⟨now, _, row, due, read⟩ := mem_taken member
    obtain ⟨⟨id, there⟩, _, _⟩ := mem_due due
    obtain ⟨same, known⟩ := tracked.ids id row there
    rw [read, now]
    exact ⟨same ▸ known, le_refl _⟩
  · intro attempt member
    obtain ⟨now, _, row, due, read⟩ := mem_taken member
    obtain ⟨⟨id, there⟩, owed, past⟩ := mem_due due
    have same := (tracked.ids id row there).1
    have kept := tracked.rows id row there
    rw [← same] at kept
    have leased_id : (row.leased world.clock).id = row.id := rfl
    have leased_attempts : (row.leased world.clock).attempts = row.attempts := rfl
    rw [read, leased_id]
    refine ⟨?_, ?_, ?_⟩
    · rw [read, leased_attempts]
      exact (kept.counted owed).1
    · rw [read, leased_attempts]
      exact (kept.counted owed).2
    · rw [now]
      exact (kept.due owed).later past
  · intro attempt member other there holds
    obtain ⟨_, _, row, due, read⟩ := mem_taken member
    rw [read]
    exact unclaimed row due other there holds

theorem Tracked.sendTest (tracked : Tracked world) (webhookId : WebhookId) :
    Tracked (world.sendTest webhookId) := by
  unfold World.sendTest
  split
  · exact tracked
  rename_i hook _
  have created := tracked.create webhookId (world.clock + DELIVERY_LEASE_MS)
  have joined := @Tracked.join _ created [⟨none, ⟨.fresh world.deliveriesDrawn webhookId world.clock
    (world.clock + DELIVERY_LEASE_MS), hook⟩, world.clock, .waiting⟩] ?_ ?_ ?_
    (List.nodup_singleton _)
  · have last : (world.attempts ++ [(⟨none, ⟨.fresh world.deliveriesDrawn webhookId world.clock
        (world.clock + DELIVERY_LEASE_MS), hook⟩, world.clock, .waiting⟩ : Attempt)])[
          world.attempts.length]? = some ⟨none, ⟨.fresh world.deliveriesDrawn webhookId world.clock
            (world.clock + DELIVERY_LEASE_MS), hook⟩, world.clock, .waiting⟩ := by
      simp
    exact joined.begin_ last rfl
  · intro attempt member
    cases List.mem_singleton.mp member
    exact ⟨Nat.lt_succ_self _, le_refl _⟩
  · intro attempt member
    cases List.mem_singleton.mp member
    have none_yet : failures world.deliveriesDrawn world.log = [] := tracked.fresh _ (le_refl _)
    refine ⟨?_, Nat.succ_pos _, ?_⟩
    · exact (congrArg List.length none_yet).symm
    · exact none_yet ▸ due_nil _
  · intro attempt member other there holds
    cases List.mem_singleton.mp member
    obtain ⟨place, found⟩ := List.getElem?_of_mem there
    exact (tracked.known place other found holds).1.ne

theorem rested_other {log : List Entry} {entry : Entry} (rested : Histories.Each Rested log)
    (other : ∀ id instant, entry ≠ .started id instant) : Histories.Each Rested (log ++ [entry]) := by
  apply rested.append
  cases entry with
  | started id instant => exact absurd rfl (other id instant)
  | _ => trivial

theorem Tracked.advance (tracked : Tracked world) {place : ℕ}
    (found : world.attempts[place]? = some attempt) : Tracked (world.advance place attempt) := by
  have unheld {stage : Stage} (unheld : stage.holds = false) {kept : World} (fewer : Fewer world kept) :
      Fewer world (kept.setStage place stage) := by
    apply fewer.setStage
    intro before _ held
    rw [unheld] at held
    cases held
  unfold World.advance
  split
  · exact tracked
  · exact tracked
  iterate 4
    · rename_i stage
      exact tracked.settle found (by rw [stage]; rfl)
  · refine tracked.fewer (unheld rfl (((Fewer.refl world).putWebhook _ _).note fun _ => rfl)) ?_
    apply rested_other tracked.rested
    intro id instant same
    cases same
  · unfold World.disable
    split
    · split
      · refine tracked.fewer (unheld rfl (((Fewer.refl world).putWebhook _ _).note fun _ => rfl)) ?_
        apply rested_other tracked.rested
        intro id instant same
        cases same
      · exact tracked.fewer (unheld rfl (Fewer.refl world)) tracked.rested
    · exact tracked.fewer (unheld rfl (Fewer.refl world)) tracked.rested
  · refine tracked.fewer (unheld rfl ((Fewer.refl world).note fun _ => rfl)) ?_
    apply rested_other tracked.rested
    intro id instant same
    cases same
  · exact tracked.fewer (unheld rfl ((Fewer.refl world).putWebhook _ _)) tracked.rested
  · exact tracked

theorem Tracked.act (tracked : Tracked world) {action : Action} (unclaimed : Unclaimed world action) :
    Tracked (world.act action) := by
  have filtered (keep : PmWebhookDelivery → Bool) : Fewer world { world with
        deliveries := fun id => (world.deliveries id).filter keep } := by
    refine ⟨le_refl _, le_refl _, ?_, fun _ attempt found holds => ⟨attempt, found, holds, rfl, rfl⟩,
      fun _ => rfl⟩
    intro id row found
    exact (Option.filter_eq_some_iff.mp found).1
  cases action with
  | createWebhook =>
    have put := (Fewer.refl world).putWebhook world.webhooksDrawn
      (some ⟨world.webhooksDrawn, true, .ACTIVE, 0⟩)
    exact tracked.fewer ⟨put.clock, put.drawn, put.rows, put.attempts, put.failed⟩ tracked.rested
  | enableWebhook webhook enabled =>
    exact tracked.fewer ((Fewer.refl world).putWebhook _ _) tracked.rested
  | deleteWebhook webhook =>
    have gone := filtered fun row => row.webhookId != webhook
    exact tracked.fewer ⟨gone.clock, gone.drawn, gone.rows, gone.attempts, gone.failed⟩ tracked.rested
  | enqueue webhook =>
    rw [World.act, World.enqueue]
    split
    · exact tracked.create _ _
    · exact tracked
  | sendTest webhook => exact tracked.sendTest webhook
  | claim locked => exact tracked.claim unclaimed
  | begin_ place =>
    rw [World.act, World.beginAt]
    split
    · rename_i attempt found
      split
      · rename_i waits _
        split
        · exact tracked.begin_ found (by rw [waits]; rfl)
        · exact tracked
      · exact tracked
    · exact tracked
  | dial place outcome =>
    rw [World.act, World.dialAt]
    split
    · rename_i attempt found
      split
      · rename_i dialing
        refine tracked.fewer ((Fewer.refl world).setStage place ?_) tracked.rested
        intro before was _
        cases Option.some_inj.mp (was.symm.trans found)
        rw [dialing]
        rfl
      · exact tracked
    · exact tracked
  | advance place =>
    rw [World.act, World.advanceAt]
    split
    · rename_i attempt found
      exact tracked.advance found
    · exact tracked
  | lose place =>
    refine tracked.fewer ((Fewer.refl world).setStage place ?_) tracked.rested
    intro before _ held
    cases held
  | crash sweep =>
    refine tracked.fewer ⟨le_refl _, le_refl _, fun _ _ found => found, ?_, fun _ => rfl⟩ tracked.rested
    intro place attempt found holds
    rw [World.act, World.crash, List.getElem?_map, Option.map_eq_some_iff] at found
    obtain ⟨before, was, same⟩ := found
    split at same
    · rw [← same] at holds
      cases holds
    · cases same
      exact ⟨attempt, was, holds, rfl, rfl⟩
  | prune => exact tracked.fewer (filtered _) tracked.rested

theorem emptyWorld_tracked (clock : ℤ) : Tracked (emptyWorld clock) where
  ids := by simp [emptyWorld]
  known := by simp [emptyWorld]
  fresh := by simp [emptyWorld, failures]
  rows := by simp [emptyWorld]
  reads := by simp [emptyWorld]
  alone := by simp [emptyWorld]
  rested := Histories.each_nil

end Droplet.Webhooks
