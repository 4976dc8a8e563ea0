import Droplet.Webhooks.Ladder

/-! What a step may do to a delivery's row: its attempts never go back, and a row that is settled stays
settled. -/

namespace Droplet.Webhooks

structure PmWebhookDelivery.Onward (row row' : PmWebhookDelivery) : Prop where
  attempts : row.attempts ≤ row'.attempts
  final : row.owed = false → row'.status = row.status

theorem PmWebhookDelivery.Onward.refl (row : PmWebhookDelivery) : row.Onward row :=
  ⟨le_refl _, fun _ => rfl⟩

theorem PmWebhookDelivery.owed_of_status {row row' : PmWebhookDelivery}
    (same : row'.status = row.status) : row'.owed = row.owed := by
  rw [owed, owed, same]

theorem PmWebhookDelivery.Onward.trans {a b c : PmWebhookDelivery} (first : a.Onward b)
    (second : b.Onward c) : a.Onward c where
  attempts := first.attempts.trans second.attempts
  final := by
    intro settled
    have same := first.final settled
    exact (second.final ((owed_of_status same).trans settled)).trans same

/-- Every row that is there after was there before and went onward, or is new. -/
structure Moved (before after : World) : Prop where
  drawn : before.deliveriesDrawn ≤ after.deliveriesDrawn
  rows : ∀ id row', after.deliveries id = some row' → before.deliveriesDrawn ≤ id ∨
    ∃ row, before.deliveries id = some row ∧ row.Onward row'

variable {world next last : World}

theorem Moved.refl (world : World) : Moved world world :=
  ⟨le_refl _, fun _ row found => Or.inr ⟨row, found, .refl row⟩⟩

theorem Moved.trans (first : Moved world next) (second : Moved next last) : Moved world last where
  drawn := first.drawn.trans second.drawn
  rows := by
    intro id row'' found
    rcases second.rows id row'' found with new | ⟨row', was, second_onward⟩
    · exact Or.inl (first.drawn.trans new)
    · rcases first.rows id row' was with new | ⟨row, before, first_onward⟩
      · exact Or.inl new
      · exact Or.inr ⟨row, before, first_onward.trans second_onward⟩

theorem Moved.fewer (drawn : next.deliveriesDrawn = world.deliveriesDrawn)
    (rows : ∀ id row, next.deliveries id = some row → world.deliveries id = some row) : Moved world next :=
  ⟨drawn.ge, fun id row found => Or.inr ⟨row, rows id row found, .refl row⟩⟩

theorem Moved.same (drawn : next.deliveriesDrawn = world.deliveriesDrawn)
    (deliveries : next.deliveries = world.deliveries) : Moved world next :=
  .fewer drawn fun id row found => by rw [← deliveries]; exact found

theorem moved_create (webhookId : WebhookId) (nextAttemptAt : ℤ) :
    Moved world (world.create webhookId nextAttemptAt) where
  drawn := Nat.le_succ _
  rows := by
    intro id row found
    simp only [World.create, World.putDelivery] at found
    by_cases new : id = world.deliveriesDrawn
    · exact Or.inl new.ge
    · rw [Function.update_of_ne new] at found
      exact Or.inr ⟨row, found, .refl row⟩

theorem Attempt.data_onward {attempt : Attempt} {row : PmWebhookDelivery} (owed : row.owed = true)
    (counted : row.attempts = attempt.read.delivery.attempts) : row.Onward (attempt.data row) where
  attempts := by
    unfold Attempt.data
    split
    · exact le_refl _
    · split <;> exact le_refl _
    · exact counted.le.trans (Nat.le_succ _)
    · exact counted.le.trans (Nat.le_succ _)
    · exact le_refl _
  final := by
    intro settled
    rw [owed] at settled
    cases settled

theorem Tracked.settle_moved (tracked : Tracked world) {place : ℕ} {attempt : Attempt}
    (found : world.attempts[place]? = some attempt) (holds : attempt.stage.holds = true) :
    Moved world (world.settle place attempt) := by
  unfold World.settle
  split
  swap
  · exact .same rfl rfl
  rename_i row row_found
  split
  swap
  · exact .same rfl rfl
  rename_i owed
  refine ⟨le_refl _, ?_⟩
  intro id row' there
  simp only [World.setStage, World.note, World.putDelivery] at there
  by_cases same : id = row.id
  · subst same
    rw [Function.update_self] at there
    cases there
    have row_id := (tracked.ids _ row row_found).1
    rw [row_id]
    refine Or.inr ⟨row, row_found, Attempt.data_onward owed ?_⟩
    have counted := (tracked.rows _ row row_found).counted owed
    exact counted.1.trans (tracked.reads place attempt found holds).counted.symm
  · rw [Function.update_of_ne same] at there
    exact Or.inr ⟨row', there, .refl row'⟩

theorem Tracked.advance_moved (tracked : Tracked world) {place : ℕ} {attempt : Attempt}
    (found : world.attempts[place]? = some attempt) : Moved world (world.advance place attempt) := by
  unfold World.advance
  split
  · exact .refl world
  · exact .refl world
  iterate 4
    · rename_i stage
      exact tracked.settle_moved found (by rw [stage]; rfl)
  · exact .same rfl rfl
  · unfold World.disable
    split
    · split
      · exact .same rfl rfl
      · exact .same rfl rfl
    · exact .same rfl rfl
  · exact .same rfl rfl
  · exact .same rfl rfl
  · exact .refl world

theorem Tracked.moved (tracked : Tracked world) (action : Action) : Moved world (world.act action) := by
  have filtered (keep : PmWebhookDelivery → Bool) (id : DeliveryId) (row : PmWebhookDelivery)
      (found : (world.deliveries id).filter keep = some row) : world.deliveries id = some row :=
    (Option.filter_eq_some_iff.mp found).1
  cases action with
  | createWebhook | enableWebhook | lose | crash => exact .same rfl rfl
  | deleteWebhook | prune => exact .fewer rfl (filtered _)
  | enqueue webhook =>
    rw [World.act, World.enqueue]
    split
    · exact moved_create _ _
    · exact .refl world
  | sendTest webhook =>
    rw [World.act, World.sendTest]
    split
    · exact .refl world
    · exact (moved_create _ _).trans (.same rfl rfl)
  | claim locked =>
    refine ⟨le_refl _, ?_⟩
    intro id row' found
    simp only [World.act, World.claim] at found
    split at found
    · obtain ⟨row, was, rfl⟩ := Option.map_eq_some_iff.mp found
      exact Or.inr ⟨row, was, le_refl _, fun _ => rfl⟩
    · exact Or.inr ⟨row', found, .refl row'⟩
  | begin_ place =>
    rw [World.act, World.beginAt]
    split
    · split
      · split
        · exact .same rfl rfl
        · exact .refl world
      · exact .refl world
    · exact .refl world
  | dial place outcome =>
    rw [World.act, World.dialAt]
    split
    · split
      · exact .same rfl rfl
      · exact .refl world
    · exact .refl world
  | advance place =>
    rw [World.act, World.advanceAt]
    split
    · rename_i attempt found
      exact tracked.advance_moved found
    · exact .refl world

end Droplet.Webhooks
