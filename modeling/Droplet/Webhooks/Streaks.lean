import Droplet.Lib.Stepping
import Droplet.Webhooks.Rows

/-! When a webhook is turned off and who is told, and the ladder over whole runs. -/

namespace Droplet.Webhooks

def Entry.streak (id : WebhookId) (streak : ℕ) : Entry → ℕ
  | .counted hook => if hook = id then streak + 1 else streak
  | .delivered hook => if hook = id then 0 else streak
  | _ => streak

/-- The failures of a webhook since the last success of one of its deliveries. -/
def streak (id : WebhookId) (log : List Entry) : ℕ := log.foldl (Entry.streak id) 0

/-- What turning a webhook off may be written after. -/
def Grounded (earlier : List Entry) : Entry → Prop
  | .turnedOff hook _ => DISABLE_AFTER_FAILURES ≤ streak hook earlier
  | _ => True

/-- A success of the webhook is recorded and its failures are not yet reset. -/
def World.Forgiving (world : World) (id : WebhookId) : Prop :=
  ∃ (place : ℕ) (attempt : Attempt), world.attempts[place]? = some attempt ∧
    attempt.stage = .forgiving ∧ attempt.read.webhook.id = id

structure Streaked (world : World) : Prop where
  counts : ∀ id hook, world.webhooks id = some hook → ¬ world.Forgiving id →
    hook.consecutiveFailures ≤ streak id world.log
  grounded : Histories.Each Grounded world.log

/-- The attempt turned the webhook off and has yet to tell. -/
def World.owes (world : World) (hook : WebhookId) (place : ℕ) : ℕ :=
  match world.attempts[place]? with
  | some attempt => if attempt.stage = .notifying ∧ attempt.read.webhook.id = hook then 1 else 0
  | none => 0

def Noticed (world : World) : Prop :=
  ∀ hook place, world.log.count (.turnedOff hook place) =
    world.log.count (.notified hook place) + world.owes hook place

/-- While a success of a webhook is recorded and its failures are not reset, none of its failures is
counted or acted on, and the attempt that has to reset them, or to tell, is not lost. -/
def Heeded (world : World) : Action → Prop
  | .advance place => ∀ attempt, world.attempts[place]? = some attempt →
      attempt.stage = .counting ∨ attempt.stage = .disabling →
        ¬ world.Forgiving attempt.read.webhook.id
  | .lose place => ∀ attempt, world.attempts[place]? = some attempt →
      attempt.stage ≠ .notifying ∧ attempt.stage ≠ .forgiving
  | .crash sweep => ∀ attempt ∈ world.attempts, attempt.sweep.map Prod.fst = some sweep →
      attempt.stage ≠ .notifying ∧ attempt.stage ≠ .forgiving
  | _ => True

variable {world next : World}

theorem streak_append (id : WebhookId) (log : List Entry) (entry : Entry) :
    streak id (log ++ [entry]) = entry.streak id (streak id log) := by
  rw [streak, List.foldl_append]
  rfl

structure Steady (world next : World) : Prop where
  hooks : ∀ id hook', next.webhooks id = some hook' → hook'.consecutiveFailures = 0 ∨
    (∃ hook, world.webhooks id = some hook ∧
      hook'.consecutiveFailures = hook.consecutiveFailures) ∧
    (world.Forgiving id → next.Forgiving id)
  log : next.log = world.log ∨ ∃ entry, next.log = world.log ++ [entry] ∧
    (∀ id streak, entry.streak id streak = streak) ∧ ∀ hook place, entry ≠ .turnedOff hook place

structure Untold (world next : World) : Prop where
  owes : ∀ hook place, next.owes hook place = world.owes hook place
  log : next.log = world.log ∨ ∃ entry, next.log = world.log ++ [entry] ∧
    (∀ hook place, entry ≠ .turnedOff hook place) ∧ ∀ hook place, entry ≠ .notified hook place

theorem Grounded.other {earlier : List Entry} {entry : Entry}
    (not_off : ∀ hook place, entry ≠ .turnedOff hook place) : Grounded earlier entry := by
  cases entry with
  | turnedOff hook place => exact absurd rfl (not_off hook place)
  | _ => trivial

theorem Streaked.steady (streaked : Streaked world) (steady : Steady world next) : Streaked next := by
  have same (id : WebhookId) : streak id next.log = streak id world.log := by
    rcases steady.log with log | ⟨entry, log, quiet, _⟩
    · rw [log]
    · rw [log, streak_append, quiet]
  refine ⟨?_, ?_⟩
  · intro id hook' found calm_now
    rw [same]
    rcases steady.hooks id hook' found with zero | ⟨⟨hook, was, equal⟩, stays⟩
    · rw [zero]
      exact Nat.zero_le _
    · rw [equal]
      exact streaked.counts id hook was fun forgiving => calm_now (stays forgiving)
  · rcases steady.log with log | ⟨entry, log, _, not_off⟩
    · rw [log]
      exact streaked.grounded
    · rw [log]
      exact streaked.grounded.append (.other not_off)

theorem Noticed.untold (noticed : Noticed world) (untold : Untold world next) : Noticed next := by
  intro hook place
  rw [untold.owes]
  rcases untold.log with log | ⟨entry, log, not_off, not_told⟩
  · rw [log]
    exact noticed hook place
  · rw [log, List.count_append, List.count_append, List.count_singleton, List.count_singleton,
      if_neg (by simpa using not_off hook place), if_neg (by simpa using not_told hook place)]
    exact noticed hook place

variable {stage : Stage} {place : ℕ} {attempt : Attempt}

section

variable (found : world.attempts[place]? = some attempt)
include found

theorem forgiving_setStage (stays : attempt.stage = .forgiving → stage = .forgiving) (id : WebhookId)
    (forgiving : world.Forgiving id) : (world.setStage place stage).Forgiving id := by
  obtain ⟨other, before, was, forgives, hook⟩ := forgiving
  by_cases here : place = other
  · subst here
    cases Option.some_inj.mp (was.symm.trans found)
    refine ⟨place, { attempt with stage := stage }, ?_, stays forgives, hook⟩
    simp [World.setStage, was]
  · refine ⟨other, before, ?_, forgives, hook⟩
    simp [World.setStage, was, here]

theorem owes_setStage (hook : WebhookId) (other : ℕ) :
    (world.setStage place stage).owes hook other =
      if other = place then
        if stage = .notifying ∧ attempt.read.webhook.id = hook then 1 else 0
      else world.owes hook other := by
  unfold World.owes World.setStage
  rw [List.getElem?_modify]
  by_cases here : place = other
  · subst here
    simp [found]
  · simp only [here, if_false, Ne.symm here]
    cases world.attempts[other]? <;> rfl

theorem owes_setStage_same (was : attempt.stage ≠ .notifying)
    (is_ : stage ≠ .notifying) (hook : WebhookId) (other : ℕ) :
    (world.setStage place stage).owes hook other = world.owes hook other := by
  rw [owes_setStage found]
  split
  · rename_i here
    rw [here, World.owes, found]
    simp [was, is_]
  · rfl

end

variable {more : List Attempt}

theorem owes_append (waits : ∀ attempt ∈ more, attempt.stage ≠ .notifying) (hook : WebhookId)
    (place : ℕ) : ({ world with attempts := world.attempts ++ more } : World).owes hook place =
      world.owes hook place := by
  unfold World.owes
  dsimp only
  by_cases known : place < world.attempts.length
  · rw [List.getElem?_append_left known]
  · rw [List.getElem?_append_right (Nat.not_lt.mp known), List.getElem?_eq_none (Nat.not_lt.mp known)]
    split
    · rename_i attempt found
      rw [if_neg]
      intro both
      exact waits attempt (List.mem_of_getElem? found) both.1
    · rfl

theorem forgiving_append (id : WebhookId) (forgiving : world.Forgiving id) :
    ({ world with attempts := world.attempts ++ more } : World).Forgiving id := by
  obtain ⟨place, attempt, found, forgives⟩ := forgiving
  exact ⟨place, attempt,
    (List.getElem?_append_left (List.getElem?_eq_some_iff.mp found).1).trans found, forgives⟩

structure Calm (world next : World) : Prop where
  hooks : ∀ id hook', next.webhooks id = some hook' → hook'.consecutiveFailures = 0 ∨
    ∃ hook, world.webhooks id = some hook ∧ hook'.consecutiveFailures = hook.consecutiveFailures
  forgiving : ∀ id, world.Forgiving id → next.Forgiving id
  owes : ∀ hook place, next.owes hook place = world.owes hook place
  log : next.log = world.log ∨ ∃ entry, next.log = world.log ++ [entry] ∧
    (∀ id streak, entry.streak id streak = streak) ∧
    (∀ hook place, entry ≠ .turnedOff hook place) ∧ ∀ hook place, entry ≠ .notified hook place

theorem Calm.steady (calm : Calm world next) : Steady world next where
  hooks id hook' found := (calm.hooks id hook' found).imp_right fun was => ⟨was, calm.forgiving id⟩
  log := calm.log.imp_right fun ⟨entry, log, quiet, not_off, _⟩ => ⟨entry, log, quiet, not_off⟩

theorem Calm.untold (calm : Calm world next) : Untold world next where
  owes := calm.owes
  log := calm.log.imp_right fun ⟨entry, log, _, not_off, not_told⟩ => ⟨entry, log, not_off, not_told⟩

theorem Calm.refl (world : World) : Calm world world :=
  ⟨fun _ hook found => Or.inr ⟨hook, found, rfl⟩, fun _ forgiving => forgiving, fun _ _ => rfl,
    Or.inl rfl⟩

theorem Calm.same (webhooks : next.webhooks = world.webhooks) (attempts : next.attempts = world.attempts)
    (log : next.log = world.log) : Calm world next where
  hooks id hook found := Or.inr ⟨hook, by rw [← webhooks]; exact found, rfl⟩
  forgiving id forgiving := by
    rw [World.Forgiving, attempts]
    exact forgiving
  owes hook place := by rw [World.owes, World.owes, attempts]
  log := Or.inl log

theorem Calm.setStage (found : world.attempts[place]? = some attempt) (not_telling : attempt.stage ≠ .notifying)
    (not_told : stage ≠ .notifying) (stays : attempt.stage = .forgiving → stage = .forgiving) :
    Calm world (world.setStage place stage) where
  hooks _ hook found := Or.inr ⟨hook, found, rfl⟩
  forgiving := forgiving_setStage found stays
  owes := owes_setStage_same found not_telling not_told
  log := Or.inl rfl

theorem Calm.begin_ (found : world.attempts[place]? = some attempt)
    (waits : attempt.stage = .waiting) : Calm world (world.begin_ place attempt) where
  hooks _ hook found := Or.inr ⟨hook, found, rfl⟩
  forgiving := by
    intro id forgiving
    obtain ⟨other, before, was, forgives, hook⟩ := forgiving
    have differs : place ≠ other := by
      intro here
      subst here
      cases Option.some_inj.mp (was.symm.trans found)
      rw [waits] at forgives
      cases forgives
    refine ⟨other, before, ?_, forgives, hook⟩
    simp [World.begin_, was, differs]
  owes := by
    intro hook other
    unfold World.owes World.begin_
    dsimp only
    rw [List.getElem?_set]
    by_cases here : place = other
    · subst here
      rw [if_pos rfl, if_pos (List.getElem?_eq_some_iff.mp found).1, found]
      have begun : (attempt.begin_ world.clock).stage ≠ .notifying := by
        unfold Attempt.begin_
        dsimp only
        split
        · exact fun same => by cases same
        · split
          · exact fun same => by cases same
          · exact fun same => by cases same
      simp [begun, waits]
    · rw [if_neg here]
  log := by
    refine Or.inr ⟨_, rfl, fun _ _ => rfl, ?_, ?_⟩
    all_goals
      intro hook other same
      cases same

theorem Calm.deliveries (deliveries : DeliveryId → Option PmWebhookDelivery) (drawn sweeps : ℕ)
    (calm : Calm world next) :
    Calm world
      { next with
        deliveries := deliveries
        deliveriesDrawn := drawn
        sweeps := sweeps } :=
  ⟨calm.hooks, calm.forgiving, calm.owes, calm.log⟩

theorem Calm.join (waits : ∀ attempt ∈ more, attempt.stage ≠ .notifying) :
    Calm world { world with attempts := world.attempts ++ more } where
  hooks _ hook found := Or.inr ⟨hook, found, rfl⟩
  forgiving := forgiving_append
  owes := owes_append waits
  log := Or.inl rfl

theorem Calm.trans {last : World} (first : Calm world next) (second : Calm next last)
    (log : next.log = world.log) : Calm world last where
  hooks := by
    intro id hook'' found
    rcases second.hooks id hook'' found with zero | ⟨hook', was, same⟩
    · exact Or.inl zero
    · rcases first.hooks id hook' was with zero | ⟨hook, before, equal⟩
      · exact Or.inl (same.trans zero)
      · exact Or.inr ⟨hook, before, same.trans equal⟩
  forgiving id forgiving := second.forgiving id (first.forgiving id forgiving)
  owes hook place := (second.owes hook place).trans (first.owes hook place)
  log := by
    rw [← log]
    exact second.log

variable {place : ℕ} {attempt : Attempt}

theorem Attempt.settled_ne (attempt : Attempt) : attempt.settled ≠ .notifying := by
  unfold Attempt.settled
  split
  · split <;> exact fun same => by cases same
  · split <;> exact fun same => by cases same
  · exact fun same => by cases same

theorem settle_untold (found : world.attempts[place]? = some attempt)
    (holds : attempt.stage.holds = true) : Untold world (world.settle place attempt) := by
  have not_telling : attempt.stage ≠ .notifying := by
    intro telling
    rw [telling] at holds
    cases holds
  have owes (other : WebhookId) (at_ : ℕ) :
      (world.setStage place attempt.settled).owes other at_ = world.owes other at_ :=
    owes_setStage_same found not_telling attempt.settled_ne other at_
  unfold World.settle
  split
  swap
  · exact ⟨owes, Or.inl rfl⟩
  split
  swap
  · exact ⟨owes, Or.inl rfl⟩
  refine ⟨owes, ?_⟩
  rw [World.setStage, World.note]
  dsimp only [World.putDelivery]
  unfold Attempt.record
  split
  · refine Or.inr ⟨_, rfl, ?_, ?_⟩
    all_goals exact fun _ _ same => by cases same
  · split
    · exact Or.inl (List.append_nil _)
    · refine Or.inr ⟨_, rfl, ?_, ?_⟩
      all_goals exact fun _ _ same => by cases same
  · exact Or.inl (List.append_nil _)

theorem Streaked.settle (streaked : Streaked world) (found : world.attempts[place]? = some attempt)
    (holds : attempt.stage.holds = true) : Streaked (world.settle place attempt) := by
  have not_forgiving : attempt.stage ≠ .forgiving := by
    intro forgives
    rw [forgives] at holds
    cases holds
  have stays (id : WebhookId) (forgiving : world.Forgiving id) :
      (world.setStage place attempt.settled).Forgiving id :=
    forgiving_setStage found (fun forgives => absurd forgives not_forgiving) id forgiving
  have steady : Steady world (world.setStage place attempt.settled) :=
    ⟨fun id hook there => Or.inr ⟨⟨hook, there, rfl⟩, stays id⟩, Or.inl rfl⟩
  unfold World.settle
  split
  swap
  · exact streaked.steady steady
  split
  swap
  · exact streaked.steady steady
  rename_i row _ _
  have written (log : (world.log ++ attempt.record world.clock = world.log ∨
      ∃ entry : Entry, world.log ++ attempt.record world.clock = world.log ++ [entry] ∧
        (∀ id streak, entry.streak id streak = streak) ∧
          ∀ hook place, entry ≠ .turnedOff hook place)) :
      Streaked (((world.putDelivery row.id (some (attempt.data row))).note
        (attempt.record world.clock)).setStage place attempt.settled) :=
    streaked.steady ⟨fun id hook there => Or.inr ⟨⟨hook, there, rfl⟩, stays id⟩, log⟩
  cases stage : attempt.stage with
  | failing error code =>
    apply written
    rw [Attempt.record, stage]
    refine Or.inr ⟨_, rfl, fun _ _ => rfl, ?_⟩
    exact fun _ _ same => by cases same
  | delivering code =>
    by_cases test : attempt.test = true
    · apply written
      rw [Attempt.record, stage]
      dsimp only
      rw [if_pos test]
      exact Or.inl (List.append_nil _)
    · have forgives : attempt.settled = .forgiving := by
        rw [Attempt.settled, stage]
        dsimp only
        rw [if_neg test]
      have recorded : attempt.record world.clock = [.delivered attempt.read.webhook.id] := by
        rw [Attempt.record, stage]
        dsimp only
        rw [if_neg test]
      refine ⟨?_, ?_⟩
      · intro id hook there calm
        by_cases own : attempt.read.webhook.id = id
        · refine absurd ⟨place, { attempt with stage := attempt.settled }, ?_, forgives, own⟩ calm
          simp [World.setStage, World.note, World.putDelivery, found]
        · have unreset : streak id (world.log ++ attempt.record world.clock) = streak id world.log := by
            rw [recorded, streak_append, Entry.streak, if_neg own]
          have bound := streaked.counts id hook there fun forgiving => calm (stays id forgiving)
          rw [← unreset] at bound
          exact bound
      · rw [World.setStage, World.note, recorded]
        exact streaked.grounded.append trivial
  | _ =>
    apply written
    rw [Attempt.record, stage]
    exact Or.inl (List.append_nil _)

theorem Streaked.count (streaked : Streaked world) (found : world.attempts[place]? = some attempt)
    (counting : attempt.stage = .counting) (calm : ¬ world.Forgiving attempt.read.webhook.id) :
    Streaked (world.count place attempt.read.webhook.id) := by
  refine ⟨?_, streaked.grounded.append trivial⟩
  intro id hook' there calm_now
  simp only [World.count, World.setStage, World.note, World.putWebhook] at there ⊢
  rw [streak_append]
  by_cases own : id = attempt.read.webhook.id
  · subst own
    rw [Function.update_self] at there
    obtain ⟨hook, was, rfl⟩ := Option.map_eq_some_iff.mp there
    rw [Entry.streak, if_pos rfl]
    exact Nat.succ_le_succ (streaked.counts _ hook was calm)
  · rw [Function.update_of_ne own] at there
    rw [Entry.streak, if_neg (Ne.symm own)]
    apply streaked.counts id hook' there
    intro forgiving
    refine calm_now (forgiving_setStage found ?_ id forgiving)
    intro forgives
    rw [counting] at forgives
    cases forgives

theorem Streaked.disable (streaked : Streaked world) (found : world.attempts[place]? = some attempt)
    (disabling : attempt.stage = .disabling) (calm : ¬ world.Forgiving attempt.read.webhook.id) :
    Streaked (world.disable place attempt.read.webhook.id) := by
  have stays (stage : Stage) (id : WebhookId) (forgiving : world.Forgiving id) :
      (world.setStage place stage).Forgiving id := by
    apply forgiving_setStage found _ id forgiving
    intro forgives
    rw [disabling] at forgives
    cases forgives
  have over_ : Steady world (world.setStage place .over) :=
    ⟨fun id hook there => Or.inr ⟨⟨hook, there, rfl⟩, stays .over id⟩, Or.inl rfl⟩
  unfold World.disable
  split
  swap
  · exact streaked.steady over_
  rename_i hook there
  split
  swap
  · exact streaked.steady over_
  rename_i fails
  rw [PmWebhook.failing, Bool.and_eq_true, decide_eq_true_eq] at fails
  refine ⟨?_, streaked.grounded.append (fails.2.trans (streaked.counts _ hook there calm))⟩
  intro id hook' written calm_now
  simp only [World.setStage, World.note, World.putWebhook] at written ⊢
  rw [streak_append]
  by_cases own : id = attempt.read.webhook.id
  · subst own
    rw [Function.update_self] at written
    cases written
    exact streaked.counts _ hook there calm
  · rw [Function.update_of_ne own] at written
    exact streaked.counts id hook' written fun forgiving => calm_now (stays .notifying id forgiving)

theorem Noticed.disable (noticed : Noticed world) (found : world.attempts[place]? = some attempt)
    (disabling : attempt.stage = .disabling) : Noticed (world.disable place attempt.read.webhook.id) := by
  have not_telling : attempt.stage ≠ .notifying := by
    rw [disabling]
    exact fun same => by cases same
  have over_ : Untold world (world.setStage place .over) :=
    ⟨owes_setStage_same found not_telling (fun same => by cases same), Or.inl rfl⟩
  unfold World.disable
  split
  swap
  · exact noticed.untold over_
  split
  swap
  · exact noticed.untold over_
  rename_i hook _ _
  intro id other
  have owes : (((world.putWebhook attempt.read.webhook.id (some hook.disabled)).note
      [.turnedOff attempt.read.webhook.id place]).setStage place .notifying).owes id other =
        (world.setStage place .notifying).owes id other := rfl
  rw [owes, owes_setStage found]
  have before := noticed id other
  simp only [World.setStage, World.note, World.putWebhook, List.count_append, List.count_singleton]
  by_cases here : other = place
  · rw [if_pos here]
    have silent : world.owes id other = 0 := by
      rw [here, World.owes, found]
      dsimp only
      rw [if_neg (fun both => not_telling both.1)]
    by_cases own : attempt.read.webhook.id = id
    all_goals
      simp [own, here] at before silent ⊢
      omega
  · rw [if_neg here]
    simp [Ne.symm here]
    omega

theorem Noticed.notify (noticed : Noticed world) (found : world.attempts[place]? = some attempt)
    (notifying : attempt.stage = .notifying) : Noticed (world.notify place attempt.read.webhook.id) := by
  intro id other
  have owes : (world.notify place attempt.read.webhook.id).owes id other =
      (world.setStage place .over).owes id other := rfl
  rw [owes, owes_setStage found]
  have before := noticed id other
  simp only [World.notify, World.setStage, World.note, List.count_append, List.count_singleton]
  by_cases here : other = place
  · rw [if_pos here]
    have owed : world.owes id other = if attempt.read.webhook.id = id then 1 else 0 := by
      rw [here, World.owes, found]
      simp [notifying]
    by_cases own : attempt.read.webhook.id = id
    all_goals
      simp [own, here] at before owed ⊢
      omega
  · rw [if_neg here]
    simp [Ne.symm here]
    omega

end Droplet.Webhooks
