import Droplet.Webhooks.Streaks

/-! The ladder over whole runs, and runs in which slow and lost attempts leave it. -/

namespace Droplet.Webhooks

variable {world next : World} {place : ℕ} {attempt : Attempt}

theorem Streaked.advance (streaked : Streaked world) (found : world.attempts[place]? = some attempt)
    (heeded : attempt.stage = .counting ∨ attempt.stage = .disabling →
      ¬ world.Forgiving attempt.read.webhook.id) : Streaked (world.advance place attempt) := by
  unfold World.advance
  split
  · exact streaked
  · exact streaked
  iterate 4
    · rename_i stage
      exact streaked.settle found (by rw [stage]; rfl)
  · rename_i stage
    exact streaked.count found stage (heeded (Or.inl stage))
  · rename_i stage
    exact streaked.disable found stage (heeded (Or.inr stage))
  · rename_i stage
    have stays (id : WebhookId) (forgiving : world.Forgiving id) :
        (world.setStage place .over).Forgiving id :=
      forgiving_setStage found (fun forgives => by rw [stage] at forgives; cases forgives) id
        forgiving
    refine streaked.steady ⟨fun id hook there => Or.inr ⟨⟨hook, there, rfl⟩, stays id⟩,
      Or.inr ⟨_, rfl, fun _ _ => rfl, ?_⟩⟩
    exact fun _ _ same => by cases same
  · refine streaked.steady ⟨?_, Or.inl rfl⟩
    intro id hook' there
    simp only [World.forgive, World.setStage, World.putWebhook] at there
    by_cases own : id = attempt.read.webhook.id
    · subst own
      rw [Function.update_self] at there
      obtain ⟨hook, _, rfl⟩ := Option.map_eq_some_iff.mp there
      exact Or.inl rfl
    · rw [Function.update_of_ne own] at there
      refine Or.inr ⟨⟨hook', there, rfl⟩, ?_⟩
      intro forgiving
      obtain ⟨other, before, was, forgives, hook⟩ := forgiving
      have differs : place ≠ other := by
        intro here
        subst here
        cases Option.some_inj.mp (was.symm.trans found)
        exact own hook.symm
      refine ⟨other, before, ?_, forgives, hook⟩
      simp [World.forgive, World.setStage, World.putWebhook, was, differs]
  · exact streaked

theorem Noticed.advance (noticed : Noticed world) (found : world.attempts[place]? = some attempt) :
    Noticed (world.advance place attempt) := by
  unfold World.advance
  split
  · exact noticed
  · exact noticed
  iterate 4
    · rename_i stage
      exact noticed.untold (settle_untold found (by rw [stage]; rfl))
  · rename_i stage
    refine noticed.untold ⟨?_, Or.inr ⟨_, rfl, ?_, ?_⟩⟩
    · exact owes_setStage_same found (fun same => by rw [stage] at same; cases same)
        (fun same => by cases same)
    all_goals exact fun _ _ same => by cases same
  · rename_i stage
    exact noticed.disable found stage
  · rename_i stage
    exact noticed.notify found stage
  · rename_i stage
    refine noticed.untold ⟨?_, Or.inl rfl⟩
    exact owes_setStage_same found (fun same => by rw [stage] at same; cases same) (fun same => by cases same)
  · exact noticed

variable {action : Action}

theorem Calm.putWebhook {webhook : WebhookId} {row : Option PmWebhook} (drawn : ℕ)
    (calm : ∀ hook', row = some hook' → hook'.consecutiveFailures = 0 ∨
      ∃ hook, world.webhooks webhook = some hook ∧ hook'.consecutiveFailures = hook.consecutiveFailures) :
    Calm world { world.putWebhook webhook row with webhooksDrawn := drawn } := by
  refine ⟨?_, fun _ forgiving => forgiving, fun _ _ => rfl, Or.inl rfl⟩
  intro id hook' there
  simp only [World.putWebhook] at there
  by_cases own : id = webhook
  · subst own
    rw [Function.update_self] at there
    exact calm hook' there
  · rw [Function.update_of_ne own] at there
    exact Or.inr ⟨hook', there, rfl⟩

theorem calm_enableWebhook (webhook : WebhookId) (enabled : Bool) :
    Calm world (world.enableWebhook webhook enabled) := by
  refine .putWebhook world.webhooksDrawn ?_
  intro hook' there
  obtain ⟨hook, was, rfl⟩ := Option.map_eq_some_iff.mp there
  cases enabled
  · exact Or.inr ⟨hook, was, rfl⟩
  · exact Or.inl rfl

theorem calm_sendTest (webhook : WebhookId) : Calm world (world.sendTest webhook) := by
  rw [World.sendTest]
  split
  · exact .refl world
  · rename_i hook _
    have joined : Calm world { world with
          attempts := world.attempts ++ [⟨none, ⟨.fresh world.deliveriesDrawn webhook world.clock
            (world.clock + DELIVERY_LEASE_MS), hook⟩, world.clock, .waiting⟩] } := by
      apply Calm.join
      intro attempt member same
      rw [List.mem_singleton.mp member] at same
      cases same
    refine (Calm.deliveries _ _ world.sweeps joined).trans (Calm.begin_ ?_ rfl) rfl
    exact List.getElem?_concat_length

theorem calm_claim (locked : List DeliveryId) : Calm world (world.claim locked) := by
  have joined : Calm world { world with attempts := world.attempts ++ world.taken locked } := by
    apply Calm.join
    intro attempt member same
    rw [(mem_taken member).2.1] at same
    cases same
  exact Calm.deliveries _ _ _ joined

theorem calm_begin (place : ℕ) : Calm world (world.beginAt place) := by
  rw [World.beginAt]
  split
  · rename_i attempt found
    split
    · rename_i waits _
      split
      · exact .begin_ found waits
      · exact .refl world
    · exact .refl world
  · exact .refl world

theorem calm_dial (place : ℕ) (outcome : Dial) : Calm world (world.dialAt place outcome) := by
  rw [World.dialAt]
  split
  · rename_i attempt found
    split
    · rename_i dialing
      apply Calm.setStage found
      · rw [dialing]
        exact fun same => by cases same
      · unfold Dial.stage
        split
        all_goals first | exact fun same => by cases same | skip
        split
        · exact fun same => by cases same
        · exact fun same => by cases same
      · intro forgives
        rw [dialing] at forgives
        cases forgives
    · exact .refl world
  · exact .refl world

theorem calm_lose (heeded : Heeded world (.lose place)) : Calm world (world.setStage place .over) := by
  cases found : world.attempts[place]? with
  | none =>
    refine .same rfl ?_ rfl
    rw [World.setStage]
    apply List.ext_getElem?
    intro k
    rw [List.getElem?_modify]
    by_cases here : place = k
    · subst here
      rw [found]
      rfl
    · simp [here]
  | some attempt =>
    obtain ⟨not_telling, not_forgiving⟩ := heeded attempt found
    exact .setStage found not_telling (fun same => by cases same)
      fun forgives => absurd forgives not_forgiving

theorem calm_crash {sweep : ℕ} (heeded : Heeded world (.crash sweep)) : Calm world (world.crash sweep) := by
  have kept (place : ℕ) (attempt : Attempt) (was : world.attempts[place]? = some attempt)
      (busy : attempt.stage = .notifying ∨ attempt.stage = .forgiving) :
      (world.crash sweep).attempts[place]? = some attempt := by
    rw [World.crash, List.getElem?_map, was, Option.map_some]
    rw [if_neg]
    intro own
    obtain ⟨not_telling, not_forgiving⟩ := heeded attempt (List.mem_of_getElem? was) own
    rcases busy with telling | forgives
    · exact not_telling telling
    · exact not_forgiving forgives
  refine ⟨fun id hook there => Or.inr ⟨hook, there, rfl⟩, ?_, ?_, Or.inl rfl⟩
  · intro id forgiving
    obtain ⟨place, attempt, was, forgives, hook⟩ := forgiving
    exact ⟨place, attempt, kept place attempt was (Or.inr forgives), forgives, hook⟩
  · intro hook place
    rw [World.owes, World.owes]
    cases was : world.attempts[place]? with
    | none => simp [World.crash, was]
    | some attempt =>
      by_cases telling : attempt.stage = .notifying
      · rw [kept place attempt was (Or.inl telling)]
      · rw [World.crash, List.getElem?_map, was, Option.map_some]
        dsimp only
        rw [if_neg (fun both : attempt.stage = .notifying ∧ _ => telling both.1), if_neg]
        intro both
        split at both
        · cases both.1
        · exact telling both.1

theorem calm_act (heeded : Heeded world action) (other : ∀ place, action ≠ .advance place) :
    Calm world (world.act action) := by
  cases action with
  | createWebhook => exact .putWebhook _ fun _ there => Or.inl (by cases there; rfl)
  | enableWebhook webhook enabled => exact calm_enableWebhook webhook enabled
  | deleteWebhook webhook =>
    exact .deliveries _ _ _ (.putWebhook world.webhooksDrawn fun _ there => (by cases there))
  | enqueue webhook =>
    rw [World.act, World.enqueue]
    split
    · exact .same rfl rfl rfl
    · exact .refl world
  | sendTest webhook => exact calm_sendTest webhook
  | claim locked => exact calm_claim locked
  | begin_ place => exact calm_begin place
  | dial place outcome => exact calm_dial place outcome
  | advance place => exact absurd rfl (other place)
  | lose place => exact calm_lose heeded
  | crash sweep => exact calm_crash heeded
  | prune => exact .same rfl rfl rfl

theorem Streaked.act (streaked : Streaked world) (heeded : Heeded world action) : Streaked (world.act action) := by
  by_cases advances : ∃ place, action = .advance place
  · obtain ⟨place, rfl⟩ := advances
    rw [World.act, World.advanceAt]
    split
    · rename_i attempt found
      exact streaked.advance found (heeded attempt found)
    · exact streaked
  · exact streaked.steady (calm_act heeded fun place same => advances ⟨place, same⟩).steady

theorem Noticed.act (noticed : Noticed world) (heeded : Heeded world action) : Noticed (world.act action) := by
  by_cases advances : ∃ place, action = .advance place
  · obtain ⟨place, rfl⟩ := advances
    rw [World.act, World.advanceAt]
    split
    · rename_i attempt found
      exact noticed.advance found
    · exact noticed
  · exact noticed.untold (calm_act heeded fun place same => advances ⟨place, same⟩).untold

theorem settle_webhooks (place : ℕ) (attempt : Attempt) :
    (world.settle place attempt).webhooks = world.webhooks := by
  unfold World.settle
  split
  · split <;> rfl
  · rfl

variable {hook hook' : PmWebhook}

theorem status_update {webhooks : WebhookId → Option PmWebhook} {own id : WebhookId}
    {change : PmWebhook → PmWebhook} (keeps : ∀ hook, (change hook).status = hook.status)
    (was : webhooks id = some hook)
    (is_ : Function.update webhooks own ((webhooks own).map change) id = some hook') :
    hook'.status = hook.status := by
  by_cases same : id = own
  · subst same
    rw [Function.update_self, was] at is_
    cases is_
    exact keeps hook
  · rw [Function.update_of_ne same, was] at is_
    cases is_
    rfl

theorem disable_turnsOff {id own : WebhookId} (was : world.webhooks id = some hook)
    (is_ : (world.disable place own).webhooks id = some hook') (changed : hook'.status ≠ hook.status) :
    (world.disable place own).log = world.log ++ [.turnedOff id place] := by
  have unwritten (same : (world.disable place own).webhooks id = world.webhooks id) : False := by
    rw [same, was] at is_
    exact changed (congrArg PmWebhook.status (Option.some_inj.mp is_)).symm
  unfold World.disable at unwritten ⊢
  cases found : world.webhooks own with
  | none =>
    rw [found] at unwritten
    exact (unwritten rfl).elim
  | some row =>
    rw [found] at unwritten
    by_cases fails : row.failing = true
    · by_cases here : id = own
      · simp [fails, here, World.setStage, World.note, World.putWebhook]
      · refine (unwritten ?_).elim
        simp [fails, here, World.setStage, World.note, World.putWebhook]
    · refine (unwritten ?_).elim
      simp [fails, World.setStage]

theorem advance_turnsOff {id : WebhookId} (was : world.webhooks id = some hook)
    (is_ : (world.advance place attempt).webhooks id = some hook')
    (active : hook.status ≠ .DISABLED_FAILING) (off : hook'.status = .DISABLED_FAILING) :
    (world.advance place attempt).log = world.log ++ [.turnedOff id place] := by
  have kept (same : hook'.status = hook.status) : False := active (same.symm.trans off)
  have unwritten (same : (world.advance place attempt).webhooks = world.webhooks) : False := by
    rw [same, was] at is_
    exact kept (congrArg PmWebhook.status (Option.some_inj.mp is_)).symm
  unfold World.advance at is_ unwritten ⊢
  cases stage : attempt.stage with
  | counting | forgiving =>
    rw [stage] at is_
    have written : hook'.status = hook.status := by
      refine status_update ?_ was is_
      intro _
      rfl
    exact (kept written).elim
  | disabling =>
    rw [stage] at is_
    exact disable_turnsOff was is_ kept
  | givingUp | blocking | failing | delivering =>
    rw [stage] at unwritten
    exact (unwritten (settle_webhooks place attempt)).elim
  | _ =>
    rw [stage] at unwritten
    exact (unwritten rfl).elim

theorem act_turnsOff (action : Action) {id : WebhookId} (was : world.webhooks id = some hook)
    (is_ : (world.act action).webhooks id = some hook') (active : hook.status ≠ .DISABLED_FAILING)
    (off : hook'.status = .DISABLED_FAILING) :
    ∃ place, (world.act action).log = world.log ++ [.turnedOff id place] := by
  have unwritten (same : (world.act action).webhooks id = world.webhooks id) : False := by
    rw [same, was] at is_
    cases is_
    exact active off
  have put (own : WebhookId) (row : Option PmWebhook)
      (same : (world.act action).webhooks = Function.update world.webhooks own row)
      (not_off : ∀ written, row = some written → id = own → written.status ≠ .DISABLED_FAILING) :
      False := by
    by_cases here : id = own
    · rw [same, here, Function.update_self] at is_
      exact not_off hook' is_ here off
    · exact unwritten (by rw [same, Function.update_of_ne here])
  cases action with
  | createWebhook =>
    refine (put _ _ rfl ?_).elim
    intro written same _ is_off
    cases same
    cases is_off
  | enableWebhook webhook enabled =>
    refine (put _ _ rfl ?_).elim
    intro written same here is_off
    rw [← here, was] at same
    cases same
    cases enabled <;> cases is_off
  | deleteWebhook webhook =>
    refine (put _ _ rfl ?_).elim
    intro written same
    cases same
  | enqueue webhook =>
    refine (unwritten ?_).elim
    rw [World.act, World.enqueue]
    split <;> rfl
  | sendTest webhook =>
    refine (unwritten ?_).elim
    rw [World.act, World.sendTest]
    split <;> rfl
  | begin_ place =>
    refine (unwritten ?_).elim
    rw [World.act, World.beginAt]
    split
    · split
      · split <;> rfl
      · rfl
    · rfl
  | dial place outcome =>
    refine (unwritten ?_).elim
    rw [World.act, World.dialAt]
    split
    · split <;> rfl
    · rfl
  | advance place =>
    rw [World.act, World.advanceAt] at is_ ⊢
    split at is_
    · exact ⟨place, advance_turnsOff was is_ active off⟩
    · rename_i absent
      refine (unwritten ?_).elim
      rw [World.act, World.advanceAt, absent]
  | claim | lose | crash | prune => exact (unwritten rfl).elim

def World.after (clock : ℤ) (events : List Event) : World :=
  Stepping.run World.step (emptyWorld clock) events

/-- No row is claimed while an attempt still has to write it; and the success of a webhook is recorded
and taken into its count, and its turning off is told, without interruption. -/
def Kept (world : World) (event : Event) : Prop :=
  Unclaimed (world.at_ event.instant) event.action ∧ Heeded (world.at_ event.instant) event.action

structure Followed (clock : ℤ) (events : List Event) : Prop where
  onward : ∀ first rest, events = first ++ rest → ∀ id row row',
    (World.after clock first).deliveries id = some row →
      (World.after clock events).deliveries id = some row' → row.Onward row'
  bounded : ∀ id row, (World.after clock events).deliveries id = some row →
    row.attempts ≤ MAX_ATTEMPTS
  waits : ∀ earlier id instant later,
    (World.after clock events).log = earlier ++ .started id instant :: later →
      Due (failures id earlier) instant
  streaks : ∀ earlier hook place later,
    (World.after clock events).log = earlier ++ .turnedOff hook place :: later →
      DISABLE_AFTER_FAILURES ≤ streak hook earlier
  turned : ∀ first event rest, events = first ++ event :: rest → ∀ id hook hook',
    (World.after clock first).webhooks id = some hook →
      (World.after clock (first ++ [event])).webhooks id = some hook' →
        hook.status ≠ .DISABLED_FAILING → hook'.status = .DISABLED_FAILING →
          ∃ place, (World.after clock (first ++ [event])).log =
            (World.after clock first).log ++ [.turnedOff id place]
  noticed : Noticed (World.after clock events)

structure Sound (world : World) : Prop where
  tracked : Tracked world
  streaked : Streaked world
  noticed : Noticed world

theorem Sound.at_ (sound : Sound world) (instant : ℤ) : Sound (world.at_ instant) :=
  ⟨sound.tracked.at_ instant, ⟨sound.streaked.counts, sound.streaked.grounded⟩, sound.noticed⟩

theorem Sound.step (sound : Sound world) {event : Event} (kept : Kept world event) : Sound (world.step event) :=
  ⟨(sound.tracked.at_ _).act kept.1, (sound.at_ _).streaked.act kept.2,
    (sound.at_ _).noticed.act kept.2⟩

theorem emptyWorld_sound (clock : ℤ) : Sound (emptyWorld clock) where
  tracked := emptyWorld_tracked clock
  streaked := ⟨by simp [emptyWorld], Histories.each_nil⟩
  noticed := by
    intro hook place
    rfl

variable {clock : ℤ} {events first rest : List Event}

theorem after_sound (kept : Stepping.Along World.step Kept (emptyWorld clock) events) :
    Sound (World.after clock events) := by
  have keeps (world : World) (event : Event) (sound : Sound world) (granted : Kept world event) :
      Sound (world.step event) := sound.step granted
  exact kept.keeps keeps (emptyWorld_sound clock)

theorem after_append (clock : ℤ) (first rest : List Event) :
    World.after clock (first ++ rest) = Stepping.run World.step (World.after clock first) rest :=
  Stepping.run_append World.step (emptyWorld clock) first rest

theorem step_moved (sound : Sound world) (event : Event) : Moved world (world.step event) := by
  have timed : Moved world (world.at_ event.instant) := .same rfl rfl
  exact timed.trans ((sound.at_ event.instant).tracked.moved event.action)

theorem run_moved (sound : Sound world) (kept : Stepping.Along World.step Kept world rest) :
    Moved world (Stepping.run World.step world rest) := by
  induction rest generalizing world with
  | nil => exact .refl world
  | cons event rest ih => exact (step_moved sound event).trans (ih (sound.step kept.1) kept.2)

/-- Deliveries follow the ladder, as long as no row is claimed while an attempt still has to write it,
and nothing comes between a recorded success and the count it resets, or between a webhook's turning off
and the notice of it. -/
theorem deliveries_follow_ladder (clock : ℤ) (events : List Event)
    (kept : Stepping.Along World.step Kept (emptyWorld clock) events) : Followed clock events := by
  have sound := after_sound kept
  refine ⟨?_, ?_, ?_, ?_, ?_, sound.noticed⟩
  · intro first rest split id row row' was is_
    rw [split, Stepping.Along.append] at kept
    have before := after_sound kept.1
    rw [split, after_append] at is_
    rcases (run_moved before kept.2).rows id row' is_ with new | ⟨row'', was', onward⟩
    · exact absurd (before.tracked.ids id row was).2 (Nat.not_lt.mpr new)
    · cases Option.some_inj.mp (was.symm.trans was')
      exact onward
  · intro id row found
    exact (sound.tracked.rows id row found).bounded
  · intro earlier id instant later split
    exact sound.tracked.rested earlier _ later split
  · intro earlier hook place later split
    exact sound.streaked.grounded earlier _ later split
  · intro first event rest split id hook hook' was is_ active off
    rw [after_append] at is_ ⊢
    exact act_turnsOff event.action was is_ active off

/-- The first attempt fails, and the row is claimed again when its minute is over and delivered. -/
def retriedDelivery : List Event :=
  [⟨0, .createWebhook⟩, ⟨0, .enqueue 0⟩, ⟨0, .claim []⟩, ⟨1, .begin_ 0⟩, ⟨40, .dial 0 (.threw "Timed out")⟩,
    ⟨41, .advance 0⟩, ⟨42, .advance 0⟩, ⟨43, .advance 0⟩, ⟨60001, .claim []⟩, ⟨60001, .begin_ 1⟩,
    ⟨60040, .dial 1 (.answered 200)⟩, ⟨60041, .advance 1⟩, ⟨60042, .advance 1⟩]

theorem heeded_advance (apart : (∃ attempt ∈ world.attempts[place]?, attempt.stage = .counting ∨
      attempt.stage = .disabling) → ∀ other ∈ world.attempts, other.stage ≠ .forgiving) :
    Heeded world (.advance place) := by
  intro attempt found busy forgiving
  obtain ⟨_, other, there, forgives, _⟩ := forgiving
  exact apart ⟨attempt, found, busy⟩ other (List.mem_of_getElem? there) forgives

theorem retried_delivery_followed :
    (World.after 0 retriedDelivery).deliveries 0 =
        some ⟨0, 0, .DELIVERED, 2, 60001, some 200, none, 0, some 60001⟩ ∧
      (World.after 0 retriedDelivery).log = [.started 0 1, .failed 0 1 41, .counted 0, .started 0 60001,
        .delivered 0] ∧
      Followed 0 retriedDelivery := by
  refine ⟨by decide +kernel, by decide +kernel, deliveries_follow_ladder 0 retriedDelivery ?_⟩
  refine ⟨⟨trivial, trivial⟩, ⟨trivial, trivial⟩, ⟨by rw [Unclaimed]; decide +kernel, trivial⟩, ⟨trivial, trivial⟩,
    ⟨trivial, trivial⟩, ⟨trivial, ?_⟩, ⟨trivial, ?_⟩, ⟨trivial, ?_⟩,
    ⟨by rw [Unclaimed]; decide +kernel, trivial⟩,
    ⟨trivial, trivial⟩, ⟨trivial, trivial⟩, ⟨trivial, ?_⟩, ⟨trivial, ?_⟩, trivial⟩
  all_goals exact heeded_advance (by decide +kernel)

/-- The first attempt outlasts its lease. The row is claimed again and fails twice on time, and then the
first attempt fails too. -/
def slowAttempt : List Event :=
  [⟨0, .createWebhook⟩, ⟨0, .enqueue 0⟩, ⟨0, .claim []⟩, ⟨0, .begin_ 0⟩, ⟨300000, .claim []⟩,
    ⟨300000, .begin_ 1⟩, ⟨300000, .dial 1 (.threw "Timed out")⟩, ⟨300000, .advance 1⟩,
    ⟨360000, .claim []⟩, ⟨360000, .begin_ 2⟩, ⟨360000, .dial 2 (.threw "Timed out")⟩,
    ⟨360000, .advance 2⟩]

def slowAttemptEnds : List Event :=
  [⟨360001, .dial 0 (.threw "Timed out")⟩, ⟨360001, .advance 0⟩, ⟨360002, .claim []⟩,
    ⟨360002, .begin_ 3⟩]

/-- The count goes back from two to one, and the next attempt begins 2 ms after the second failure, not
5 min. -/
theorem slow_attempt_leaves_ladder :
    ((World.after 0 slowAttempt).deliveries 0).map PmWebhookDelivery.attempts = some 2 ∧
      ((World.after 0 (slowAttempt ++ slowAttemptEnds)).deliveries 0).map
        PmWebhookDelivery.attempts = some 1 ∧
      (World.after 0 (slowAttempt ++ slowAttemptEnds)).log.getLast? = some (.started 0 360002) ∧
      ¬ Followed 0 (slowAttempt ++ slowAttemptEnds) := by
  refine ⟨by decide +kernel, by decide +kernel, by decide +kernel, ?_⟩
  intro followed
  have due := followed.waits
    [.started 0 0, .started 0 300000, .failed 0 300000 300000, .started 0 360000,
      .failed 0 360000 360000, .failed 0 0 360001] 0 360002 [] (by decide +kernel)
  have waits := due 1 ⟨360000, 360000⟩ 300000 rfl rfl
  revert waits
  decide

end Droplet.Webhooks
