import Droplet.Sessions.Revoked

/-! A record that is there is listed under its owner, and the two promises about sessions together. -/

namespace Droplet.Sessions

open Expiring Places

variable {config : Config} {world : World} {execution : Execution} {sid : Sid} {i : ℕ} {now : ℤ}
  {command : Command} {entry : Entry SessionRecord}

/-- The `createSession` of the session has come this far. -/
def World.At (world : World) (sid : Sid) (stage : CreateStage) : Prop :=
  ∃ (i : ℕ) (creation : Creation), world.executions[i]? = some (.create creation) ∧
    creation.sid = sid ∧ creation.stage = stage

/-- A record is listed under its owner, by an index that lasts as long, or its `createSession` has still
to see to that. -/
def World.Listed (world : World) (sid : Sid) (entry : Entry SessionRecord) : Prop :=
  world.At sid .zadd ∨ ∃ index, world.redis.indexes entry.value.userId = some index ∧
    sid ∈ index.value.members ∧
      (world.At sid .expireNx ∨ ∃ last, index.expiry = some last ∧
        (world.At sid .expireGt ∨ ∀ at_, entry.expiry = some at_ → at_ ≤ last))

/-- No index goes while a `createSession` has still to move its expiry. -/
def lasting (world : World) : Event → Bool
  | .passes milliseconds => world.executions.all fun
      | .create creation =>
        (creation.stage ≠ .expireNx && creation.stage ≠ .expireGt) ||
          (world.redis.indexes creation.user).all fun index =>
            index.lasts (world.redis.now + milliseconds)
      | _ => true
  | _ => true

theorem Redis.exec_index {redis : Redis} {user : UserId} {index : Entry (Scored Sid)}
    (there : redis.indexes user = some index) (member : sid ∈ index.value.members)
    (kept : command ≠ .zrem user sid) :
    ∃ next, (redis.exec command).1.indexes user = some next ∧ sid ∈ next.value.members ∧
      ∀ last, index.expiry = some last → ∃ later, next.expiry = some later ∧ last ≤ later := by
  have same : ∃ next, redis.indexes user = some next ∧ sid ∈ next.value.members ∧
      ∀ last, index.expiry = some last → ∃ later, next.expiry = some later ∧ last ≤ later :=
    ⟨index, there, member, fun last stamped => ⟨last, stamped, le_refl _⟩⟩
  have listed : redis.index user = index.value := by
    simp [Redis.index, there]
  have filled : ∀ set : Scored Sid, sid ∈ set.members → set.isEmpty = false := by
    intro set inside
    cases set with
    | nil => cases inside
    | cons => rfl
  cases command with
  | zadd own score other =>
    by_cases first : user = own
    · subst first
      have inside : sid ∈ ((redis.index user).add score other).members := by
        rw [listed]
        exact Scored.mem_add.mpr (.inr member)
      simp only [Redis.exec, Redis.setIndex, filled _ inside, Bool.false_eq_true, if_false, overwrite,
        put_self, there]
      exact ⟨_, rfl, inside, fun last stamped => ⟨last, stamped, le_refl _⟩⟩
    · have apart : (redis.exec (.zadd own score other)).1.indexes user = redis.indexes user := by
        simp only [Redis.exec, Redis.setIndex]
        split
        · exact drop_other first
        · exact put_other first
      rw [apart]
      exact same
  | zrem own other =>
    by_cases first : user = own
    · subst first
      have differ : sid ≠ other := fun equal => kept (by rw [equal])
      have inside : sid ∈ ((redis.index user).remove other).members := by
        rw [listed]
        exact Scored.mem_remove.mpr ⟨member, differ⟩
      simp only [Redis.exec, Redis.setIndex, filled _ inside, Bool.false_eq_true, if_false, overwrite,
        put_self, there]
      exact ⟨_, rfl, inside, fun last stamped => ⟨last, stamped, le_refl _⟩⟩
    · have apart : (redis.exec (.zrem own other)).1.indexes user = redis.indexes user := by
        simp only [Redis.exec, Redis.setIndex]
        split
        · exact drop_other first
        · exact put_other first
      rw [apart]
      exact same
  | expireNx own seconds =>
    by_cases first : user = own
    · subst first
      simp only [Redis.exec, expireNx_self there]
      refine ⟨_, rfl, member, ?_⟩
      intro last stamped
      exact ⟨last, by simp [stamped], le_refl _⟩
    · simp only [Redis.exec, expireNx_other first]
      exact same
  | expireGt own seconds =>
    by_cases first : user = own
    · subst first
      simp only [Redis.exec, expireGt_self there]
      refine ⟨_, rfl, member, ?_⟩
      intro last stamped
      exact ⟨_, by rw [stamped]; rfl, le_max_right _ _⟩
    · simp only [Redis.exec, expireGt_other first]
      exact same
  | _ => exact same

theorem World.At.begins {stage : CreateStage} {sids : List Sid} (at_ : world.At sid stage) :
    (world.begins execution sids).At sid stage := by
  obtain ⟨i, creation, found, own, same⟩ := at_
  refine ⟨i, creation, ?_, own, same⟩
  rw [World.begins, List.getElem?_append_left (List.getElem?_eq_some_iff.mp found).1]
  exact found

/-- The `createSession` of a session is still where it was, or it has taken its next step. -/
theorem World.At.after {stage : CreateStage} (at_ : world.At sid stage)
    (found : world.executions[i]? = some execution) :
    (world.after config i now execution command).At sid stage ∨
      ∃ creation, execution = .create creation ∧ creation.sid = sid ∧ creation.stage = stage := by
  obtain ⟨j, creation, there, own, same⟩ := at_
  by_cases place : j = i
  · subst place
    rw [found] at there
    cases there
    exact .inr ⟨creation, rfl, own, same⟩
  · refine .inl ⟨j, creation, ?_, own, same⟩
    simp only [World.after]
    rw [List.getElem?_set_ne (Ne.symm place)]
    exact there

/-- Where the next step of a `createSession` leads. -/
theorem World.after_at {creation : Creation} {stage : CreateStage}
    (found : world.executions[i]? = some (.create creation))
    (moves : (creation.react config (world.redis.exec command).2).stage = stage) :
    (world.after config i now (.create creation) command).At creation.sid stage := by
  refine ⟨i, _, ?_, Creation.react_past.sid, moves⟩
  simp only [World.after, Execution.react]
  rw [List.getElem?_set_self (List.getElem?_eq_some_iff.mp found).1]

theorem Kept.listed_after (kept : Kept config world) (listed : ∀ entry,
      world.redis.records sid = some entry → world.Listed sid entry)
    (found : world.executions[i]? = some execution) (sent : execution.command config = some command)
    (prompt : prompt world (.proceed i now) = true)
    (there : (world.after config i now execution command).redis.records sid = some entry) :
    (world.after config i now execution command).Listed sid entry := by
  have after_ := kept.proceed found sent prompt
  have who := Execution.command_cases sent
  -- what a `createSession` that is past its SET knows of the record
  have owned : ∀ creation, execution = .create creation → creation.sid = sid →
      entry.value.userId = creation.user ∧ ∀ at_, entry.expiry = some at_ →
        at_ ≤ world.redis.expiry (gcTtl config creation.role) := by
    intro creation same own
    subst same
    have past := @Creation.react_past config creation (world.redis.exec command).2
    have moved : (world.after config i now (.create creation) command).executions[i]? =
        some (.create (creation.react config (world.redis.exec command).2)) := by
      simp only [World.after, Execution.react]
      rw [List.getElem?_set_self (List.getElem?_eq_some_iff.mp found).1]
    have owns := after_.owns i _ moved
    simp only [Execution.Owns, if_neg past.stage, past.sid, past.user, past.role, own] at owns
    obtain ⟨user, at_, stamped, bound⟩ := owns entry there
    refine ⟨user, ?_⟩
    intro other equal
    rw [stamped] at equal
    cases equal
    simpa [World.after, Redis.expiry, Redis.exec_now] using bound
  rcases kept.exec_records found sent prompt there with ⟨before, stored, user, expiry⟩ |
    ⟨creation, rfl, first, rfl, _⟩
  · rcases listed before stored with waits | ⟨index, indexed, member, state⟩
    · rcases waits.after found with still | ⟨creation, rfl, own, stage⟩
      · exact .inl still
      · -- its ZADD
        subst own
        have owner := (owned creation rfl rfl).1
        simp only [Execution.command, Creation.command, stage, Option.some.injEq] at sent
        subst sent
        have inside : creation.sid ∈
            ((world.redis.index creation.user).add creation.at_ creation.sid).members :=
          Scored.mem_add.mpr (.inl rfl)
        have full : ((world.redis.index creation.user).add creation.at_ creation.sid).isEmpty = false := by
          cases set : (world.redis.index creation.user).add creation.at_ creation.sid with
          | nil =>
            rw [set] at inside
            cases inside
          | cons => rfl
        refine .inr ⟨⟨(world.redis.index creation.user).add creation.at_ creation.sid,
          (world.redis.indexes creation.user).bind Entry.expiry⟩, ?_, inside,
          .inl (World.after_at found ?_)⟩
        · rw [owner]
          simp only [World.after, Redis.exec, Redis.setIndex, full, Bool.false_eq_true, if_false,
            overwrite, put_self]
        · simp [Creation.react, stage]
    · have unremoved : command ≠ .zrem entry.value.userId sid := by
        intro same
        subst same
        have dead := kept.buried i execution sid found who
        rw [dead.2] at stored
        cases stored
      rw [← user] at indexed
      obtain ⟨next, moved, inside, later⟩ := Redis.exec_index indexed member unremoved
      refine .inr ⟨next, moved, inside, ?_⟩
      rcases state with waits | ⟨last, stamped, bound⟩
      · rcases waits.after found with still | ⟨creation, rfl, own, stage⟩
        · exact .inl still
        · -- its first EXPIRE
          subst own
          have owner := (owned creation rfl rfl).1
          simp only [Execution.command, Creation.command, stage, Option.some.injEq] at sent
          subst sent
          rw [owner] at indexed moved
          simp only [Redis.exec, expireNx_self indexed, Option.some.injEq] at moved
          refine .inr ⟨_, by rw [← moved], .inl (World.after_at found ?_)⟩
          simp [Creation.react, stage]
      · obtain ⟨new, restamped, moved_on⟩ := later last stamped
        refine .inr ⟨new, restamped, ?_⟩
        rcases bound with waits | bound
        · rcases waits.after found with still | ⟨creation, rfl, own, stage⟩
          · exact .inl still
          · -- its second EXPIRE
            subst own
            obtain ⟨owner, enough⟩ := owned creation rfl rfl
            simp only [Execution.command, Creation.command, stage, Option.some.injEq] at sent
            subst sent
            rw [owner] at indexed moved
            simp only [Redis.exec, expireGt_self indexed, stamped, Option.map_some,
              Option.some.injEq] at moved
            rw [← moved] at restamped
            cases restamped
            exact .inr fun at_ equal => (enough at_ equal).trans (le_max_left _ _)
        · refine .inr ?_
          intro at_ equal
          exact (bound at_ (expiry ▸ equal)).trans moved_on
  · exact .inl (World.after_at found (by simp [Creation.react, first]))

theorem World.Listed.begins {sids : List Sid} (listed : world.Listed sid entry) :
    (world.begins execution sids).Listed sid entry := by
  rcases listed with waits | ⟨index, there, member, state⟩
  · exact .inl waits.begins
  · refine .inr ⟨index, there, member, ?_⟩
    rcases state with waits | ⟨last, stamped, bound⟩
    · exact .inl waits.begins
    · exact .inr ⟨last, stamped, bound.imp_left World.At.begins⟩

theorem Kept.listed_passes (kept : Kept config world) {milliseconds : ℕ}
    (listed : ∀ entry, world.redis.records sid = some entry → world.Listed sid entry)
    (lasting : lasting world (.passes milliseconds) = true)
    (there : (world.redis.passes milliseconds).records sid = some entry) :
    World.Listed { world with redis := world.redis.passes milliseconds } sid entry := by
  obtain ⟨stored, lasts⟩ := purge_some.mp there
  rcases listed entry stored with waits | ⟨index, indexed, member, state⟩
  · exact .inl waits
  · refine .inr ⟨index, purge_some.mpr ⟨indexed, ?_⟩, member, state⟩
    -- an index whose expiry is still to be set or moved lasts by assumption
    have open_ : ∀ stage, stage = .expireNx ∨ stage = .expireGt → world.At sid stage →
        index.lasts (world.redis.now + milliseconds) = true := by
      intro stage either ⟨i, creation, found, own, same⟩
      subst own
      have owns := kept.owns i _ found
      have past : creation.stage ≠ .set := by
        rw [same]
        rcases either with rfl | rfl <;> exact nofun
      simp only [Execution.Owns, if_neg past] at owns
      have kept_on := List.all_eq_true.mp lasting _ (List.mem_of_getElem? found)
      simp only [← (owns entry stored).1, indexed, same, Option.all_some, Bool.or_eq_true,
        Bool.and_eq_true, decide_eq_true_eq] at kept_on
      refine kept_on.resolve_left ?_
      intro neither
      rcases either with rfl | rfl
      · exact neither.1 rfl
      · exact neither.2 rfl
    rcases state with waits | ⟨last, stamped, waits | bound⟩
    · exact open_ _ (.inl rfl) waits
    · exact open_ _ (.inr rfl) waits
    · obtain ⟨_, at_, expiry⟩ := kept.stored sid entry stored
      have later := bound at_ expiry
      simp only [Entry.lasts, expiry, decide_eq_true_eq] at lasts
      simp only [Entry.lasts, stamped, decide_eq_true_eq]
      omega

theorem Kept.listed_step (kept : Kept config world)
    (listed : ∀ sid entry, world.redis.records sid = some entry → world.Listed sid entry)
    (event : Event) (prompt : prompt world event = true) (lasting : lasting world event = true)
    (sid : Sid) (entry : Entry SessionRecord) (there : (world.step config event).redis.records sid = some entry) :
    (world.step config event).Listed sid entry := by
  cases event with
  | create user role other at_ =>
    simp only [World.step] at there ⊢
    split
    · rename_i named
      rw [if_pos named] at there
      exact listed sid entry there
    · rename_i fresh
      rw [if_neg fresh] at there
      exact (listed sid entry there).begins
  | check | delete =>
    simp only [World.step] at there ⊢
    split
    · rename_i known
      rw [if_pos known] at there
      exact (listed sid entry there).begins
    · rename_i unknown
      rw [if_neg unknown] at there
      exact listed sid entry there
  | revoke userId exceptSid => exact (listed sid entry there).begins
  | passes milliseconds => exact kept.listed_passes (listed sid) lasting there
  | proceed i now =>
    cases found : world.executions[i]? with
    | none =>
      simp only [World.step, found] at there ⊢
      exact listed sid entry there
    | some execution =>
      cases sent : execution.command config with
      | none =>
        simp only [World.step, found, sent] at there ⊢
        exact listed sid entry there
      | some command =>
        simp only [World.step, found, sent] at there ⊢
        exact kept.listed_after (listed sid) found sent prompt there

/-- In every run in which no touch is written after its record is gone: once a call that ends a session
has returned, nobody who begins to check it is told that it is fine; every record has an expiry; and
where no index goes between a ZADD and the EXPIREs after it, every record is listed under its owner
unless its `createSession` is still about to send that ZADD. -/
theorem revoked_stays_dead (config : Config) (before during : List Event)
    (along : Stepping.Along (World.step config) (fun world event => prompt world event = true)
      World.start (before ++ during)) :
    let world := World.start.runs config before
    let after_ := world.runs config during
    (∀ (sid : Sid) (i : ℕ) (execution : Execution), world.executions[i]? = some execution →
      execution.ends sid = true → ∀ (j : ℕ) (running : Check), world.executions.length ≤ j →
        after_.executions[j]? = some (.check running) → running.sid = sid →
          ∀ record, running.stage ≠ .done (.ok record)) ∧
    (∀ sid entry, after_.redis.records sid = some entry → ∃ at_, entry.expiry = some at_) ∧
    (Stepping.Along (World.step config) (fun world event => lasting world event = true)
        World.start (before ++ during) →
      ∀ sid entry, after_.redis.records sid = some entry →
        sid ∈ (after_.redis.index entry.value.userId).members ∨ after_.At sid .zadd) := by
  intro world after_
  have parts := Stepping.Along.append.mp along
  have kept : Kept config world :=
    parts.1.keeps (fun _ event kept prompt => kept.step event prompt) .start
  have end_ : after_ = World.start.runs config (before ++ during) := by
    simp only [after_, world, World.runs, Stepping.run_append]
  refine ⟨?_, ?_, ?_⟩
  · intro sid i execution found ends j running later there own record told
    have barred : Barred config sid world.executions.length world := by
      refine ⟨kept, kept.buried i execution sid found (Execution.ends_buries ends), ?_⟩
      intro k other beyond at_k
      exact absurd (List.getElem?_eq_some_iff.mp at_k).1 (not_lt.mpr beyond)
    have still : Barred config sid world.executions.length after_ :=
      parts.2.keeps (fun _ event barred prompt => barred.step event prompt) barred
    rcases still.missed j running later there own with first | missing
    · rw [told] at first
      cases first
    · rw [told] at missing
      cases missing
  · intro sid entry there
    have last : Kept config after_ :=
      parts.2.keeps (fun _ event kept prompt => kept.step event prompt) kept
    exact (last.stored sid entry there).2
  · intro lasting sid entry there
    have both : Stepping.Along (World.step config)
        (fun world event => prompt world event = true ∧ Sessions.lasting world event = true)
        World.start (before ++ during) := along.and lasting
    have held : Kept config (World.start.runs config (before ++ during)) ∧
        ∀ sid entry, (World.start.runs config (before ++ during)).redis.records sid = some entry →
          (World.start.runs config (before ++ during)).Listed sid entry := by
      refine @Stepping.Along.keeps _ _ _ _ _ (fun world => Kept config world ∧ ∀ sid entry,
        world.redis.records sid = some entry → world.Listed sid entry) ?_ _ both ⟨.start, ?_⟩
      · intro world event ⟨kept, listed⟩ ⟨prompt, lasting⟩
        exact ⟨kept.step event prompt, kept.listed_step listed event prompt lasting⟩
      · exact fun _ _ none => nomatch none
    rw [end_] at there ⊢
    rcases held.2 sid entry there with waits | ⟨index, indexed, member, _⟩
    · exact .inr waits
    · refine .inl ?_
      simp only [Redis.index, indexed, Option.map_some, Option.getD_some]
      exact member

def plainConfig : Config := ⟨none, none, none, none, none⟩

/-- The calls of somebody who signs in at 0 and is checked at 60, up to the command that touches the
record, and who then signs out. -/
def signsOutAmidCheck : List Event :=
  [.create 1 .family 7 0, .proceed 0 0, .proceed 0 0, .proceed 0 0, .proceed 0 0, .proceed 0 0,
    .proceed 0 0, .check 7 true, .proceed 1 60, .delete 1 7, .proceed 2 60, .proceed 2 60]

def checksAfterwards : List Event := [.check 7 true, .proceed 3 61]

theorem signed_out_is_missing :
    ((World.start.runs plainConfig signsOutAmidCheck).runs plainConfig checksAfterwards).executions[3]? =
        some (.check ⟨7, true, .done .missing⟩) ∧
      CheckStage.done .missing ≠ .done (.ok ⟨1, .family, 0, 0⟩) :=
  ⟨rfl, (revoked_stays_dead plainConfig signsOutAmidCheck checksAfterwards
    ⟨rfl, rfl, rfl, rfl, rfl, rfl, rfl, rfl, rfl, rfl, rfl, rfl, rfl, rfl, trivial⟩).1
      7 2 (.delete ⟨1, 7, .done⟩) rfl rfl 3 ⟨7, true, .done .missing⟩ (by decide) rfl rfl
        ⟨1, .family, 0, 0⟩⟩

/-- The touch is written after the record was deleted: the session is accepted again, its record has no
expiry and no index lists it. And in between SET and ZADD no index lists a new record. -/
theorem late_touch_revives :
    let ended := World.start.runs plainConfig signsOutAmidCheck
    let revived := ended.runs plainConfig (.proceed 1 60 :: checksAfterwards)
    let begun := World.start.runs plainConfig [.create 1 .family 7 0, .proceed 0 0]
    ended.executions[2]? = some (.delete ⟨1, 7, .done⟩) ∧ ended.executions.length = 3 ∧
      revived.executions[3]? = some (.check ⟨7, true, .done (.ok ⟨1, .family, 0, 60⟩)⟩) ∧
      revived.redis.records 7 = some ⟨⟨1, .family, 0, 60⟩, none⟩ ∧
      (revived.redis.index 1).members = [] ∧
      begun.redis.records 7 = some ⟨⟨1, .family, 0, 0⟩, some 129600000⟩ ∧
      (begun.redis.index 1).members = [] :=
  ⟨rfl, rfl, rfl, rfl, rfl, rfl, rfl⟩

end Droplet.Sessions
