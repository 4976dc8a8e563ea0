import Droplet.Sessions.Calls
import Droplet.Lib.Histories

/-! What is known of sids and records in every run in which no touch comes after its record is gone. -/

namespace Droplet.Sessions

open Expiring Places

variable {config : Config}

/-- It was named, and no `createSession` is about to write its record for the first time. -/
def World.Settled (world : World) (sid : Sid) : Prop :=
  sid ∈ world.named ∧ ∀ (i : ℕ) (creation : Creation),
    world.executions[i]? = some (.create creation) → creation.sid = sid → creation.stage ≠ .set

def World.Dead (world : World) (sid : Sid) : Prop := world.Settled sid ∧ world.redis.records sid = none

def CheckStage.read : CheckStage → Option SessionRecord
  | .destroy _ record => some record
  | .unlist _ record => some record
  | .touch record _ => some record
  | _ => none

/-- The record of a `createSession` is its own, and that of a `checkSession` keeps its owner. -/
def Execution.Owns (config : Config) (redis : Redis) : Execution → Prop
  | .create creation =>
    if creation.stage = .set then redis.records creation.sid = none
    else ∀ entry, redis.records creation.sid = some entry →
      entry.value.userId = creation.user ∧
        ∃ at_, entry.expiry = some at_ ∧ at_ ≤ redis.expiry (gcTtl config creation.role)
  | .check running => ∀ record, running.stage.read = some record →
      ∀ entry, redis.records running.sid = some entry → entry.value.userId = record.userId
  | _ => True

structure Kept (config : Config) (world : World) : Prop where
  named : ∀ (i : ℕ) (creation : Creation), world.executions[i]? = some (.create creation) →
    creation.sid ∈ world.named
  unique : ∀ (i j : ℕ) (first second : Creation), world.executions[i]? = some (.create first) →
    world.executions[j]? = some (.create second) → first.sid = second.sid → i = j
  settled : ∀ (i : ℕ) (execution : Execution), world.executions[i]? = some execution →
    ∀ sid ∈ execution.handles, world.Settled sid
  buried : ∀ (i : ℕ) (execution : Execution) (sid : Sid), world.executions[i]? = some execution →
    execution.buries sid = true → world.Dead sid
  owns : ∀ (i : ℕ) (execution : Execution), world.executions[i]? = some execution →
    execution.Owns config world.redis
  listed : ∀ user, ∀ sid ∈ (world.redis.index user).members, world.Settled sid
  stored : ∀ sid entry, world.redis.records sid = some entry →
    world.Settled sid ∧ ∃ at_, entry.expiry = some at_

variable {world after_ : World} {execution : Execution} {sid : Sid}

theorem Kept.start : Kept config World.start where
  named _ _ found := by cases found
  unique _ _ _ _ found := by cases found
  settled _ _ found := by cases found
  buried _ _ _ found := by cases found
  owns _ _ found := by cases found
  listed _ _ there := by cases there
  stored _ _ found := by cases found

variable {creation : Creation}

/-- The record of a session whose `createSession` has written it is settled. -/
theorem Kept.past (kept : Kept config world) {i : ℕ}
    (found : world.executions[i]? = some (.create creation)) (past : creation.stage ≠ .set) :
    world.Settled creation.sid := by
  refine ⟨kept.named i creation found, ?_⟩
  intro j other there same
  have place := kept.unique j i other creation there found same
  subst place
  rw [found] at there
  cases there
  exact past

/-- A settled sid stays settled, and its record keeps owner and expiry while it is there. -/
structure World.Later (world after_ : World) : Prop where
  settled : ∀ sid, world.Settled sid → after_.Settled sid
  kept : ∀ sid entry, world.Settled sid → after_.redis.records sid = some entry →
    ∃ before, world.redis.records sid = some before ∧
      entry.value.userId = before.value.userId ∧ entry.expiry = before.expiry
  now : world.redis.now ≤ after_.redis.now

section

variable (later : world.Later after_)
include later

theorem World.Later.dead (dead : world.Dead sid) : after_.Dead sid := by
  refine ⟨later.settled sid dead.1, ?_⟩
  cases found : after_.redis.records sid with
  | none => rfl
  | some entry =>
    obtain ⟨before, there, _⟩ := later.kept sid entry dead.1 found
    rw [dead.2] at there
    cases there

theorem World.Later.expiry (seconds : ℤ) : world.redis.expiry seconds ≤ after_.redis.expiry seconds := by
  have now := later.now
  unfold Redis.expiry
  omega

theorem World.Later.check {running : Check} (settled : world.Settled running.sid) (owns : (Execution.check running).Owns config world.redis) :
    (Execution.check running).Owns config after_.redis := by
  intro record read entry found
  obtain ⟨before, there, same, _⟩ := later.kept _ entry settled found
  rw [same]
  exact owns record read before there

theorem World.Later.create (settled : world.Settled creation.sid)
    (past : creation.stage ≠ .set) (owns : (Execution.create creation).Owns config world.redis) :
    ∀ entry, after_.redis.records creation.sid = some entry → entry.value.userId = creation.user ∧
      ∃ at_, entry.expiry = some at_ ∧ at_ ≤ after_.redis.expiry (gcTtl config creation.role) := by
  intro entry found
  obtain ⟨before, there, same, expiry⟩ := later.kept _ entry settled found
  simp only [Execution.Owns, if_neg past] at owns
  obtain ⟨own, at_, stamped, bound⟩ := owns before there
  exact ⟨same.trans own, at_, expiry.trans stamped, bound.trans (later.expiry _)⟩

end

theorem Kept.others (kept : Kept config world) (later : world.Later after_) {i : ℕ}
    (found : world.executions[i]? = some execution)
    (unwritten : ∀ creation, execution = .create creation → creation.stage = .set →
      after_.redis.records creation.sid = none) :
    (∀ sid ∈ execution.handles, after_.Settled sid) ∧
      (∀ sid, execution.buries sid = true → after_.Dead sid) ∧
      execution.Owns config after_.redis := by
  refine ⟨?_, ?_, ?_⟩
  · exact fun sid there => later.settled sid (kept.settled i execution found sid there)
  · exact fun sid buries => later.dead (kept.buried i execution sid found buries)
  · have owns := kept.owns i execution found
    cases execution with
    | create creation =>
      simp only [Execution.Owns]
      split
      · rename_i first
        exact unwritten creation rfl first
      · rename_i past
        exact later.create (kept.past found past) past owns
    | check running =>
      exact later.check (kept.settled i _ found running.sid (List.mem_singleton_self _)) owns
    | delete | revoke => trivial

variable {sids : List Sid}

section

variable (fresh : ∀ creation, execution = .create creation → creation.sid ∉ world.named)
include fresh

theorem World.begins_settled (settled : world.Settled sid) : (world.begins execution sids).Settled sid := by
  refine ⟨List.mem_append_left _ settled.1, ?_⟩
  intro i creation found same
  rcases append_cases found with ⟨_, rfl⟩ | before
  · exact absurd (same ▸ settled.1) (fresh creation rfl)
  · exact settled.2 i creation before same

theorem World.begins_later : world.Later (world.begins execution sids) where
  settled _ settled := World.begins_settled fresh settled
  kept _ entry _ found := ⟨entry, found, rfl, rfl⟩
  now := le_refl _

end

theorem Kept.begins (kept : Kept config world)
    (fresh : ∀ creation, execution = .create creation → creation.sid ∉ world.named ∧
      creation.sid ∈ sids ∧ creation.stage = .set)
    (settled : ∀ sid ∈ execution.handles, (world.begins execution sids).Settled sid)
    (quiet : ∀ sid, execution.buries sid = false)
    (unread : ∀ running, execution = .check running → running.stage.read = none) :
    Kept config (world.begins execution sids) := by
  have later : world.Later (world.begins execution sids) :=
    World.begins_later fun creation same => (fresh creation same).1
  have old : ∀ (i : ℕ) (other : Execution), world.executions[i]? = some other →
      (∀ sid ∈ other.handles, (world.begins execution sids).Settled sid) ∧
        (∀ sid, other.buries sid = true → (world.begins execution sids).Dead sid) ∧
        other.Owns config (world.begins execution sids).redis := by
    intro i other found
    refine kept.others later found ?_
    intro creation same first
    have owns := kept.owns i other found
    rw [same] at owns
    simp only [Execution.Owns, first, if_true] at owns
    exact owns
  constructor
  · intro i creation found
    rcases append_cases found with ⟨_, rfl⟩ | before
    · exact List.mem_append_right _ (fresh creation rfl).2.1
    · exact List.mem_append_left _ (kept.named i creation before)
  · intro i j first second at_first at_second same
    rcases append_cases at_first with ⟨rfl, rfl⟩ | was_first
    · rcases append_cases at_second with ⟨rfl, new⟩ | was_second
      · rfl
      · exact absurd (same ▸ kept.named j second was_second) (fresh first rfl).1
    · rcases append_cases at_second with ⟨rfl, rfl⟩ | was_second
      · exact absurd (same ▸ kept.named i first was_first) (fresh second rfl).1
      · exact kept.unique i j first second was_first was_second same
  · intro i other found
    rcases append_cases found with ⟨_, rfl⟩ | before
    · exact settled
    · exact (old i other before).1
  · intro i other sid found buries
    rcases append_cases found with ⟨_, rfl⟩ | before
    · rw [quiet sid] at buries
      cases buries
    · exact (old i other before).2.1 sid buries
  · intro i other found
    rcases append_cases found with ⟨_, rfl⟩ | before
    · cases other with
      | create creation =>
        obtain ⟨unnamed, _, first⟩ := fresh creation rfl
        simp only [Execution.Owns, first, if_true]
        cases there : (world.begins (.create creation) sids).redis.records creation.sid with
        | none => rfl
        | some entry => exact absurd (kept.stored creation.sid entry there).1.1 unnamed
      | check running =>
        intro record read
        rw [unread running rfl] at read
        cases read
      | delete | revoke => trivial
    · exact (old i other before).2.2
  · intro user sid there
    exact later.settled sid (kept.listed user sid there)
  · intro sid entry found
    have stored := kept.stored sid entry found
    exact ⟨later.settled sid stored.1, stored.2⟩

theorem Redis.passes_records {redis : Redis} {milliseconds : ℕ} {entry : Entry SessionRecord}
    (found : (redis.passes milliseconds).records sid = some entry) :
    redis.records sid = some entry := (purge_some.mp found).1

theorem World.passes_later (milliseconds : ℕ) :
    world.Later { world with redis := world.redis.passes milliseconds } where
  settled _ settled := settled
  kept _ entry _ found := ⟨entry, Redis.passes_records found, rfl, rfl⟩
  now := by simp [Redis.passes]

theorem Kept.passes (kept : Kept config world) (milliseconds : ℕ) :
    Kept config { world with redis := world.redis.passes milliseconds } := by
  have later := @World.passes_later world milliseconds
  have old : ∀ (i : ℕ) (other : Execution), world.executions[i]? = some other →
      (∀ sid, other.buries sid = true → World.Dead
        { world with redis := world.redis.passes milliseconds } sid) ∧
        other.Owns config (world.redis.passes milliseconds) := by
    intro i other found
    refine (kept.others later found ?_).2
    intro creation same first
    have owns := kept.owns i other found
    rw [same] at owns
    simp only [Execution.Owns, first, if_true] at owns
    exact purge_none owns
  constructor
  · exact kept.named
  · exact kept.unique
  · exact kept.settled
  · exact fun i other sid found buries => (old i other found).1 sid buries
  · exact fun i other found => (old i other found).2
  · exact fun user sid there => kept.listed user sid (Redis.passes_members there)
  · exact fun sid entry found => kept.stored sid entry (Redis.passes_records found)

/-- No touch is written when its record is gone. -/
def prompt (world : World) : Event → Bool
  | .proceed i _ =>
    match world.executions[i]? with
    | some (.check running) =>
      match running.stage with
      | .touch _ _ => (world.redis.records running.sid).isSome
      | _ => true
    | _ => true
  | _ => true

variable {i : ℕ} {now : ℤ} {command : Command}

/-- The record under a sid is the one that was there, or the first of its `createSession`. -/
theorem Kept.exec_records (kept : Kept config world) (found : world.executions[i]? = some execution)
    (sent : execution.command config = some command)
    (prompt : prompt world (.proceed i now) = true) {entry : Entry SessionRecord}
    (there : (world.redis.exec command).1.records sid = some entry) :
    (∃ before, world.redis.records sid = some before ∧ entry.value.userId = before.value.userId ∧
      entry.expiry = before.expiry) ∨
    ∃ creation, execution = .create creation ∧ creation.stage = .set ∧ creation.sid = sid ∧
      entry = ⟨creation.record, some (world.redis.expiry (gcTtl config creation.role))⟩ := by
  have who := Execution.command_cases sent
  rcases Redis.exec_records there with before | ⟨record, seconds, rfl, rfl⟩ | ⟨record, rfl, rfl⟩
  · exact .inl ⟨entry, before, rfl, rfl⟩
  · obtain ⟨creation, rfl, stage, rfl, rfl, rfl⟩ := who
    exact .inr ⟨creation, rfl, stage, rfl, rfl⟩
  · obtain ⟨running, read, at_, rfl, stage, rfl, rfl⟩ := who
    simp only [Sessions.prompt, found, stage] at prompt
    obtain ⟨before, stored⟩ := Option.isSome_iff_exists.mp prompt
    have owns := kept.owns i _ found read (by rw [stage]; rfl) before stored
    exact .inl ⟨before, stored, owns.symm, by rw [stored]; rfl⟩

/-- It is of the same session, whose record has been written. -/
structure Creation.Past (before creation : Creation) : Prop where
  stage : creation.stage ≠ .set
  sid : creation.sid = before.sid
  user : creation.user = before.user
  role : creation.role = before.role

theorem Creation.cap_past {live : List Sid} : creation.Past (creation.cap config live) := by
  unfold Creation.cap
  split
  · split
    · exact ⟨(by simp), rfl, rfl, rfl⟩
    · split <;> exact ⟨(by simp), rfl, rfl, rfl⟩
  · exact ⟨(by simp), rfl, rfl, rfl⟩

theorem Creation.turn_past {todo live : List Sid} : creation.Past (creation.turn config todo live) := by
  unfold Creation.turn
  split
  · exact Creation.cap_past
  · exact ⟨(by simp), rfl, rfl, rfl⟩

theorem Creation.react_past {reply : Reply} : creation.Past (creation.react config reply) := by
  unfold Creation.react
  split
  iterate 4 · exact ⟨(by simp), rfl, rfl, rfl⟩
  · exact Creation.turn_past
  · split
    · exact Creation.turn_past
    · exact ⟨(by simp), rfl, rfl, rfl⟩
  · exact Creation.turn_past
  · exact ⟨(by simp), rfl, rfl, rfl⟩
  · rename_i oldest live _
    have past := @Creation.cap_past config
      { creation with evictedSids := creation.evictedSids ++ [oldest] } live
    exact ⟨past.stage, past.sid, past.user, past.role⟩
  · refine ⟨?_, rfl, rfl, rfl⟩
    intro first
    simp_all

def World.after (config : Config) (world : World) (i : ℕ) (now : ℤ) (execution : Execution)
    (command : Command) : World :=
  { world with
    redis := (world.redis.exec command).1
    executions := world.executions.set i
      (execution.react config now (world.redis.exec command).2) }

/-- A `createSession` afterwards is one from before. -/
theorem World.after_creation (found : world.executions[i]? = some execution) {j : ℕ}
    (there : (world.after config i now execution command).executions[j]? = some (.create creation)) :
    ∃ before, world.executions[j]? = some (.create before) ∧ creation.sid = before.sid ∧
      (creation.stage = .set → creation = before ∧ j ≠ i) := by
  rcases set_cases there with ⟨rfl, moved⟩ | ⟨differ, same⟩
  · cases execution with
    | create before =>
      cases moved
      have past := @Creation.react_past config before (world.redis.exec command).2
      exact ⟨before, found, past.sid, fun first => absurd first past.stage⟩
    | _ => cases moved
  · exact ⟨creation, same, rfl, fun _ => ⟨rfl, differ⟩⟩

theorem World.after_settled (found : world.executions[i]? = some execution) (settled : world.Settled sid) :
    (world.after config i now execution command).Settled sid := by
  refine ⟨settled.1, ?_⟩
  intro j creation there same first
  obtain ⟨before, was, own, at_first⟩ := World.after_creation found there
  exact settled.2 j before was (own ▸ same) ((at_first first).1 ▸ first)

theorem Kept.after_later (kept : Kept config world) (found : world.executions[i]? = some execution)
    (sent : execution.command config = some command) (prompt : prompt world (.proceed i now) = true) :
    world.Later (world.after config i now execution command) where
  settled sid settled := World.after_settled found settled
  kept sid entry settled there := by
    rcases kept.exec_records found sent prompt there with before | ⟨creation, rfl, first, same, _⟩
    · exact before
    · exact absurd first (settled.2 i creation found same)
  now := le_of_eq Redis.exec_now.symm

theorem Kept.after_first (kept : Kept config world) (found : world.executions[i]? = some (.create creation)) :
    (world.after config i now (.create creation) command).Settled creation.sid := by
  refine ⟨kept.named i creation found, ?_⟩
  intro j other there same first
  obtain ⟨before, was, own, at_first⟩ := World.after_creation found there
  exact (at_first first).2 (kept.unique j i before creation was found (own ▸ same))

theorem Check.react_read {running : Check} {reply : Reply} {record : SessionRecord}
    (read : (running.react config now reply).stage.read = some record) :
    running.stage.read = some record ∨ running.stage = .get ∧ reply = .record (some record) := by
  unfold Check.react at read
  split at read
  · cases read
  · rename_i stored stage
    have same : stored = record := by
      unfold Check.judge at read
      split at read
      · exact Option.some.inj read
      · split at read
        · exact Option.some.inj read
        · split at read
          · exact Option.some.inj read
          · cases read
    exact .inr ⟨stage, by rw [same]⟩
  · rename_i reason stored stage
    exact .inl (by rw [stage]; exact read)
  · cases read
  · cases read
  · exact .inl read

theorem Kept.proceed (kept : Kept config world) (found : world.executions[i]? = some execution)
    (sent : execution.command config = some command) (prompt : prompt world (.proceed i now) = true) :
    Kept config (world.after config i now execution command) := by
  have later := kept.after_later found sent prompt
  have records := fun (sid : Sid) (entry : Entry SessionRecord)
    (there : (world.redis.exec command).1.records sid = some entry) =>
    kept.exec_records found sent prompt there
  constructor
  · intro j creation there
    obtain ⟨before, was, same, _⟩ := World.after_creation found there
    rw [same]
    exact kept.named j before was
  · intro j k first second at_first at_second same
    obtain ⟨was_first, there_first, own_first, _⟩ := World.after_creation found at_first
    obtain ⟨was_second, there_second, own_second, _⟩ := World.after_creation found at_second
    exact kept.unique j k was_first was_second there_first there_second
      (own_first.symm.trans (same.trans own_second))
  · intro j other there sid handled
    rcases set_cases there with ⟨rfl, rfl⟩ | ⟨_, was⟩
    · rcases Execution.react_handles sent handled with before | ⟨user, listed⟩
      · exact later.settled sid (kept.settled j execution found sid before)
      · exact later.settled sid (kept.listed user sid listed)
    · exact later.settled sid (kept.settled j other was sid handled)
  · intro j other sid there buries
    rcases set_cases there with ⟨rfl, rfl⟩ | ⟨_, was⟩
    · rcases Execution.react_buries sent buries with before | ⟨handled, gone⟩
      · exact later.dead (kept.buried j execution sid found before)
      · exact ⟨later.settled sid (kept.settled j execution found sid handled), gone⟩
    · exact later.dead (kept.buried j other sid was buries)
  · intro j other there
    rcases set_cases there with ⟨rfl, rfl⟩ | ⟨differ, was⟩
    · have owns := kept.owns j execution found
      cases execution with
      | create creation =>
        have past := @Creation.react_past config creation (world.redis.exec command).2
        simp only [Execution.react, Execution.Owns, if_neg past.stage, past.sid, past.user, past.role]
        by_cases first : creation.stage = .set
        · intro entry stored
          simp only [Execution.Owns, if_pos first] at owns
          rcases records creation.sid entry stored with ⟨before, was, _⟩ | ⟨writer, same, _, _, rfl⟩
          · rw [owns] at was
            cases was
          · cases same
            refine ⟨rfl, _, rfl, ?_⟩
            exact later.expiry _
        · exact later.create (kept.past found first) first owns
      | check running =>
        have same : (running.react config now (world.redis.exec command).2).sid = running.sid := by
          unfold Check.react
          split <;> rfl
        have settled := kept.settled j _ found running.sid (List.mem_singleton_self _)
        intro record read entry stored
        rw [same] at stored
        rcases Check.react_read read with before | ⟨stage, reply⟩
        · exact later.check settled owns record before entry stored
        · obtain ⟨was, before, owner, _⟩ := later.kept _ entry settled stored
          simp only [Execution.command, Check.command, stage] at sent
          cases sent
          simp only [Redis.exec, Reply.record.injEq] at reply
          rw [before] at reply
          cases reply
          exact owner
      | delete | revoke => trivial
    · refine (kept.others later was ?_).2.2
      intro creation same first
      cases stored : (world.redis.exec command).1.records creation.sid with
      | none => exact stored
      | some entry =>
        exfalso
        subst same
        rcases records creation.sid entry stored with ⟨before, there, _⟩ | ⟨writer, rfl, _, own, _⟩
        · have owns := kept.owns j _ was
          simp only [Execution.Owns, if_pos first] at owns
          rw [owns] at there
          cases there
        · exact differ (kept.unique j i creation writer was found own.symm)
  · intro user sid there
    rcases Redis.exec_members there with before | ⟨score, rfl⟩
    · exact later.settled sid (kept.listed user sid before)
    · obtain ⟨creation, rfl, stage, _, rfl⟩ := Execution.command_cases sent
      exact later.settled _ (kept.past found (by rw [stage]; exact (by simp)))
  · intro sid entry there
    rcases records sid entry there with ⟨before, stored, _, expiry⟩ | ⟨creation, rfl, _, rfl, rfl⟩
    · obtain ⟨settled, at_, stamped⟩ := kept.stored sid before stored
      exact ⟨later.settled sid settled, at_, expiry.trans stamped⟩
    · exact ⟨kept.after_first found, _, rfl⟩

theorem World.known_settled (known : world.known sid = true)
    (other : ∀ creation, execution ≠ .create creation) : (world.begins execution [sid]).Settled sid := by
  refine ⟨List.mem_append_right _ (List.mem_singleton_self sid), ?_⟩
  intro i creation found same first
  rcases append_cases found with ⟨_, rfl⟩ | before
  · exact other creation rfl
  · have differ := List.all_eq_true.mp known _ (List.mem_of_getElem? before)
    simp only [first, decide_eq_true_eq] at differ
    exact differ same

theorem Kept.step (kept : Kept config world) (event : Event) (prompt : prompt world event = true) :
    Kept config (world.step config event) := by
  cases event with
  | create user role sid at_ =>
    simp only [World.step]
    split
    · exact kept
    · rename_i fresh
      refine kept.begins ?_ (fun sid there => by cases there) (fun sid => rfl) (fun running same => by cases same)
      intro creation same
      cases same
      exact ⟨by simpa using fresh, List.mem_singleton_self _, rfl⟩
  | check sid touch =>
    simp only [World.step]
    split
    · rename_i known
      refine kept.begins (fun creation same => by cases same) ?_ (fun sid => rfl) ?_
      · intro other handled
        cases List.mem_singleton.mp handled
        exact World.known_settled known (fun creation same => by cases same)
      · intro running same
        cases same
        rfl
    · exact kept
  | delete userId sid =>
    simp only [World.step]
    split
    · rename_i known
      refine kept.begins (fun creation same => by cases same) ?_ (fun sid => rfl)
        (fun running same => by cases same)
      intro other handled
      cases List.mem_singleton.mp handled
      exact World.known_settled known (fun creation same => by cases same)
    · exact kept
  | revoke userId exceptSid =>
    exact kept.begins (fun creation same => by cases same) (fun sid there => by cases there)
      (fun sid => rfl) (fun running same => by cases same)
  | proceed i now =>
    simp only [World.step]
    split
    · exact kept
    · rename_i execution found
      split
      · exact kept
      · rename_i command sent
        exact kept.proceed found sent prompt
  | passes milliseconds => exact kept.passes milliseconds

end Droplet.Sessions
