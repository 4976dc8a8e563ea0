import Droplet.Sessions.Service

/-! What the next command of a call is about, and what it does to the store. -/

namespace Droplet.Sessions

open Expiring

variable {config : Config}

def CreateStage.handles : CreateStage → List Sid
  | .walk member todo live => member :: (todo ++ live)
  | .prune member todo live => member :: (todo ++ live)
  | .evict oldest live => oldest :: live
  | .unlist oldest live => oldest :: live
  | _ => []

/-- Still to be deleted. -/
def RevokeStage.remaining : RevokeStage → List Sid
  | .del sid rest => sid :: rest
  | .zrem _ rest _ => rest
  | _ => []

def RevokeStage.handles : RevokeStage → List Sid
  | .del sid rest => sid :: rest
  | .zrem sid rest _ => sid :: rest
  | _ => []

def RevokeStage.buries : RevokeStage → Sid → Bool
  | .zrem own _ _, sid => own = sid
  | _, _ => false

def Execution.handles : Execution → List Sid
  | .create creation => creation.stage.handles
  | .check running => [running.sid]
  | .delete deletion => [deletion.sid]
  | .revoke revocation => revocation.stage.handles ++ revocation.listed

/-- Listed, not excepted, and not still to be deleted. -/
def Revocation.over (revocation : Revocation) (sid : Sid) : Bool :=
  revocation.listed.contains sid && !revocation.stage.remaining.contains sid &&
    revocation.exceptSid ≠ some sid

/-- Its record was deleted, or found missing. -/
def Execution.buries : Execution → Sid → Bool
  | .create creation, sid =>
    match creation.stage with
    | .prune member _ _ => member = sid
    | .unlist oldest _ => oldest = sid
    | _ => false
  | .check running, sid =>
    match running.stage with
    | .unlist _ _ => running.sid = sid
    | _ => false
  | .delete deletion, sid => deletion.stage ≠ .del && deletion.sid = sid
  | .revoke revocation, sid => revocation.stage.buries sid || revocation.over sid

section Steps

variable {redis : Redis} {now : ℤ} {execution : Execution} {command : Command} {sid : Sid}

variable {creation : Creation}

theorem Creation.cap_handles {live : List Sid}
    (there : sid ∈ (creation.cap config live).stage.handles) : sid ∈ live := by
  unfold Creation.cap at there
  split at there
  · split at there
    · cases there
    · split at there
      · cases there
      · exact there
  · cases there

theorem Creation.turn_handles {todo live : List Sid}
    (there : sid ∈ (creation.turn config todo live).stage.handles) : sid ∈ todo ∨ sid ∈ live := by
  unfold Creation.turn at there
  split at there
  · exact .inr (Creation.cap_handles there)
  · rcases List.mem_cons.mp there with rfl | later
    · exact .inl List.mem_cons_self
    · exact (List.mem_append.mp later).imp_left (List.mem_cons_of_mem _)

theorem Creation.cap_buries {live : List Sid} :
    (Execution.create (creation.cap config live)).buries sid = false := by
  unfold Creation.cap
  split
  · split
    · rfl
    · split <;> rfl
  · rfl

theorem Creation.turn_buries {todo live : List Sid} :
    (Execution.create (creation.turn config todo live)).buries sid = false := by
  unfold Creation.turn
  split
  · exact Creation.cap_buries
  · rfl

variable {revocation : Revocation} {rest : List Sid}

theorem Revocation.turn_listed :
    (revocation.turn rest).listed = revocation.listed ∧
      (revocation.turn rest).exceptSid = revocation.exceptSid := by
  unfold Revocation.turn
  split <;> exact ⟨rfl, rfl⟩

theorem Revocation.turn_handles (there : sid ∈ (revocation.turn rest).stage.handles) : sid ∈ rest := by
  unfold Revocation.turn at there
  split at there
  · cases there
  · rename_i first left kept
    have member : sid ∈ first :: left := there
    rw [← kept] at member
    exact List.dropWhile_subset _ member

theorem Revocation.turn_buries : (revocation.turn rest).stage.buries sid = false := by
  unfold Revocation.turn
  split <;> rfl

theorem Revocation.turn_remaining (there : sid ∈ rest) (kept : revocation.exceptSid ≠ some sid) :
    sid ∈ (revocation.turn rest).stage.remaining := by
  have left : sid ∈ rest.dropWhile fun sid => revocation.exceptSid = some sid := by
    induction rest with
    | nil => cases there
    | cons first rest ih =>
      rw [List.dropWhile_cons]
      split
      · rename_i excepted
        rcases List.mem_cons.mp there with rfl | later
        · exact absurd (of_decide_eq_true excepted) kept
        · exact ih later
      · exact there
  unfold Revocation.turn
  split
  · rename_i none
    rw [none] at left
    cases left
  · rename_i first rest some
    rw [some] at left
    exact left

theorem Revocation.turn_over (gone : (revocation.turn rest).over sid = true) :
    sid ∈ revocation.listed ∧ sid ∉ rest ∧ revocation.exceptSid ≠ some sid := by
  simp only [Revocation.over, Revocation.turn_listed.1, Revocation.turn_listed.2, Bool.and_eq_true,
    List.contains_iff_mem, Bool.not_eq_true', decide_eq_true_eq, ← Bool.not_eq_true] at gone
  obtain ⟨⟨listed, gone⟩, kept⟩ := gone
  exact ⟨listed, fun there => gone (Revocation.turn_remaining there kept), kept⟩

section

variable (sent : execution.command config = some command)
include sent

theorem Execution.react_handles (there : sid ∈ (execution.react config now (redis.exec command).2).handles) :
    sid ∈ execution.handles ∨ ∃ user, sid ∈ (redis.index user).members := by
  cases execution with
  | create creation =>
    obtain ⟨user, role, own, at_, stage, evicted⟩ := creation
    cases stage <;> cases sent <;>
      simp only [Execution.react, Creation.react, Redis.exec, Execution.handles] at there ⊢
    case create.set.refl => cases there
    case create.zadd.refl => cases there
    case create.expireNx.refl => cases there
    case create.expireGt.refl => cases there
    case create.zrange.refl =>
      rcases Creation.turn_handles there with listed | none
      · exact .inr ⟨user, listed⟩
      · cases none
    case create.walk.refl member todo live =>
      refine .inl ?_
      split at there
      · rcases Creation.turn_handles there with later | before
        · exact List.mem_cons_of_mem _ (List.mem_append_left _ later)
        · rcases List.mem_append.mp before with before | new
          · exact List.mem_cons_of_mem _ (List.mem_append_right _ before)
          · cases List.mem_singleton.mp new
            exact List.mem_cons_self
      · exact there
    case create.prune.refl member todo live =>
      refine .inl (List.mem_cons_of_mem _ (List.mem_append.mpr ?_))
      exact Creation.turn_handles there
    case create.evict.refl => exact .inl there
    case create.unlist.refl => exact .inl (List.mem_cons_of_mem _ (Creation.cap_handles there))
  | check running =>
    refine .inl ?_
    have same : (running.react config now (redis.exec command).2).sid = running.sid := by
      unfold Check.react
      split <;> rfl
    simpa [Execution.react, Execution.handles, same] using there
  | delete deletion =>
    refine .inl ?_
    have same : deletion.react.sid = deletion.sid := by
      unfold Deletion.react
      split <;> rfl
    simpa [Execution.react, Execution.handles, same] using there
  | revoke revocation =>
    obtain ⟨user, excepted, stage, listed, revoked⟩ := revocation
    cases stage <;> cases sent <;>
      simp only [Execution.react, Revocation.react, Redis.exec, Execution.handles,
        Revocation.turn_listed.1] at there ⊢
    case revoke.zrange.refl =>
      rcases List.mem_append.mp there with left | listed
      · exact .inr ⟨user, Revocation.turn_handles left⟩
      · exact .inr ⟨user, listed⟩
    case revoke.del.refl => exact .inl there
    case revoke.zrem.refl =>
      refine .inl ?_
      rcases List.mem_append.mp there with left | listed
      · exact List.mem_append_left _ (List.mem_cons_of_mem _ (Revocation.turn_handles left))
      · exact List.mem_append_right _ listed

theorem Execution.react_buries (buries : (execution.react config now (redis.exec command).2).buries sid = true) :
    execution.buries sid = true ∨ sid ∈ execution.handles ∧
      (redis.exec command).1.records sid = none := by
  cases execution with
  | create creation =>
    obtain ⟨user, role, own, at_, stage, evicted⟩ := creation
    cases stage <;> cases sent <;>
      simp only [Execution.react, Creation.react, Redis.exec] at buries ⊢
    case create.set.refl => cases buries
    case create.zadd.refl => cases buries
    case create.expireNx.refl => cases buries
    case create.expireGt.refl => cases buries
    case create.zrange.refl =>
      rw [Creation.turn_buries] at buries
      cases buries
    case create.walk.refl member todo live =>
      split at buries
      · rw [Creation.turn_buries] at buries
        cases buries
      · rename_i missing
        have same : member = sid := of_decide_eq_true buries
        subst same
        exact .inr ⟨List.mem_cons_self, by simpa using missing⟩
    case create.prune.refl member todo live =>
      rw [Creation.turn_buries] at buries
      cases buries
    case create.evict.refl oldest live =>
      have same : oldest = sid := of_decide_eq_true buries
      subst same
      exact .inr ⟨List.mem_cons_self, drop_self⟩
    case create.unlist.refl =>
      rw [Creation.cap_buries] at buries
      cases buries
  | check running =>
    obtain ⟨own, touch, stage⟩ := running
    cases stage <;> cases sent <;>
      simp only [Execution.react, Check.react, Redis.exec] at buries ⊢
    case check.get.refl =>
      exfalso
      cases found : redis.records own with
      | none =>
        rw [found] at buries
        cases buries
      | some entry =>
        rw [found] at buries
        simp only [Option.map_some, Check.judge] at buries
        split at buries
        · cases buries
        · split at buries
          · cases buries
          · split at buries <;> cases buries
    case check.destroy.refl =>
      have same : own = sid := of_decide_eq_true buries
      subst same
      exact .inr ⟨List.mem_singleton_self _, drop_self⟩
    case check.unlist.refl => cases buries
    case check.touch.refl => cases buries
  | delete deletion =>
    obtain ⟨user, own, stage⟩ := deletion
    cases stage <;> cases sent <;>
      simp only [Execution.react, Deletion.react, Redis.exec] at buries ⊢
    case delete.del.refl =>
      simp only [Execution.buries, Bool.and_eq_true, decide_eq_true_eq] at buries
      obtain ⟨_, rfl⟩ := buries
      exact .inr ⟨List.mem_singleton_self _, drop_self⟩
    case delete.zrem.refl =>
      simp only [Execution.buries, Bool.and_eq_true, decide_eq_true_eq] at buries ⊢
      exact .inl ⟨by decide, buries.2⟩
  | revoke revocation =>
    obtain ⟨user, excepted, stage, listed, revoked⟩ := revocation
    cases stage <;> cases sent <;>
      simp only [Execution.react, Revocation.react, Redis.exec, Execution.buries] at buries ⊢
    case revoke.zrange.refl =>
      rw [Revocation.turn_buries, Bool.false_or] at buries
      have gone := Revocation.turn_over buries
      exact absurd gone.1 gone.2.1
    case revoke.del.refl own rest =>
      simp only [RevokeStage.buries, Revocation.over, RevokeStage.remaining, Bool.or_eq_true,
        Bool.and_eq_true, List.contains_iff_mem, Bool.not_eq_true', decide_eq_true_eq,
        ← Bool.not_eq_true] at buries ⊢
      by_cases same : own = sid
      · subst same
        exact .inr ⟨List.mem_cons_self, drop_self⟩
      · obtain ⟨⟨there, gone⟩, kept⟩ := buries.resolve_left same
        refine .inl (.inr ⟨⟨there, ?_⟩, kept⟩)
        intro remains
        rcases List.mem_cons.mp remains with first | later
        · exact same first.symm
        · exact gone later
    case revoke.zrem.refl own rest removed =>
      rw [Revocation.turn_buries, Bool.false_or] at buries
      obtain ⟨there, gone, kept⟩ := Revocation.turn_over buries
      refine .inl ?_
      simp only [RevokeStage.buries, Revocation.over, RevokeStage.remaining, Bool.or_eq_true,
        Bool.and_eq_true, List.contains_iff_mem, Bool.not_eq_true', decide_eq_true_eq,
        ← Bool.not_eq_true]
      exact .inr ⟨⟨there, gone⟩, kept⟩

theorem Execution.command_cases :
    match command with
    | .setEx sid record seconds => ∃ creation, execution = .create creation ∧ creation.stage = .set ∧
        sid = creation.sid ∧ record = creation.record ∧ seconds = gcTtl config creation.role
    | .setKeepTtl sid record => ∃ running read at_, execution = .check running ∧
        running.stage = .touch read at_ ∧ sid = running.sid ∧ record = { read with lastSeenAt := at_ }
    | .zadd user _ sid => ∃ creation, execution = .create creation ∧ creation.stage = .zadd ∧
        user = creation.user ∧ sid = creation.sid
    | .zrem _ sid => execution.buries sid = true
    | .expireNx user seconds => ∃ creation, execution = .create creation ∧
        creation.stage = .expireNx ∧ user = creation.user ∧ seconds = gcTtl config creation.role
    | .expireGt user seconds => ∃ creation, execution = .create creation ∧
        creation.stage = .expireGt ∧ user = creation.user ∧ seconds = gcTtl config creation.role
    | _ => True := by
  cases execution with
  | create creation =>
    cases stage : creation.stage <;> simp only [Execution.command, Creation.command, stage] at sent <;>
      cases sent <;> simp [Execution.buries, stage]
  | check running =>
    cases stage : running.stage <;> simp only [Execution.command, Check.command, stage] at sent <;>
      cases sent <;> simp [Execution.buries, stage]
  | delete deletion =>
    cases stage : deletion.stage <;>
      simp only [Execution.command, Deletion.command, stage] at sent <;>
      cases sent <;> simp [Execution.buries, stage]
  | revoke revocation =>
    cases stage : revocation.stage <;>
      simp only [Execution.command, Revocation.command, stage] at sent <;>
      cases sent <;> simp [Execution.buries, RevokeStage.buries, stage]

end

end Steps

section Store

variable {redis : Redis} {command : Command} {sid : Sid} {user other : UserId}
  {entry : Entry SessionRecord} {set : Scored Sid}

theorem Redis.exec_records (found : (redis.exec command).1.records sid = some entry) :
    redis.records sid = some entry ∨
      (∃ record seconds, command = .setEx sid record seconds ∧
        entry = ⟨record, some (redis.expiry seconds)⟩) ∨
      ∃ record, command = .setKeepTtl sid record ∧
        entry = ⟨record, (redis.records sid).bind Entry.expiry⟩ := by
  cases command with
  | setEx own record seconds =>
    by_cases same : sid = own
    · subst same
      simp only [Redis.exec, put_self] at found
      cases found
      exact .inr (.inl ⟨record, seconds, rfl, rfl⟩)
    · simp only [Redis.exec, put_other same] at found
      exact .inl found
  | setKeepTtl own record =>
    by_cases same : sid = own
    · subst same
      simp only [Redis.exec, overwrite, put_self] at found
      cases found
      exact .inr (.inr ⟨record, rfl, rfl⟩)
    · simp only [Redis.exec, overwrite, put_other same] at found
      exact .inl found
  | del own => exact .inl (drop_some found).1
  | _ => exact .inl found

theorem Redis.setIndex_index : (redis.setIndex user set).index other =
    if other = user then set else redis.index other := by
  unfold Redis.setIndex Redis.index
  by_cases same : other = user
  · subst same
    by_cases empty : set.isEmpty
    · simp [List.isEmpty_iff.mp empty]
    · simp [empty, overwrite]
  · by_cases empty : set.isEmpty
    · simp [empty, same, drop_other]
    · simp [empty, same, overwrite, put_other]

theorem Redis.exec_members (there : sid ∈ ((redis.exec command).1.index user).members) :
    sid ∈ (redis.index user).members ∨ ∃ score, command = .zadd user score sid := by
  cases command with
  | zadd own score member =>
    simp only [Redis.exec, Redis.setIndex_index] at there
    split at there
    · rename_i same
      subst same
      rcases Scored.mem_add.mp there with rfl | before
      · exact .inr ⟨score, rfl⟩
      · exact .inl before
    · exact .inl there
  | zrem own member =>
    simp only [Redis.exec, Redis.setIndex_index] at there
    split at there
    · rename_i same
      subst same
      exact .inl (Scored.mem_remove.mp there).1
    · exact .inl there
  | expireNx own seconds =>
    simp only [Redis.exec, Redis.index, expireNx_value] at there
    exact .inl there
  | expireGt own seconds =>
    simp only [Redis.exec, Redis.index, expireGt_value] at there
    exact .inl there
  | _ => exact .inl there

theorem Redis.exec_now : (redis.exec command).1.now = redis.now := by
  cases command <;> rfl

theorem Redis.passes_members {milliseconds : ℕ}
    (there : sid ∈ ((redis.passes milliseconds).index user).members) : sid ∈ (redis.index user).members := by
  cases found : (redis.passes milliseconds).indexes user with
  | none =>
    simp only [Redis.index, found] at there
    cases there
  | some entry =>
    have before := (purge_some.mp found).1
    simp only [Redis.index, found, before] at there ⊢
    exact there

end Store

end Droplet.Sessions
