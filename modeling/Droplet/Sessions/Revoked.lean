import Droplet.Sessions.Records

/-! A session that has ended stays dead, and whoever begins to check it is told that it is missing. -/

namespace Droplet.Sessions

open Expiring Places

variable {config : Config} {world : World} {execution : Execution} {sid : Sid}

/-- A call that has ended the session has returned. -/
def Execution.ends : Execution → Sid → Bool
  | .delete deletion, sid => deletion.stage = .done && deletion.sid = sid
  | .revoke revocation, sid =>
    match revocation.stage with
    | .done => revocation.listed.contains sid && revocation.exceptSid ≠ some sid
    | _ => false
  | _, _ => false

theorem Execution.ends_buries (ends : execution.ends sid = true) : execution.buries sid = true := by
  cases execution with
  | create | check => cases ends
  | delete deletion =>
    simp only [Execution.ends, Bool.and_eq_true, decide_eq_true_eq] at ends
    simp [Execution.buries, ends.1, ends.2]
  | revoke revocation =>
    cases stage : revocation.stage <;> simp only [Execution.ends, stage] at ends
    case done =>
      simp only [Execution.buries, Revocation.over, stage, RevokeStage.remaining]
      simpa [RevokeStage.buries] using ends
    all_goals cases ends

/-- The sid is dead, and nobody who has begun to check it since was told anything else. -/
structure Barred (config : Config) (sid : Sid) (since : ℕ) (world : World) : Prop where
  kept : Kept config world
  dead : world.Dead sid
  missed : ∀ (i : ℕ) (running : Check), since ≤ i → world.executions[i]? = some (.check running) →
    running.sid = sid → running.stage = .get ∨ running.stage = .done .missing

theorem Kept.step_later (kept : Kept config world) (event : Event)
    (prompt : prompt world event = true) : world.Later (world.step config event) := by
  have same : world.Later world :=
    ⟨fun sid settled => settled, fun sid entry _ found => ⟨entry, found, rfl, rfl⟩, le_refl _⟩
  cases event with
  | create user role sid at_ =>
    simp only [World.step]
    split
    · exact same
    · rename_i fresh
      refine World.begins_later ?_
      intro creation new
      cases new
      simpa using fresh
  | check | delete =>
    simp only [World.step]
    split
    · exact World.begins_later (fun creation new => by cases new)
    · exact same
  | revoke userId exceptSid => exact World.begins_later (fun creation new => by cases new)
  | proceed i now =>
    simp only [World.step]
    split
    · exact same
    · rename_i execution found
      split
      · exact same
      · rename_i command sent
        exact kept.after_later found sent prompt
  | passes milliseconds => exact World.passes_later milliseconds

theorem Barred.step {since : ℕ} (barred : Barred config sid since world) (event : Event)
    (prompt : prompt world event = true) : Barred config sid since (world.step config event) := by
  refine ⟨barred.kept.step event prompt, (barred.kept.step_later event prompt).dead barred.dead, ?_⟩
  have missed := barred.missed
  -- a new call is at its first command
  have begun : ∀ execution sids, (∀ running, execution = .check running → running.stage = .get) →
      ∀ (i : ℕ) (running : Check), since ≤ i →
        (world.begins execution sids).executions[i]? = some (.check running) →
          running.sid = sid → running.stage = .get ∨ running.stage = .done .missing := by
    intro execution sids first i running later found own
    rcases append_cases found with ⟨_, same⟩ | before
    · exact .inl (first running same.symm)
    · exact missed i running later before own
  cases event with
  | create user role other at_ =>
    simp only [World.step]
    split
    · exact missed
    · exact begun _ _ (fun running same => by cases same)
  | check other touch =>
    simp only [World.step]
    split
    · refine begun _ _ ?_
      intro running same
      cases same
      rfl
    · exact missed
  | delete userId other =>
    simp only [World.step]
    split
    · exact begun _ _ (fun running same => by cases same)
    · exact missed
  | revoke userId exceptSid => exact begun _ _ (fun running same => by cases same)
  | passes milliseconds => exact missed
  | proceed j now =>
    simp only [World.step]
    split
    · exact missed
    · rename_i execution found
      split
      · exact missed
      · rename_i command sent
        intro i running later there own
        rcases set_cases there with ⟨rfl, moved⟩ | ⟨_, before⟩
        · cases execution with
          | check was =>
            simp only [Execution.react, Execution.check.injEq] at moved
            subst moved
            have same : (was.react config now (world.redis.exec command).2).sid = was.sid := by
              unfold Check.react
              split <;> rfl
            rcases missed i was later found (same ▸ own) with first | over_
            · simp only [Execution.command, Check.command, first] at sent
              cases sent
              have gone := barred.dead.2
              rw [← own, same] at gone
              simp [Check.react, first, Redis.exec, gone]
            · simp only [Execution.command, Check.command, over_] at sent
              cases sent
          | _ => cases moved
        · exact missed i running later before own

end Droplet.Sessions
