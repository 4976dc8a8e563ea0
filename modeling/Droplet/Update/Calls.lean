import Droplet.Update.Stages

/-! What the tasks and the detached helpers do to the host. -/

namespace Droplet.Update

inductive Task.Calls (host : Host) : Task → HostOp → Prop
  | pin (work : Run) : work.stage = .pin →
      Calls host (.run work) (.pin work.id work.manifest work.refs)
  | save (work : Run) : work.stage = .save → Calls host (.run work) (.save work.id)
  | stageConfigs (work : Run) : work.stage = .stageConfigs →
      Calls host (.run work) (.stageConfigs work.id work.manifest.configs)
  | restores (work : Run) : work.stage = .refuse ∨ work.stage = .rollbackConfigs →
      (host.dirs work.id).preImage ≠ none → Calls host (.run work) (.restoreConfigs work.id)
  | recreates (work : Run) (services : List String) (left : List (String × Option String)) :
      work.stage = .recreate → (host.dirs work.id).release ≠ none →
      Calls host (.run work) (.recreate work.id .release services left)
  | rollsBack (work : Run) (services : List String) (left : List (String × Option String)) :
      work.stage = .rollbackServices → (host.dirs work.id).previous ≠ none →
      Calls host (.run work) (.recreate work.id .previous services left)
  | launches (work : Run) : work.stage = .swapSelf → host.swapMaterial work.id .release →
      Calls host (.run work) (.launch work.id .release)
  | resumeRestores (work : Resume) : work.stage = .rollbackConfigs →
      (host.dirs work.id).preImage ≠ none → Calls host (.resume work) (.restoreConfigs work.id)
  | resumeRollsBack (work : Resume) (services : List String)
      (left : List (String × Option String)) : work.stage = .rollbackServices →
      (host.dirs work.id).previous ≠ none →
      Calls host (.resume work) (.recreate work.id .previous services left)
  | resumeLaunches (work : Resume) : work.stage = .swapBack →
      host.swapMaterial work.id .previous → Calls host (.resume work) (.launch work.id .previous)
  | starts (work : Resume) (images : Pins) : work.stage.settled →
      Calls host (.resume work) (.start images)

theorem Run.Calls.task {run : Run} {host : Host} {op : HostOp} {next : RunStage}
    (calls : run.Calls host run.stage op next) : Task.Calls host (.run run) op := by
  generalize before : run.stage = stage at calls
  cases calls with
  | pin => exact .pin run before
  | save => exact .save run before
  | stageConfigs => exact .stageConfigs run before
  | refuse saved => exact .restores run (.inl before) saved
  | restore saved => exact .restores run (.inr before) saved
  | launch material => exact .launches run before material

/-- A reaction either leaves the host alone, or is one call of the runner and nothing else. -/
theorem Task.react_calls (table : Table) (host : Host) (inFlight : Bool) (fresh : ClaimId)
    (task : Task) (answer : Answer) :
    let reaction := task.react table host inFlight fresh answer
    reaction.host = .nothing ∨
      (Task.Calls host task reaction.host ∧ reaction.db = .nothing ∧ reaction.notes = []) := by
  cases task with
  | done | retry | poll | applyNow | skip =>
    simp only [Task.react, retryReact, pollReact, applyNowReact, skipReact]
    repeat' split
    all_goals exact .inl rfl
  | run work =>
    have did := Run.react_did work table host answer
    simp only [Task.react]
    generalize work.react table host answer = reaction at did
    cases did with
    | calls _ _ calls | callThrew _ _ calls => exact .inr ⟨calls.task, rfl, rfl⟩
    | recreates target next left recreates pinned =>
      refine .inr ⟨?_, rfl, rfl⟩
      generalize before : work.stage = stage at recreates
      cases recreates with
      | release => exact .recreates work _ left before pinned
      | previous => exact .rollsBack work _ left before pinned
    | _ => exact .inl rfl
  | resume work =>
    have did := Resume.react_did work table host answer
    simp only [Task.react]
    generalize work.react table host answer = reaction at did
    cases did with
    | restores task stage saved _ => exact .inr ⟨.resumeRestores work stage saved, rfl, rfl⟩
    | recreates left task stage pinned _ =>
      exact .inr ⟨.resumeRollsBack work _ left stage pinned, rfl, rfl⟩
    | launches stage material => exact .inr ⟨.resumeLaunches work stage material, rfl, rfl⟩
    | starts services images next stage _ =>
      exact .inr ⟨.starts work images (by rw [stage]; rfl), rfl, rfl⟩
    | _ => exact .inl rfl

/-- What a helper does in one step: the host it leaves, before it moves on itself, and what the trace
gains. -/
inductive HelperMove (box : Box) (helper : Helper) : Host → List Entry → Prop
  | nothing : HelperMove box helper box.host []
  | swaps : helper.stage = .swap →
      HelperMove box helper
        ((HostOp.recreate helper.row helper.target [selfServiceName] []).apply box.host)
        [.recreated helper.row helper.target (box.table.row helper.row).status box.host.refs
          (((box.host.dirs helper.row).override helper.target).getD [])]
  | restores (tree : Tree) : helper.stage = .restore →
      (box.host.dirs helper.row).preImage = some tree →
      HelperMove box helper { box.host with tree } [.restored helper.row tree]
  | rollsBack (pins : Pins) (left : List (String × Option String)) : helper.stage = .rollback →
      (box.host.dirs helper.row).previous = some pins →
      HelperMove box helper
        ((HostOp.recreate helper.row .previous (pins.map Prod.fst) left).apply box.host)
        [.recreated helper.row .previous (box.table.row helper.row).status box.host.refs pins]

structure HelperStepped (box after : Box) (i : ℕ) (helper : Helper) (host : Host)
    (entries : List Entry) : Prop where
  move : HelperMove box helper host entries
  trace : after.trace = entries ++ box.trace
  boots : after.boots = box.boots
  host : after.host = host ∨
    ∃ stage, stage ≠ .swap ∧
      after.host = { host with helpers := host.helpers.set i { helper with stage } }

variable {helper : Helper}

theorem helperRestores_move (box : Box) (stage : helper.stage = .restore) :
    ∃ host entries, HelperMove box helper host entries ∧
      (box.helperRestores helper).trace = entries ++ box.trace ∧
      (box.helperRestores helper).boots = box.boots ∧ (box.helperRestores helper).host = host := by
  unfold Box.helperRestores
  cases saved : (box.host.dirs helper.row).preImage with
  | none => exact ⟨_, _, .nothing, rfl, rfl, rfl⟩
  | some tree =>
    refine ⟨_, _, .restores tree stage saved, ?_⟩
    simp [HostOp.apply, HostOp.entries, saved]

theorem helperRollsBack_move (box : Box) (stage : helper.stage = .rollback)
    (left : List (String × Option String)) :
    ∃ host entries, HelperMove box helper host entries ∧
      (box.helperRollsBack helper left).trace = entries ++ box.trace ∧
      (box.helperRollsBack helper left).boots = box.boots ∧
      (box.helperRollsBack helper left).host = host := by
  unfold Box.helperRollsBack
  split
  · exact ⟨_, _, .nothing, rfl, rfl, rfl⟩
  · rename_i pins pinned
    refine ⟨_, _, .rollsBack pins left stage pinned, ?_⟩
    split <;> simp [HostOp.apply, HostOp.entries, pinned, UpdateDir.override, Box.die]

theorem afterSwap_ne_swap (target : RecreateTarget) : Box.afterSwap target ≠ .swap := by
  cases target <;> simp [Box.afterSwap]

theorem helperStep_stepped (box : Box) (i : ℕ) (helper : Helper) (answer : Answer) :
    ∃ host entries,
      HelperStepped box (box.helperStep i helper answer) i helper host entries := by
  have still : ∃ host entries, HelperStepped box box i helper host entries :=
    ⟨_, _, .nothing, rfl, rfl, .inl rfl⟩
  have moves : ∀ stage, stage ≠ .swap → ∃ host entries,
      HelperStepped box (box.setHelper i helper stage) i helper host entries := by
    intro stage onward
    exact ⟨_, _, .nothing, rfl, rfl, .inr ⟨stage, onward, rfl⟩⟩
  unfold Box.helperStep
  split
  · rename_i swap
    split
    · exact ⟨_, _, .swaps swap, rfl, rfl, .inr ⟨.wait, by decide, rfl⟩⟩
    · exact ⟨_, _, .swaps swap, rfl, rfl, .inr ⟨_, afterSwap_ne_swap _, rfl⟩⟩
    · exact moves _ (afterSwap_ne_swap _)
    · exact still
  · split
    · exact moves _ (by decide)
    · exact moves _ (afterSwap_ne_swap _)
    · exact still
  · rename_i restore
    obtain ⟨host, entries, move, trace, boots, same⟩ := helperRestores_move box restore
    have restores : ∃ host entries, HelperStepped box
        ((box.helperRestores helper).setHelper i helper .rollback) i helper host entries := by
      refine ⟨host, entries, move, trace, boots, .inr ⟨.rollback, by decide, ?_⟩⟩
      simp only [Box.setHelper, same]
    split
    · exact restores
    · exact restores
    · exact moves _ (by decide)
    · exact still
  · rename_i rollback
    split
    · rename_i left
      obtain ⟨host, entries, move, trace, boots, same⟩ := helperRollsBack_move box rollback left
      refine ⟨host, entries, move, trace, boots, .inr ⟨.gone, by decide, ?_⟩⟩
      simp only [Box.setHelper, same]
    · exact still
  · exact still

theorem HelperMove.helpers {box : Box} {host : Host} {entries : List Entry}
    (move : HelperMove box helper host entries) : host.helpers = box.host.helpers := by
  cases move <;> rfl

theorem HelperStepped.waiting {box after : Box} {i : ℕ} {host : Host} {entries : List Entry}
    (stepped : HelperStepped box after i helper host entries) {other : Helper}
    (member : other ∈ after.host.helpers) (stage : other.stage = .swap) : other ∈ box.host.helpers := by
  rcases stepped.host with stays | ⟨next, onward, goes⟩
  · rw [stays, stepped.move.helpers] at member
    exact member
  · rw [goes] at member
    rcases List.mem_or_eq_of_mem_set member with old | rfl
    · exact stepped.move.helpers ▸ old
    · exact absurd stage onward

theorem Box.setHelper_waiting {box : Box} {i : ℕ} {helper other : Helper}
    (member : other ∈ (box.setHelper i helper .gone).host.helpers) (stage : other.stage = .swap) :
    other ∈ box.host.helpers := by
  rcases List.mem_or_eq_of_mem_set member with old | rfl
  · exact old
  · cases stage

end Droplet.Update
