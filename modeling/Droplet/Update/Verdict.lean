import Droplet.Update.Swap

/-! What a commit rests on: a resume of the same boot has read the refs, found the orchestrator of the
release running, and seen every deployed service healthy. -/

namespace Droplet.Update

open Places

/-- The refs of a boot name the orchestrator of the release, and its gate found every deployed service
healthy. -/
def Proved (trace : List Entry) (manifest : ReleaseManifest) (boot row : ℕ) (refs : Refs) : Prop :=
  .refsRead boot row refs ∈ trace ∧ runningTarget manifest refs ∧
    ∃ probes, .gated boot row (deployed manifest refs) probes ∈ trace ∧
      healthGate (deployed manifest refs) probes = none

theorem Proved.mono {trace : List Entry} {manifest : ReleaseManifest} {boot row : ℕ} {refs : Refs}
    (proved : Proved trace manifest boot row refs) (more : List Entry) :
    Proved (more ++ trace) manifest boot row refs := by
  obtain ⟨read, target, probes, gated, healthy⟩ := proved
  exact ⟨List.mem_append_right more read, target, probes, List.mem_append_right more gated, healthy⟩

structure Resume.Backed (work : Resume) (trace : List Entry) : Prop where
  read : (work.stage = .listen ∨ ∃ yes, work.stage = .gate yes) →
    .refsRead work.boot work.id work.refs ∈ trace
  proved : ∀ seen reason outcome, work.stage = .observe .committed reason outcome ∨
    work.stage = .write seen .committed reason outcome →
    Proved trace work.manifest work.boot work.id work.refs

theorem Resume.Backed.mono {work : Resume} {trace : List Entry} (backed : work.Backed trace)
    (more : List Entry) : work.Backed (more ++ trace) where
  read stage := List.mem_append_right more (backed.read stage)
  proved seen reason outcome stage := (backed.proved seen reason outcome stage).mono more

theorem Resume.Backed.of_other {work : Resume} (trace : List Entry) (notListen : work.stage ≠ .listen)
    (notGate : ∀ yes, work.stage ≠ .gate yes)
    (notCommitted : ∀ seen reason outcome, work.stage ≠ .observe .committed reason outcome ∧
      work.stage ≠ .write seen .committed reason outcome) : work.Backed trace where
  read stage := by
    rcases stage with stage | ⟨yes, stage⟩
    · exact absurd stage notListen
    · exact absurd stage (notGate yes)
  proved seen reason outcome stage := by
    rcases stage with stage | stage
    · exact absurd stage (notCommitted seen reason outcome).1
    · exact absurd stage (notCommitted seen reason outcome).2

theorem Resume.react_backed {work next : Resume} {table : Table} {host : Host} {answer : Answer}
    {trace : List Entry} (backed : work.Backed trace) (goes : (work.react table host answer).task = .resume next) :
    next.boot = work.boot ∧ next.id = work.id ∧ next.seen = work.seen ∧
      next.Backed ((work.react table host answer).notes ++ trace) := by
  have did := react_did work table host answer
  generalize work.react table host answer = reaction at did goes
  cases did with
  | stays =>
    cases goes
    exact ⟨rfl, rfl, rfl, backed.mono []⟩
  | ends | launches | records => cases goes
  | passes stage passes =>
    cases goes
    refine ⟨rfl, rfl, rfl, ?_⟩
    generalize before : work.stage = first at passes
    cases passes with
    | listens yes =>
      refine ⟨fun _ => backed.read (.inl before), ?_⟩
      intro seen reason outcome stage
      rcases stage with stage | stage <;> cases stage
    | observed target reason outcome edge =>
      refine ⟨?_, ?_⟩
      · intro stage
        rcases stage with stage | ⟨yes, stage⟩ <;> cases stage
      · intro seen reason' outcome' stage
        rcases stage with stage | stage
        · cases stage
        · cases stage
          exact backed.proved .pending _ _ (.inl before)
    | _ => exact .of_other _ (by simp) (by simp) (by simp)
  | readsRefs stage =>
    cases goes
    refine ⟨rfl, rfl, rfl, fun _ => List.mem_append_left _ (List.mem_singleton.mpr rfl), ?_⟩
    intro seen reason outcome stage
    rcases stage with stage | stage <;> cases stage
  | gates probes stage gate judged =>
    cases goes
    refine ⟨rfl, rfl, rfl, ?_⟩
    cases judged with
    | commits target healthy =>
      refine ⟨?_, ?_⟩
      · intro stage
        rcases stage with stage | ⟨yes, stage⟩ <;> cases stage
      · intro _ _ _ _
        exact ⟨List.mem_append_right _ (backed.read (.inr ⟨true, gate⟩)), target, probes,
          List.mem_append_left _ (List.mem_singleton.mpr rfl), healthy⟩
    | _ => exact .of_other _ (by simp) (by simp) (by simp)
  | restores _ _ _ next' | recreates _ _ _ _ next' =>
    rcases next' with ends | same
    · rw [ends] at goes
      cases goes
    · rw [same] at goes
      cases goes
      exact ⟨rfl, rfl, rfl, .of_other _ (by simp) (by simp) (by simp)⟩
  | writes seen target reason outcome task stage next' =>
    rcases next' with ends | ⟨-, -, same⟩
    · rw [ends] at goes
      cases goes
    · rw [same] at goes
      cases goes
      exact ⟨rfl, rfl, rfl, .of_other _ (by simp) (by simp) (by simp)⟩
  | starts services images stage start next' =>
    cases goes
    rcases next' with ⟨outcome, rfl⟩ | ⟨started, rfl⟩
    all_goals exact ⟨rfl, rfl, rfl, .of_other _ (by simp) (by simp) (by simp)⟩

def Box.manifest (box : Box) (row : ℕ) : ReleaseManifest := (box.table.row row).release.manifest

structure Evidence (box : Box) : Prop where
  resumes : ∀ (j : ℕ) (work : Resume), box.tasks[j]? = some (.resume work) →
    work.boot = box.boots ∧ work.manifest = box.manifest work.id ∧ work.Backed box.trace
  committed : ∀ row boot tree, .reached row .committed boot tree ∈ box.trace →
    row < box.table.count ∧ ∃ refs, Proved box.trace (box.manifest row) boot row refs

theorem Evidence.fresh (host : Host) : Evidence (Box.fresh host) := by
  constructor <;> simp [Box.fresh]

theorem manifest_step (box : Box) (event : Event) {row : ℕ} (known : row < box.table.count) :
    (box.step event).manifest row = box.manifest row := by
  unfold Box.manifest
  rcases Box.step_table box event with same | ⟨i, answer, task, -, -, writes⟩ | ⟨-, boot⟩
  · rw [same]
  · rw [writes, DbWrite.apply_release known]
  · rw [boot, clearClaims_release]

theorem Evidence.extend {box after : Box} (evidence : Evidence box)
    {event : Event} (step : after = box.step event) (entries : List Entry)
    (trace : after.trace = entries ++ box.trace)
    (resumes : ∀ (j : ℕ) (work : Resume), after.tasks[j]? = some (.resume work) →
      work.boot = after.boots ∧ work.manifest = after.manifest work.id ∧ work.Backed after.trace)
    (reached : ∀ row boot tree, .reached row .committed boot tree ∈ entries →
      row < box.table.count ∧ ∃ refs, Proved box.trace (box.manifest row) boot row refs) :
    Evidence after := by
  refine ⟨resumes, ?_⟩
  intro row boot tree found
  rw [trace, List.mem_append] at found
  have before : row < box.table.count ∧ ∃ refs, Proved box.trace (box.manifest row) boot row refs := by
    rcases found with new | old
    · exact reached row boot tree new
    · exact evidence.committed row boot tree old
  obtain ⟨known, refs, proved⟩ := before
  subst step
  refine ⟨lt_of_lt_of_le known (count_step box event), refs, ?_⟩
  rw [manifest_step box event known, trace]
  exact proved.mono entries

theorem Evidence.reached {box : Box} (targeted : box.Targeted) (evidence : Evidence box)
    {i : ℕ} {task : Task} {answer : Answer} (current : box.tasks[i]? = some task) {row boot : ℕ} {tree : Tree}
    (found : .reached row .committed boot tree ∈
      box.added (box.react task answer)) :
    ∃ work : Resume, task = .resume work ∧ work.id = row ∧
      ∃ refs, Proved box.trace (box.manifest row) boot row refs := by
  have floor := box.floorKept task answer
  rcases Box.added_cases box task answer with ⟨-, none⟩ | ⟨calls, -, entries⟩
  · rcases none _ found with noted | ⟨change, changes, same⟩
    · cases noted
    · generalize (box.react task answer) = reaction
        at floor changes
      cases write : reaction.db with
      | advance id seen target reason outcome =>
        simp only [write, DbWrite.changes] at changes
        split at changes
        · simp only [List.mem_singleton] at changes
          subst changes
          cases same
          obtain ⟨work, rfl, rfl, stage⟩ :=
            floor.commits (targeted i task current) _ _ _ _ write
          obtain ⟨booted, manifest, backed⟩ := evidence.resumes i work current
          refine ⟨work, rfl, rfl, work.refs, ?_⟩
          rw [← manifest, ← booted]
          exact backed.proved seen reason outcome (.inr stage)
        · cases changes
      | create found =>
        simp only [write, DbWrite.changes, List.mem_map] at changes
        obtain ⟨id, -, rfl⟩ := changes
        cases same
      | _ =>
        simp only [write, DbWrite.changes] at changes
        cases changes
  · rw [entries] at found
    generalize (box.react task answer).host = op
      at calls found
    cases calls <;> simp [HostOp.entries] at found

theorem Evidence.step {box : Box} (claimed : Claimed box) (targeted : box.Targeted)
    (evidence : Evidence box) (event : Event) : Evidence (box.step event) := by
  have moved := box.step_moved event
  generalize after' : box.step event = after at moved
  -- the resumes of a box whose boot goes on
  have kept : ∀ (work : Resume) (j : ℕ) (entries : List Entry), after.boots = box.boots →
      after.trace = entries ++ box.trace → box.tasks[j]? = some (.resume work) →
      work.boot = after.boots ∧ work.manifest = after.manifest work.id ∧
        work.Backed after.trace := by
    intro work j entries boots trace found
    obtain ⟨booted, manifest, backed⟩ := evidence.resumes j work found
    have known := (claimed.resumed j _ work.id found rfl).1
    refine ⟨booted.trans boots.symm, ?_, ?_⟩
    · rw [← after', manifest_step box event known]
      exact manifest
    · rw [trace]
      exact backed.mono entries
  cases moved with
  | still | helperDies =>
    refine evidence.extend after'.symm [] rfl ?_ (by simp)
    intro j work found
    exact kept work j [] rfl rfl found
  | spawns _ task spawns =>
    refine evidence.extend after'.symm [] rfl ?_ (by simp)
    intro j work found
    rcases append_cases found with ⟨-, same⟩ | old
    · cases spawns with
      | window _ =>
        have none := (pickRun_quiet box.table box.now).2.2.1
        rw [← same] at none
        cases none
      | _ => cases same
    · exact kept work j [] rfl rfl old
  | dies => exact evidence.extend after'.symm [] rfl (by simp [Box.die]) (by simp)
  | boots =>
    refine evidence.extend after'.symm [] rfl ?_ (by simp)
    intro j work found
    rcases Box.boot_cases box with ⟨tasks, -⟩ | ⟨id, -, tasks⟩
    · simp only [tasks] at found
      cases (singleton_cases found).2
    · simp only [tasks] at found
      cases (singleton_cases found).2
      exact ⟨rfl, rfl, .of_other _ (by simp) (by simp) (by simp)⟩
  | acts i answer task current =>
    refine evidence.extend after'.symm _ (Box.perform_trace box i _) ?_ ?_
    · intro j next found
      rcases set_cases found with ⟨rfl, same⟩ | ⟨-, old⟩
      · have floor := box.floorKept task answer
        obtain ⟨work, rfl, -⟩ := floor.resumes next same.symm
        obtain ⟨booted, manifest, backed⟩ := evidence.resumes j work current
        have known := (claimed.resumed j _ work.id current rfl).1
        let reaction := work.react box.table box.host answer
        let rest := reaction.host.entries box.table box.host ++
          (reaction.db.changes box.table).map
            fun change => Entry.reached change.1 change.2 box.boots box.host.tree
        obtain ⟨boot, place, seen, goes⟩ := Resume.react_backed (backed.mono rest) same.symm
        refine ⟨boot.trans booted, ?_, ?_⟩
        · rw [← after', place, manifest_step box _ known, ← manifest]
          exact congrArg (fun row => row.release.manifest) seen
        · have trace : (box.perform j reaction).trace = reaction.notes ++ (rest ++ box.trace) := by
            simp [Box.perform, rest, List.append_assoc]
          exact trace ▸ goes
      · exact kept next j _ rfl (Box.perform_trace box i _) old
    · intro row boot tree found
      obtain ⟨work, rfl, rfl, proved⟩ := evidence.reached targeted current found
      exact ⟨(claimed.resumed i _ work.id current rfl).1, proved⟩
  | helps i answer helper present =>
    obtain ⟨host, entries, stepped⟩ := helperStep_stepped box i helper answer
    refine evidence.extend after'.symm _ stepped.trace ?_ ?_
    · intro j work found
      rcases (helperStep_cases box i helper answer).2 with tasks | tasks
      · exact kept work j entries stepped.boots stepped.trace (tasks ▸ found)
      · simp only [tasks] at found
        cases found
    · intro row boot tree found
      have move := stepped.move
      cases move <;> simp at found

end Droplet.Update
