import Droplet.Update.Floor

/-! The status column as the cursor of a run: where a run stands tells the status of its row, because
nobody else moves a claimed row that is `verifying` or `applying`. -/

namespace Droplet.Update

open Places

def Run.needs (run : Run) : Option Status :=
  match run.stage with
  | .settings | .floor _ | .setup =>
    if run.seen.status = .verifying then some .verifying else none
  | .parse | .fetch | .refs | .pin | .save | .pull | .stageConfigs | .reconcile | .refuse | .clients
  | .migrate => some .verifying
  | .recreate | .gate | .swapSelf | .rollbackConfigs | .rollbackServices | .rollbackGate =>
    some .applying
  | .observe target _ _ | .write _ target _ _ =>
    match target with
    | .applying | .rejected => some .verifying
    | .rolledBack | .failed => some .applying
    | _ => none
  | _ => none

/-- What a run that goes on rests on: where it stood before, what it has just written, or the claim
it has just taken. -/
inductive Run.Rests (run : Run) (table : Table) (reaction : Reaction) (status : Status) : Prop
  | before : run.needs = some status → run.stage ≠ .claim → reaction.db = .nothing →
      Rests run table reaction status
  | written (reason : Option String) (outcome : Option Outcome) :
      run.stage = .write (table.row run.id).status status reason outcome →
      reaction.db = .advance run.id (table.row run.id).status status reason outcome →
      Rests run table reaction status
  | claimed : run.seen.status = .verifying → status = .verifying →
      (table.row run.id).status.applicable → reaction.db = .claim run.id run.claimId →
      Rests run table reaction status
  | found : status = .verifying → (table.row run.id).status = .verifying →
      reaction.db = .nothing → run.stage = .handed → Rests run table reaction status

variable {status : Status} {next : Run}

namespace Run

variable {run : Run} {table : Table} {host : Host}

theorem Passes.needs {next : RunStage} (passes : run.Passes table run.stage next)
    (needs : ({ run with stage := next } : Run).needs = some status) : run.needs = some status := by
  generalize before : run.stage = stage at passes
  cases passes <;> simp_all [Run.needs]

theorem Calls.needs {op : HostOp} {next : RunStage} (calls : run.Calls host run.stage op next)
    (needs : ({ run with stage := next } : Run).needs = some status) : run.needs = some status := by
  generalize before : run.stage = stage at calls
  cases calls <;> simp_all [Run.needs]

theorem Recreates.needs {target : RecreateTarget} {next : RunStage}
    (recreates : Run.Recreates run.stage target next) : run.needs = some .applying := by
  generalize before : run.stage = stage at recreates
  cases recreates <;> simp [Run.needs, before]

theorem react_rests {answer : Answer} (goes : (run.react table host answer).task = .run next)
    (needs : next.needs = some status) :
    run.Rests table (run.react table host answer) status ∧ next.id = run.id := by
  have did := react_did run table host answer
  generalize run.react table host answer = reaction at did goes
  cases did with
  | stays =>
    cases goes
    refine ⟨.before needs ?_ rfl, rfl⟩
    intro stage
    simp [Run.needs, stage] at needs
  | gaveUp | claimLost | releases => cases goes
  | leaves | callThrew | writeThrew =>
    cases goes
    simp [Run.needs] at needs
  | claims stage hits =>
    cases goes
    simp only [DbWrite.hits, Bool.and_eq_true] at hits
    simp only [Run.needs] at needs
    split at needs
    · rename_i verifying
      cases needs
      exact ⟨.claimed verifying rfl hits.1 rfl, rfl⟩
    · cases needs
  | finds stage applicable held =>
    cases goes
    simp only [Run.needs] at needs
    split at needs
    · rename_i verifying
      cases needs
      exact ⟨.found rfl verifying rfl stage, rfl⟩
    · cases needs
  | passes stage passes =>
    cases goes
    exact ⟨.before (passes.needs needs) passes.started rfl, rfl⟩
  | readsRefs stage =>
    cases goes
    simp only [Run.needs] at needs
    exact ⟨.before (by simpa [Run.needs, stage] using needs) (by rw [stage]; decide) rfl, rfl⟩
  | calls op stage calls =>
    cases goes
    exact ⟨.before (calls.needs needs) calls.started rfl, rfl⟩
  | recreates target after left recreates pinned =>
    cases goes
    have same : status = .applying := by
      generalize run.stage = before at recreates
      cases recreates <;> by_cases all : left = [] <;> simp_all [Run.needs]
    rw [same]
    exact ⟨.before recreates.needs recreates.started rfl, rfl⟩
  | writes seen target reason outcome stage unchanged =>
    cases goes
    subst unchanged
    have same : target = status := by
      cases target <;> simp_all [Run.needs, Run.advanced]
    subst same
    exact ⟨.written reason outcome stage rfl, rfl⟩

end Run

/-- A guarded write comes from the task that carries out the row's update, or retires a `pending`
row. -/
theorem Task.react_advances (table : Table) (host : Host) (inFlight : Bool) (fresh : ClaimId)
    (task : Task) (answer : Answer) {id : ℕ} {seen target : Status} {reason : Option String}
    {outcome : Option Outcome} (write : (task.react table host inFlight fresh answer).db =
      .advance id seen target reason outcome) :
    task.runner = some id ∨ (seen = .pending ∧ target = .superseded) := by
  cases task with
  | done => cases write
  | run work =>
    have did := Run.react_did work table host answer
    simp only [Task.react] at write
    generalize work.react table host answer = reaction at did write
    cases did with
    | writes _ _ _ _ stage | writeThrew _ _ _ _ stage =>
      cases write
      exact .inl (Run.runner_of_started (by rw [stage]; simp))
    | _ => cases write
  | resume work =>
    have did := Resume.react_did work table host answer
    simp only [Task.react] at write
    generalize work.react table host answer = reaction at did write
    cases did with
    | writes =>
      cases write
      exact .inl rfl
    | _ => cases write
  | retry =>
    simp only [Task.react, retryReact] at write
    repeat' split at write
    all_goals cases write
  | poll stage found =>
    simp only [Task.react, pollReact] at write
    repeat' split at write
    all_goals cases write
  | applyNow stage =>
    simp only [Task.react, applyNowReact] at write
    repeat' split at write
    all_goals cases write
  | skip row =>
    simp only [Task.react, skipReact] at write
    split at write
    all_goals cases write
    all_goals exact .inr ⟨rfl, rfl⟩

/-- A row is moved by the task that carries out its update, unless it is `pending`, or `verifying`
and not claimed. -/
theorem status_moves (box : Box) (task : Task) (answer : Answer) {id : ℕ}
    (known : id < box.table.count) {after : Table} (writes : after =
      (box.react task answer).db.apply box.table box.now)
    (moved : (after.row id).status ≠ (box.table.row id).status) :
    (task.runner = some id ∧ ∃ seen target reason outcome,
        (box.react task answer).db =
          .advance id seen target reason outcome) ∨
      (box.table.row id).status = .pending ∨
      ((box.table.row id).status = .verifying ∧ (box.table.row id).claim = none) := by
  subst writes
  have advances := @Task.react_advances box.table box.host box.applyNowInFlight box.now task answer id
  generalize (box.react task answer).db = write
    at moved advances
  have did := DbWrite.apply_did box.table box.now id write
  generalize (write.apply box.table box.now).row id = row at did moved
  cases did with
  | same | claims | releases | records => exact absurd rfl moved
  | advances target reason outcome =>
    rcases advances rfl with runner | retires
    · exact .inl ⟨runner, _, target, reason, outcome, rfl⟩
    · exact .inr (.inl retires.1)
  | supersedes found retired => exact .inr retired
  | creates found last => omega

structure Staged (box : Box) : Prop where
  known : ∀ (j : ℕ) (work : Run), box.tasks[j]? = some (.run work) → work.id < box.table.count ∧
    work.seen.release = (box.table.row work.id).release
  begun : ∀ (j : ℕ) (work : Run), box.tasks[j]? = some (.run work) →
    work.seen.status = .verifying → (box.table.row work.id).status ≠ .pending
  needs : ∀ (j : ℕ) (work : Run) (status : Status), box.tasks[j]? = some (.run work) →
    work.needs = some status → (box.table.row work.id).status = status

/-- A row that has left `pending` does not come back to it. -/
theorem not_pending_stays {before after : Status} (follows : before.Follows after)
    (begun : before ≠ .pending) : after ≠ .pending := by
  rcases follows with same | edge
  · rw [same]
    exact begun
  · exact allowed_not_pending edge

theorem Run.started_of_needs {run : Run} (needs : run.needs = some status) : run.stage ≠ .claim := by
  intro stage
  simp [Run.needs, stage] at needs

theorem Run.needs_not_pending {run : Run} (needs : run.needs = some .pending) : False := by
  unfold Run.needs at needs
  split at needs
  · split at needs <;> cases needs
  all_goals try cases needs
  all_goals split at needs <;> cases needs

section Perform

variable {box : Box} {i : ℕ} {task : Task} {answer : Answer} {reaction : Reaction}

theorem Staged.known_after (claimed : Claimed box) (staged : Staged box) (current : box.tasks[i]? = some task)
    (reacts : reaction = box.react task answer) {j : ℕ}
    (found : (box.tasks.set i reaction.task)[j]? = some (.run next)) :
    next.id < box.table.count ∧ next.seen.release = (box.table.row next.id).release := by
  subst reacts
  exact (box.floorKept task answer).known claimed current staged.known found

theorem Staged.begun_before (staged : Staged box) (current : box.tasks[i]? = some task)
    (reacts : reaction = box.react task answer) {j : ℕ}
    (found : (box.tasks.set i reaction.task)[j]? = some (.run next))
    (verifying : next.seen.status = .verifying) : (box.table.row next.id).status ≠ .pending := by
  rcases set_cases found with ⟨-, same⟩ | ⟨-, old⟩
  · have floor := box.floorKept task answer
    rw [← reacts] at floor
    rcases floor.runs next same.symm with ⟨work, rfl, place, seen, -⟩ | ⟨seen, -, -⟩
    · rw [place]
      rcases seen with seen | seen
      · exact staged.begun i work current (seen ▸ verifying)
      · rw [seen] at verifying
        rw [verifying]
        decide
    · rw [seen] at verifying
      rw [verifying]
      decide
  · exact staged.begun j next old verifying

theorem Staged.others_stay (claimed : Claimed box) (staged : Staged box)
    (current : box.tasks[i]? = some task) {after : Table} (writes : after =
      (box.react task answer).db.apply box.table box.now)
    {j : ℕ} {work : Run} (found : box.tasks[j]? = some (.run work))
    (needs : work.needs = some status) (differ : j ≠ i) : (after.row work.id).status = status := by
  have before := staged.needs j work status found needs
  have started := Run.started_of_needs needs
  have held := claimed.held j _ _ _ found (Run.holds_of_started started)
  by_contra moved
  rw [← before] at moved
  rcases status_moves box task answer (staged.known j work found).1 writes moved with
    ⟨runner, -⟩ | pending | ⟨-, free⟩
  · exact differ (claimed.one_runner found current (Run.runner_of_started started) runner)
  · rw [before] at pending
    subst pending
    exact Run.needs_not_pending needs
  · rw [free] at held
    cases held

theorem Staged.rests_after (staged : Staged box) {work : Run}
    (current : box.tasks[i]? = some (.run work)) (rests : work.Rests box.table reaction status) :
    ((reaction.db.apply box.table box.now).row work.id).status = status := by
  cases rests with
  | before needs _ quiet =>
    rw [quiet]
    exact staged.needs i work status current needs
  | written reason outcome _ write =>
    rw [write]
    simp [DbWrite.apply, DbWrite.hits, Table.update, Row.advance]
  | claimed verifying same applicable write =>
    have begun := staged.begun i work current verifying
    have status' : (box.table.row work.id).status = .verifying := by
      cases current' : (box.table.row work.id).status <;> simp_all [Status.applicable]
    rw [write, same]
    unfold DbWrite.apply
    split
    · simpa [Table.update] using status'
    · exact status'
  | found same verifying quiet _ =>
    rw [quiet, same]
    exact verifying

theorem Staged.needs_after (claimed : Claimed box) (staged : Staged box) (current : box.tasks[i]? = some task)
    (reacts : reaction = box.react task answer) {j : ℕ}
    (found : (box.tasks.set i reaction.task)[j]? = some (.run next)) (needs : next.needs = some status) :
    ((reaction.db.apply box.table box.now).row next.id).status = status := by
  rcases set_cases found with ⟨rfl, same⟩ | ⟨differ, old⟩
  · have floor := box.floorKept task answer
    rw [← reacts] at floor
    rcases floor.runs next same.symm with ⟨work, rfl, -⟩ | ⟨-, early, -⟩
    · subst reacts
      obtain ⟨rests, place⟩ := Run.react_rests same.symm needs
      simp only [Task.react] at rests ⊢
      rw [place]
      exact staged.rests_after current rests
    · rcases early with early | early <;> simp [Run.needs, early] at needs
  · exact staged.others_stay claimed current (by rw [reacts]) old needs differ

theorem Staged.perform (claimed : Claimed box) (staged : Staged box) (current : box.tasks[i]? = some task)
    (reacts : reaction = box.react task answer) : Staged { box.perform i reaction with now := box.now + 1 } := by
  have claims := box.claimsKept task answer
  rw [← reacts] at claims
  have allowed := claims.allowed (claimed.edges i task current)
  constructor
  · intro j work found
    obtain ⟨known, release⟩ := staged.known_after claimed current reacts found
    refine ⟨?_, ?_⟩
    · show work.id < (reaction.db.apply box.table box.now).count
      rcases DbWrite.apply_count box.table box.now reaction.db with same | ⟨more, -⟩ <;> omega
    · exact release.trans (DbWrite.apply_release known).symm
  · intro j work found verifying
    obtain ⟨known, -⟩ := staged.known_after claimed current reacts found
    exact not_pending_stays (DbWrite.apply_status allowed known)
      (staged.begun_before current reacts found verifying)
  · intro j work status found needs
    exact staged.needs_after claimed current reacts found needs

end Perform

theorem Staged.fresh (host : Host) : Staged (Box.fresh host) := by
  constructor <;> simp [Box.fresh]

theorem Staged.same_rows {box after : Box} (staged : Staged box) (count : after.table.count = box.table.count)
    (status : ∀ id, (after.table.row id).status = (box.table.row id).status)
    (release : ∀ id, (after.table.row id).release = (box.table.row id).release)
    (tasks : ∀ (j : ℕ) (work : Run), after.tasks[j]? = some (.run work) →
      box.tasks[j]? = some (.run work) ∨ (work.id < box.table.count ∧
        work.seen = box.table.row work.id ∧ work.stage = .claim)) : Staged after := by
  constructor
  · intro j work found
    rw [count, release]
    rcases tasks j work found with old | ⟨known, seen, -⟩
    · exact staged.known j work old
    · exact ⟨known, by rw [seen]⟩
  · intro j work found verifying
    rw [status]
    rcases tasks j work found with old | ⟨-, seen, -⟩
    · exact staged.begun j work old verifying
    · rw [seen] at verifying
      rw [verifying]
      decide
  · intro j work wanted found needs
    rw [status]
    rcases tasks j work found with old | ⟨-, -, stage⟩
    · exact staged.needs j work wanted old needs
    · simp [Run.needs, stage] at needs

theorem Staged.spawn {box : Box} (staged : Staged box) {task : Task}
    (run : ∀ work, task = .run work → work.id < box.table.count ∧
      work.seen = box.table.row work.id ∧ work.stage = .claim) :
    Staged { box.spawn task with now := box.now + 1 } := by
  refine staged.same_rows rfl (fun _ => rfl) (fun _ => rfl) ?_
  intro j work found
  rcases append_cases found with ⟨-, same⟩ | old
  · exact .inr (run work same.symm)
  · exact .inl old

theorem Staged.step {box : Box} (claimed : Claimed box) (staged : Staged box) (event : Event) :
    Staged (box.step event) := by
  have moved := box.step_moved event
  generalize box.step event = after at moved
  cases moved with
  | still => exact staged.same_rows rfl (fun _ => rfl) (fun _ => rfl) fun _ _ found => .inl found
  | spawns _ task spawns =>
    cases spawns with
    | window _ =>
      rcases pickRun_cases box.table box.now with ends | ⟨next, goes, seen, stage, known⟩
      · rw [ends]
        exact staged.spawn (by simp)
      · rw [goes]
        refine staged.spawn ?_
        intro work same
        cases same
        exact ⟨known, seen, stage⟩
    | _ => exact staged.spawn (by simp)
  | acts i answer task current => exact staged.perform claimed current rfl
  | helps i answer helper found =>
    obtain ⟨table, tasks⟩ := helperStep_cases box i helper answer
    refine staged.same_rows (by rw [table]) (fun _ => by rw [table]) (fun _ => by rw [table]) ?_
    intro j work found
    rcases tasks with tasks | tasks
    · rw [← tasks]
      exact .inl found
    · simp only [tasks] at found
      cases found
  | helperDies =>
    exact staged.same_rows rfl (fun _ => rfl) (fun _ => rfl) fun _ _ found => .inl found
  | dies => exact staged.same_rows rfl (fun _ => rfl) (fun _ => rfl) (by simp [Box.die])
  | boots =>
    refine staged.same_rows rfl (fun id => (clearClaims_row box.table box.now id).1)
      (clearClaims_release box.table box.now) ?_
    intro j work found
    rcases Box.boot_cases box with ⟨tasks, -⟩ | ⟨id, -, tasks⟩
    all_goals
      simp only [tasks] at found
      cases (singleton_cases found).2

end Droplet.Update
