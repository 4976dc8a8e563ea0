import Droplet.Update.Moves

/-! What one step of a task means for the claims, and what one write keeps of a row. -/

namespace Droplet.Update

def Task.claimId? : Task → Option ClaimId
  | .run work => some work.claimId
  | .applyNow (.claim _ claimId) | .applyNow (.audit _ claimId) | .applyNow (.giveBack _ claimId) =>
    some claimId
  | _ => none

def Task.holds : Task → Option (ℕ × ClaimId)
  | .run work => if work.stage = .claim then none else some (work.id, work.claimId)
  | .applyNow (.audit id claimId) | .applyNow (.giveBack id claimId) => some (id, claimId)
  | _ => none

def Task.resumes : Task → Option ℕ
  | .resume work => some work.id
  | _ => none

/-- The guarded write a task is about to make: the row, the status it saw and the next one. -/
def Task.writes : Task → Option (ℕ × Status × Status)
  | .run work =>
    match work.stage with
    | .write seen target _ _ => some (work.id, seen, target)
    | _ => none
  | .resume work =>
    match work.stage with
    | .write seen target _ _ => some (work.id, seen, target)
    | _ => none
  | _ => none

def Task.Edges (task : Task) : Prop :=
  ∀ id seen target, task.writes = some (id, seen, target) → target ∈ seen.allowed

/-- The row whose update a task carries out: a run once it has its claim, or the resume. -/
def Task.runner : Task → Option ℕ
  | .run work => if work.stage = .claim then none else some work.id
  | .resume work => some work.id
  | _ => none

def HostOp.row? : HostOp → Option ℕ
  | .pin row _ _ | .save row | .stageConfigs row _ | .restoreConfigs row | .recreate row _ _ _
  | .launch row _ => some row
  | .nothing | .start _ => none

structure ClaimsKept (table : Table) (fresh : ClaimId) (task : Task) (reaction : Reaction) :
    Prop where
  drawn : ∀ claimId, reaction.task.claimId? = some claimId →
    task.claimId? = some claimId ∨ (task.claimId? = none ∧ claimId = fresh)
  held : ∀ id claimId, reaction.task.holds = some (id, claimId) →
    task.holds = some (id, claimId) ∨
      (reaction.db = .claim id claimId ∧ reaction.db.hits table)
  claims : ∀ id claimId, reaction.db = .claim id claimId →
    task.claimId? = some claimId ∧ task.holds = none
  releases : ∀ id claimId, reaction.db = .release id claimId →
    task.holds = some (id, claimId) ∧ reaction.task.holds = none
  resumes : ∀ id, reaction.task.resumes = some id → task.resumes = some id
  edges : task.Edges → reaction.task.Edges
  allowed : task.Edges → reaction.db.Allowed
  host : ∀ id, reaction.host.row? = some id → task.runner = some id

variable {reaction : Reaction} {task : Task}

/-- A reaction that neither claims nor releases, from a task that keeps what it holds or drops
it. -/
theorem ClaimsKept.quiet {table : Table} {fresh : ClaimId}
    (noClaim : ∀ id claimId, reaction.db ≠ .claim id claimId)
    (noRelease : ∀ id claimId, reaction.db ≠ .release id claimId)
    (drawn : ∀ claimId, reaction.task.claimId? = some claimId → task.claimId? = some claimId)
    (held : ∀ hold, reaction.task.holds = some hold → task.holds = some hold)
    (resumes : ∀ id, reaction.task.resumes = some id → task.resumes = some id)
    (edges : task.Edges → reaction.task.Edges) (allowed : task.Edges → reaction.db.Allowed)
    (host : ∀ id, reaction.host.row? = some id → task.runner = some id) :
    ClaimsKept table fresh task reaction where
  drawn claimId same := .inl (drawn claimId same)
  held id claimId same := .inl (held (id, claimId) same)
  claims id claimId same := absurd same (noClaim id claimId)
  releases id claimId same := absurd same (noRelease id claimId)
  resumes := resumes
  edges := edges
  allowed := allowed
  host := host

theorem edges_of_writes_none (quiet : task.writes = none) : task.Edges := by
  intro id seen target same
  rw [quiet] at same
  cases same

namespace Run

variable {run : Run} {table : Table} {host : Host}

theorem holds_of_started (started : run.stage ≠ .claim) : (Task.run run).holds = some (run.id, run.claimId) := by
  simp only [Task.holds, if_neg started]

theorem runner_of_started (started : run.stage ≠ .claim) : (Task.run run).runner = some run.id := by
  simp only [Task.runner, if_neg started]

theorem go_kept (fresh : ClaimId) {next : RunStage}
    (started : run.stage ≠ .claim)
    (task : ∃ seen refs, reaction.task = .run { run with seen, refs, stage := next })
    (noClaim : ∀ id claimId, reaction.db ≠ .claim id claimId)
    (noRelease : ∀ id claimId, reaction.db ≠ .release id claimId)
    (edges : ∀ seen target reason outcome, next = .write seen target reason outcome →
      target ∈ seen.allowed)
    (allowed : (Task.run run).Edges → reaction.db.Allowed)
    (host : ∀ id, reaction.host.row? = some id → id = run.id) :
    ClaimsKept table fresh (.run run) reaction := by
  obtain ⟨seen, refs, task⟩ := task
  apply ClaimsKept.quiet noClaim noRelease
  · intro claimId same
    rw [task] at same
    exact same
  · intro hold same
    rw [task] at same
    rw [holds_of_started started]
    by_cases first : next = .claim
    · simp [Task.holds, first] at same
    · simpa [Task.holds, first] using same
  · intro id same
    rw [task] at same
    cases same
  · intro _ id seen' target same
    rw [task] at same
    simp only [Task.writes] at same
    split at same
    · simp only [Option.some.injEq, Prod.mk.injEq] at same
      obtain ⟨-, rfl, rfl⟩ := same
      exact edges _ _ _ _ rfl
    · cases same
  · exact allowed
  · intro id same
    rw [runner_of_started started, host id same]

theorem finish_kept (fresh : ClaimId) (run : Run) : ClaimsKept table fresh (.run run) run.finish := by
  apply ClaimsKept.quiet <;> simp [Run.finish, Task.claimId?, Task.holds, Task.resumes, HostOp.row?,
    DbWrite.Allowed, edges_of_writes_none (show Task.done.writes = none from rfl)]

variable {before after : RunStage}

theorem Passes.started (passes : run.Passes table before after) : before ≠ .claim := by
  cases passes <;> simp

theorem Passes.edge (passes : run.Passes table before after) :
    ∀ seen target reason outcome, after = .write seen target reason outcome →
      target ∈ seen.allowed := by
  intro seen target reason outcome same
  cases passes with
  | observed target' reason' outcome' edge =>
    cases same
    exact edge
  | _ => cases same

theorem Calls.started {op : HostOp} (calls : run.Calls host before op after) : before ≠ .claim := by
  cases calls <;> simp

theorem Calls.row {op : HostOp} (calls : run.Calls host before op after) : op.row? = some run.id := by
  cases calls <;> rfl

theorem Calls.no_write {op : HostOp} (calls : run.Calls host before op after) (seen target : Status)
    (reason : Option String) (outcome : Option Outcome) : after ≠ .write seen target reason outcome := by
  cases calls <;> simp

theorem Recreates.started {target : RecreateTarget} (recreates : Run.Recreates before target after) :
    before ≠ .claim := by
  cases recreates <;> simp

theorem Recreates.no_write {target : RecreateTarget} (recreates : Run.Recreates before target after)
    (seen next : Status) (reason : Option String) (outcome : Option Outcome) :
    after ≠ .write seen next reason outcome := by
  cases recreates <;> simp

theorem claimsKept (run : Run) (table : Table) (host : Host) (fresh : ClaimId) (answer : Answer) :
    ClaimsKept table fresh (.run run) (run.react table host answer) := by
  have did := react_did run table host answer
  generalize run.react table host answer = reaction at did
  cases did with
  | stays =>
    apply ClaimsKept.quiet <;> simp [Run.stay, HostOp.row?, DbWrite.Allowed]
  | gaveUp _ => exact finish_kept fresh run
  | leaves started =>
    refine go_kept fresh started ⟨_, _, rfl⟩ ?_ ?_ ?_ ?_ ?_ <;>
      simp [Run.leave, Run.go, HostOp.row?, DbWrite.Allowed]
  | claims stage hits =>
    refine ⟨?_, ?_, ?_, ?_, ?_, fun _ => edges_of_writes_none rfl, ?_, ?_⟩ <;>
      simp [Run.go, Task.claimId?, Task.holds, Task.resumes, HostOp.row?, DbWrite.Allowed, stage, hits]
  | claimLost stage | releases stage =>
    refine ⟨?_, ?_, ?_, ?_, ?_, fun _ => edges_of_writes_none rfl, ?_, ?_⟩ <;>
      simp [Run.finish, Task.claimId?, Task.holds, Task.resumes, HostOp.row?, DbWrite.Allowed, stage]
  | finds stage | readsRefs stage =>
    refine go_kept fresh (by rw [stage]; decide) ⟨_, _, rfl⟩ ?_ ?_ ?_ ?_ ?_ <;>
      simp [HostOp.row?, DbWrite.Allowed]
  | passes next passes =>
    refine go_kept fresh passes.started ⟨_, _, rfl⟩ ?_ ?_ passes.edge ?_ ?_ <;>
      simp [Run.go, HostOp.row?, DbWrite.Allowed]
  | calls op next calls =>
    refine go_kept fresh calls.started ⟨_, _, rfl⟩ ?_ ?_ ?_ ?_ ?_
    · simp [Run.go]
    · simp [Run.go]
    · intro seen target reason outcome same
      exact absurd same (calls.no_write seen target reason outcome)
    · simp [Run.go, DbWrite.Allowed]
    · simp [calls.row]
  | callThrew op next calls =>
    refine go_kept fresh calls.started ⟨_, _, rfl⟩ ?_ ?_ ?_ ?_ ?_ <;>
      simp [Run.leave, Run.go, calls.row, DbWrite.Allowed]
  | recreates target next left recreates _ =>
    have quiet : ∀ seen target reason outcome,
        (if left = [] then next else .release) ≠ RunStage.write seen target reason outcome := by
      intro seen target reason outcome
      split
      · exact recreates.no_write seen target reason outcome
      · simp
    refine go_kept fresh recreates.started ⟨_, _, rfl⟩ ?_ ?_ ?_ ?_ ?_
    · simp [Run.go]
    · simp [Run.go]
    · intro seen target reason outcome same
      exact absurd same (quiet seen target reason outcome)
    · simp [Run.go, DbWrite.Allowed]
    · simp [HostOp.row?]
  | writes seen target reason outcome stage _ =>
    refine go_kept fresh (by rw [stage]; simp) ⟨_, _, rfl⟩ ?_ ?_ ?_ ?_ ?_
    · simp
    · simp
    · intro seen' target' reason' outcome' same
      cases target <;> cases same
    · intro edges
      exact edges run.id seen target (by simp [Task.writes, stage])
    · simp [Run.go, HostOp.row?]
  | writeThrew seen target reason outcome stage =>
    refine go_kept fresh (by rw [stage]; simp) ⟨_, _, rfl⟩ ?_ ?_ ?_ ?_ ?_
    · simp
    · simp
    · simp
    · intro edges
      exact edges run.id seen target (by simp [Task.writes, stage])
    · simp [Run.leave, Run.go, HostOp.row?]

end Run

namespace Resume

variable {resume : Resume} {table : Table} {host : Host}

theorem react_kept (fresh : ClaimId)
    (task : reaction.task = .done ∨ ∃ refs next,
      reaction.task = .resume { resume with refs, stage := next } ∧
        ∀ seen target reason outcome, next = .write seen target reason outcome →
          (Task.resume resume).Edges → target ∈ seen.allowed)
    (noClaim : ∀ id claimId, reaction.db ≠ .claim id claimId)
    (noRelease : ∀ id claimId, reaction.db ≠ .release id claimId)
    (allowed : (Task.resume resume).Edges → reaction.db.Allowed)
    (host : ∀ id, reaction.host.row? = some id → id = resume.id) :
    ClaimsKept table fresh (.resume resume) reaction := by
  have runner : ∀ id, reaction.host.row? = some id → (Task.resume resume).runner = some id := by
    intro id same
    rw [host id same]
    rfl
  rcases task with ended | ⟨refs, next, goes, edges⟩
  · refine ClaimsKept.quiet noClaim noRelease ?_ ?_ ?_ ?_ allowed runner
    · simp [ended, Task.claimId?]
    · simp [ended, Task.holds]
    · simp [ended, Task.resumes]
    · intro _
      rw [ended]
      exact edges_of_writes_none rfl
  · refine ClaimsKept.quiet noClaim noRelease ?_ ?_ ?_ ?_ allowed runner
    · simp [goes, Task.claimId?]
    · simp [goes, Task.holds]
    · simp [goes, Task.resumes]
    · intro before id seen target same
      rw [goes] at same
      simp only [Task.writes] at same
      split at same
      · simp only [Option.some.injEq, Prod.mk.injEq] at same
        obtain ⟨-, rfl, rfl⟩ := same
        exact edges _ _ _ _ rfl before
      · cases same

theorem Passes.edge {before after : ResumeStage} (passes : resume.Passes table before after) :
    ∀ seen target reason outcome, after = .write seen target reason outcome →
      (Task.resume resume).Edges → target ∈ seen.allowed := by
  intro seen target reason outcome same _
  cases passes with
  | observed target' reason' outcome' edge =>
    cases same
    exact edge
  | _ => cases same

theorem Judged.no_write {unhealthy : Option String} {next : ResumeStage}
    (judged : resume.Judged unhealthy next) (seen target : Status) (reason : Option String)
    (outcome : Option Outcome) : next ≠ .write seen target reason outcome := by
  cases judged <;> simp

theorem claimsKept (resume : Resume) (table : Table) (host : Host) (fresh : ClaimId) (answer : Answer) :
    ClaimsKept table fresh (.resume resume) (resume.react table host answer) := by
  have did := react_did resume table host answer
  generalize resume.react table host answer = reaction at did
  cases did with
  | stays =>
    apply ClaimsKept.quiet <;> simp [Resume.stay, HostOp.row?, DbWrite.Allowed]
  | ends | launches | records =>
    refine react_kept fresh (.inl rfl) ?_ ?_ ?_ ?_ <;>
      simp [Reaction.ended, HostOp.row?, DbWrite.Allowed]
  | passes next passes =>
    refine react_kept fresh (.inr ⟨_, _, rfl, passes.edge⟩) ?_ ?_ ?_ ?_ <;>
      simp [Resume.go, HostOp.row?, DbWrite.Allowed]
  | readsRefs stage =>
    refine react_kept fresh (.inr ⟨_, _, rfl, by simp⟩) ?_ ?_ ?_ ?_ <;>
      simp [HostOp.row?, DbWrite.Allowed]
  | gates probes next stage judged =>
    refine react_kept fresh (.inr ⟨_, _, rfl, ?_⟩) ?_ ?_ ?_ ?_
    · intro seen target reason outcome same
      exact absurd same (judged.no_write seen target reason outcome)
    all_goals simp [Resume.go, HostOp.row?, DbWrite.Allowed]
  | restores _ _ _ next | recreates _ _ _ _ next =>
    refine react_kept fresh (next.imp_right fun same => ⟨_, _, same, by simp⟩) ?_ ?_ ?_ ?_ <;>
      simp [HostOp.row?, DbWrite.Allowed]
  | writes seen target reason outcome task stage next =>
    refine react_kept fresh (next.imp_right fun same => ⟨_, _, same.2.2, by simp⟩) ?_ ?_ ?_ ?_
    · simp
    · simp
    · intro edges
      exact edges resume.id seen target (by simp [Task.writes, stage])
    · simp [HostOp.row?]
  | starts services images next stage goes =>
    refine react_kept fresh (.inr ⟨_, _, rfl, ?_⟩) ?_ ?_ ?_ ?_
    · intro seen target reason outcome same
      rcases goes with ⟨recorded, goes⟩ | ⟨started, goes⟩
      all_goals
        rw [goes] at same
        cases same
    all_goals simp [Resume.go, HostOp.row?, DbWrite.Allowed]

end Resume

theorem ClaimsKept.idle {table : Table} {fresh : ClaimId} (noClaim : ∀ id claimId, reaction.db ≠ .claim id claimId)
    (noRelease : ∀ id claimId, reaction.db ≠ .release id claimId)
    (drawn : reaction.task.claimId? = none) (held : reaction.task.holds = none)
    (resumes : reaction.task.resumes = none) (writes : reaction.task.writes = none)
    (allowed : reaction.db.Allowed) (host : reaction.host.row? = none) : ClaimsKept table fresh task reaction := by
  refine ClaimsKept.quiet noClaim noRelease ?_ ?_ ?_ ?_ ?_ ?_
  · simp [drawn]
  · simp [held]
  · simp [resumes]
  · exact fun _ => edges_of_writes_none writes
  · exact fun _ => allowed
  · simp [host]

section

variable (table : Table)
include table

variable (fresh : ClaimId)

theorem poll_claimsKept (stage : PollStage) (found : Release) (answer : Answer) :
    ClaimsKept table fresh (.poll stage found) (pollReact table stage found answer) := by
  unfold pollReact
  repeat' split
  all_goals apply ClaimsKept.idle <;> simp [Reaction.ended, Task.claimId?, Task.holds, Task.resumes,
    Task.writes, HostOp.row?, DbWrite.Allowed]

theorem skip_claimsKept (id : ℕ) (answer : Answer) : ClaimsKept table fresh (.skip id) (skipReact id answer) := by
  unfold skipReact
  simp only
  split
  all_goals apply ClaimsKept.idle <;> simp [Reaction.ended, Task.claimId?, Task.holds, Task.resumes,
    Task.writes, HostOp.row?, DbWrite.Allowed, Status.allowed]

theorem pickRun_quiet :
    (∀ claimId, (pickRun table fresh).claimId? = some claimId → claimId = fresh) ∧
      (pickRun table fresh).holds = none ∧ (pickRun table fresh).resumes = none ∧
      (pickRun table fresh).writes = none := by
  unfold pickRun
  split <;> simp [Task.claimId?, Task.holds, Task.resumes, Task.writes, eq_comm]

theorem retry_claimsKept (answer : Answer) : ClaimsKept table fresh .retry (retryReact table fresh answer) := by
  obtain ⟨drawn, held, resumes, writes⟩ := pickRun_quiet table fresh
  unfold retryReact
  split
  · split
    · refine ⟨?_, ?_, ?_, ?_, ?_, fun _ => edges_of_writes_none writes, ?_, ?_⟩
      · intro claimId same
        exact .inr ⟨rfl, drawn claimId same⟩
      · simp [held]
      · simp
      · simp
      · simp [resumes]
      · simp [DbWrite.Allowed]
      · simp [HostOp.row?]
    · apply ClaimsKept.idle <;> simp [Reaction.ended, Task.claimId?, Task.holds, Task.resumes,
        Task.writes, HostOp.row?, DbWrite.Allowed]
  all_goals apply ClaimsKept.idle <;> simp [Reaction.ended, Task.claimId?, Task.holds, Task.resumes,
    Task.writes, HostOp.row?, DbWrite.Allowed]

theorem applyNow_claimsKept (inFlight : Bool) (fresh : ClaimId) (stage : ApplyNowStage) (answer : Answer) :
    ClaimsKept table fresh (.applyNow stage)
      (applyNowReact table inFlight fresh stage answer) := by
  unfold applyNowReact
  simp only
  repeat' split
  all_goals
    refine ⟨?_, ?_, ?_, ?_, ?_, fun _ => edges_of_writes_none rfl, ?_, ?_⟩ <;>
      simp_all [Reaction.ended, Task.claimId?, Task.holds, Task.resumes, HostOp.row?, DbWrite.Allowed]

theorem Task.claimsKept (host : Host) (inFlight : Bool) (fresh : ClaimId) (task : Task) (answer : Answer) :
    ClaimsKept table fresh task (task.react table host inFlight fresh answer) := by
  cases task with
  | done =>
    apply ClaimsKept.idle <;> simp [Task.react, Reaction.ended, Task.claimId?, Task.holds,
      Task.resumes, Task.writes, HostOp.row?, DbWrite.Allowed]
  | run work | resume work => exact work.claimsKept table host fresh answer
  | retry => exact retry_claimsKept table fresh answer
  | poll stage found => exact poll_claimsKept table fresh stage found answer
  | applyNow stage => exact applyNow_claimsKept table inFlight fresh stage answer
  | skip id => exact skip_claimsKept table fresh id answer

end

theorem Box.claimsKept (box : Box) (task : Task) (answer : Answer) :
    ClaimsKept box.table box.now task (box.react task answer) := Task.claimsKept ..

theorem allowed_not_applicable {before after : Status} (final : before.applicable = false)
    (edge : after ∈ before.allowed) : after.applicable = false := by
  cases before <;> simp [Status.allowed] at edge
  · simp [Status.applicable] at final
  · simp [Status.applicable] at final
  · rcases edge with rfl | rfl | rfl <;> rfl

variable {id : ℕ} {condition : Row → Bool}

theorem Table.newest_some {table : Table}
    (found : table.newest condition = some id) : id < table.count ∧ condition (table.row id) := by
  unfold Table.newest at found
  have member := List.mem_of_find?_eq_some found
  have meets := List.find?_some found
  simp only [List.mem_reverse, List.mem_range] at member
  exact ⟨member, meets⟩

theorem Table.newest_none {table : Table} (missing : table.newest condition = none) (known : id < table.count) :
    condition (table.row id) = false := by
  unfold Table.newest at missing
  rw [List.find?_eq_none] at missing
  simpa using missing id (by simpa using known)

def Table.Tidy (table : Table) : Prop := ∀ id, table.count ≤ id → table.row id = Row.absent

theorem Table.Tidy.known {table : Table} (tidy : table.Tidy) {status : Status}
    (current : (table.row id).status = status) (live : status ≠ .superseded) : id < table.count := by
  by_contra beyond
  rw [tidy id (by omega)] at current
  exact live current.symm

theorem Table.Tidy.claimed {table : Table} (tidy : table.Tidy) {claimId : ClaimId}
    (claimed : (table.row id).claim = some claimId) : id < table.count := by
  by_contra beyond
  rw [tidy id (by omega)] at claimed
  cases claimed

section Writes

variable {table : Table} {write : DbWrite} {now : ℕ}

theorem DbWrite.apply_release (known : id < table.count) :
    ((write.apply table now).row id).release = (table.row id).release := by
  have did := DbWrite.apply_did table now id write
  generalize (write.apply table now).row id = row at did
  cases did with
  | creates found last => omega
  | _ => rfl

theorem DbWrite.apply_tidy (tidy : table.Tidy) (allowed : write.Allowed) : (write.apply table now).Tidy := by
  intro id beyond
  have absent : table.row id = Row.absent := by
    apply tidy
    rcases DbWrite.apply_count table now write with same | ⟨more, -⟩ <;> omega
  have did := DbWrite.apply_did table now id write
  generalize (write.apply table now).row id = row at did
  cases did with
  | same => exact absent
  | claims claimId applicable free => simp [absent, Row.absent, Status.applicable] at applicable
  | releases claimId claimed => simp [absent, Row.absent] at claimed
  | advances target reason outcome =>
    simp [DbWrite.Allowed, absent, Row.absent, Status.allowed] at allowed
  | records outcome committed => simp [absent, Row.absent] at committed
  | supersedes found pending => simp [absent, Row.absent] at pending
  | creates found last =>
    have more : ((DbWrite.create found).apply table now).count = table.count + 1 := rfl
    omega

theorem DbWrite.apply_claim (tidy : table.Tidy) {claimId : ClaimId}
    (claimed : (table.row id).claim = some claimId) (others : write ≠ .release id claimId) :
    ((write.apply table now).row id).claim = some claimId := by
  have did := DbWrite.apply_did table now id write
  generalize (write.apply table now).row id = row at did
  cases did with
  | same | advances | records | supersedes => exact claimed
  | claims other applicable free =>
    rw [free] at claimed
    cases claimed
  | releases other held =>
    rw [held] at claimed
    cases claimed
    exact absurd rfl others
  | creates found last =>
    have known := tidy.claimed claimed
    omega

theorem DbWrite.apply_final (allowed : write.Allowed) (known : id < table.count)
    (final : (table.row id).status.applicable = false) (free : (table.row id).claim = none) :
    ((write.apply table now).row id).status.applicable = false ∧
      ((write.apply table now).row id).claim = none := by
  have did := DbWrite.apply_did table now id write
  generalize (write.apply table now).row id = row at did
  cases did with
  | same | records => exact ⟨final, free⟩
  | releases => exact ⟨final, rfl⟩
  | claims other applicable =>
    rw [final] at applicable
    cases applicable
  | advances target reason outcome => exact ⟨allowed_not_applicable final allowed, free⟩
  | supersedes => exact ⟨rfl, free⟩
  | creates found last => omega

theorem DbWrite.apply_status (allowed : write.Allowed) (known : id < table.count) :
    (table.row id).status.Follows ((write.apply table now).row id).status := by
  have did := DbWrite.apply_did table now id write
  generalize (write.apply table now).row id = row at did
  cases did with
  | same | claims | releases | records => exact .inl rfl
  | advances target reason outcome => exact .inr allowed
  | supersedes found pending =>
    rcases pending with pending | ⟨verifying, -⟩
    · exact .inr (by simp [pending, Status.allowed])
    · exact .inr (by simp [verifying, Status.allowed])
  | creates found last => omega

end Writes

end Droplet.Update
