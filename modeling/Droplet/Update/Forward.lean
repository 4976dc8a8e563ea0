import Droplet.Update.Floor

/-! The box never goes backwards, as long as no row is put to `applying` beside another one: the
floor that an apply run reads still stands when its row commits. -/

namespace Droplet.Update

open Places

variable {id : ℕ}

section Writes

variable {table : Table} {write : DbWrite} {now : ℕ}

theorem DbWrite.apply_committed (free : (table.row id).status = .committed → (table.row id).claim = none)
    (after : ((write.apply table now).row id).status = .committed) :
    ((table.row id).status = .committed ∧
        ((write.apply table now).row id).release = (table.row id).release ∧
        ((write.apply table now).row id).claim = none ∧
        (((write.apply table now).row id).updatedAt = (table.row id).updatedAt ∨
          (((write.apply table now).row id).updatedAt = now ∧
            ∃ outcome, write = .record id outcome))) ∨
      (((write.apply table now).row id).release = (table.row id).release ∧
        ((write.apply table now).row id).claim = (table.row id).claim ∧
        ((write.apply table now).row id).updatedAt = now ∧
        ∃ reason outcome, write = .advance id (table.row id).status .committed reason outcome) := by
  have did := DbWrite.apply_did table now id write
  generalize (write.apply table now).row id = row at did after
  cases did with
  | same => exact .inl ⟨after, rfl, free after, .inl rfl⟩
  | claims claimId applicable _ =>
    have committed : (table.row id).status = .committed := after
    rw [committed] at applicable
    cases applicable
  | releases claimId held =>
    have committed : (table.row id).status = .committed := after
    rw [free committed] at held
    cases held
  | advances target reason outcome =>
    have committed : target = .committed := after
    subst committed
    exact .inr ⟨rfl, rfl, rfl, reason, outcome, rfl⟩
  | records outcome committed =>
    exact .inl ⟨committed, rfl, free committed, .inr ⟨rfl, outcome, rfl⟩⟩
  | supersedes | creates => cases after

/-- A row that is `applying` after a write was so before, or the write puts it there. -/
theorem DbWrite.apply_applying (after : ((write.apply table now).row id).status = .applying) :
    (table.row id).status = .applying ∨
      ∃ reason outcome, write = .advance id (table.row id).status .applying reason outcome := by
  have did := DbWrite.apply_did table now id write
  generalize (write.apply table now).row id = row at did after
  cases did with
  | same | claims | releases | records => exact .inl after
  | advances target reason outcome =>
    have applying : target = .applying := after
    subst applying
    exact .inr ⟨reason, outcome, rfl⟩
  | supersedes | creates => cases after

end Writes

variable {seen : Status}

theorem seen_of_committed (edge : .committed ∈ seen.allowed) : seen = .applying := by
  cases seen <;> simp [Status.allowed] at edge
  rfl

theorem seen_of_applying (edge : .applying ∈ seen.allowed) : seen = .verifying := by
  cases seen <;> simp [Status.allowed] at edge
  rfl

def Row.builtAt (row : Row) : ℤ := row.release.builtAt

structure Forward (box : Box) : Prop where
  known : ∀ (j : ℕ) (work : Run), box.tasks[j]? = some (.run work) → work.id < box.table.count ∧
    work.seen.release = (box.table.row work.id).release
  free : ∀ id, (box.table.row id).status = .committed → (box.table.row id).claim = none
  alone : ∀ id other, (box.table.row id).status = .applying →
    (box.table.row other).status = .applying → id = other
  ahead : ∀ id other, (box.table.row id).status = .applying →
    (box.table.row other).status = .committed →
    (box.table.row other).builtAt < (box.table.row id).builtAt
  pastFloor : ∀ (j : ℕ) (work : Run) (other : ℕ), box.tasks[j]? = some (.run work) →
    work.stage.pastFloor → (box.table.row other).status = .committed →
    (box.table.row other).builtAt < (box.table.row work.id).builtAt
  /-- As long as a resume has not come to its verdict, nothing else is under way. -/
  quiet : ∀ (j k : ℕ) (work : Resume) (task : Task), box.tasks[j]? = some (.resume work) →
    box.tasks[k]? = some task → work.stage.settled = false →
    (box.table.row work.id).status = .applying → task.starts = false
  ordered : ∀ id other, (box.table.row id).status = .committed →
    (box.table.row other).status = .committed → id ≠ other →
    ((box.table.row id).builtAt < (box.table.row other).builtAt ∧
        (box.table.row id).updatedAt < (box.table.row other).updatedAt) ∨
      ((box.table.row other).builtAt < (box.table.row id).builtAt ∧
        (box.table.row other).updatedAt < (box.table.row id).updatedAt)
  dated : ∀ id, (box.table.row id).status = .committed → (box.table.row id).updatedAt < box.now
  settled : ∀ (j : ℕ) (work : Resume), box.tasks[j]? = some (.resume work) →
    work.stage.settled → (box.table.row work.id).status = .committed
  latest : ∀ (j : ℕ) (work : Resume) (other : ℕ), box.tasks[j]? = some (.resume work) →
    work.stage.settled → (box.table.row other).status = .committed →
    (box.table.row other).builtAt ≤ (box.table.row work.id).builtAt

/-- The condition of a step: a run puts its row to `applying` only while no other row is. -/
def Box.exclusive (box : Box) (event : Event) : Bool :=
  match event with
  | .advance i _ =>
    match box.tasks[i]? with
    | some (.run work) =>
      match work.stage with
      | .write _ .applying _ _ =>
        (List.range box.table.count).all fun other =>
          other = work.id || (box.table.row other).status ≠ .applying
      | _ => true
    | _ => true
  | _ => true

variable {outcome : Option Outcome} {reason : Option String}

theorem Box.exclusive_applying {box : Box} (tidy : box.table.Tidy) {i : ℕ} {answer : Answer}
    (exclusive : box.exclusive (.advance i answer)) {work : Run} (current : box.tasks[i]? = some (.run work))
    (stage : work.stage = .write seen .applying reason outcome) {other : ℕ}
    (differ : other ≠ work.id) : (box.table.row other).status ≠ .applying := by
  by_cases known : other < box.table.count
  · simp only [Box.exclusive, current, stage, List.all_eq_true, List.mem_range, Bool.or_eq_true,
      decide_eq_true_eq] at exclusive
    exact (exclusive other known).resolve_left differ
  · rw [tidy other (by omega)]
    decide

/-- A row as a step of a task leaves it. -/
abbrev Box.later (box : Box) (reaction : Reaction) (id : ℕ) : Row :=
  (reaction.db.apply box.table box.now).row id

/-- A task of the box takes one step, and puts its row to `applying` only while no other is. -/
structure Acts (box : Box) (i : ℕ) (task : Task) (reaction : Reaction) : Prop where
  claimed : Claimed box
  targets : task.Targets
  forward : Forward box
  current : box.tasks[i]? = some task
  claims : ClaimsKept box.table box.now task reaction
  floor : FloorKept box.table task reaction
  exclusive : ∀ (work : Run) (seen : Status) (reason : Option String) (outcome : Option Outcome)
    (other : ℕ), task = .run work → work.stage = .write seen .applying reason outcome →
    other ≠ work.id → (box.table.row other).status ≠ .applying

namespace Acts

variable {box : Box} {i : ℕ} {task : Task} {reaction : Reaction}

section

variable (acts : Acts box i task reaction)
include acts

theorem allowed : reaction.db.Allowed :=
  acts.claims.allowed (acts.claimed.edges i task acts.current)

/-- Only the resume of an `applying` row commits it. -/
theorem commits (write : reaction.db = .advance id (box.table.row id).status .committed reason outcome) :
    ∃ work, task = .resume work ∧ work.id = id ∧ work.stage.settled = false ∧
      (box.table.row id).status = .applying := by
  obtain ⟨work, same, place, stage⟩ := acts.floor.commits acts.targets id _ reason outcome write
  have edge := acts.allowed
  rw [write] at edge
  exact ⟨work, same, place, by rw [stage]; rfl, seen_of_committed edge⟩

/-- Only a run that is past the floor puts its row to `applying`. -/
theorem applies (write : reaction.db = .advance id (box.table.row id).status .applying reason outcome) :
    ∃ work, task = .run work ∧ work.id = id ∧ work.stage.pastFloor ∧
      (box.table.row id).status = .verifying ∧
      ∀ other, other ≠ id → (box.table.row other).status ≠ .applying := by
  obtain ⟨work, same, place, stage⟩ := acts.floor.applies acts.targets id _ reason outcome write
  have edge := acts.allowed
  rw [write] at edge
  refine ⟨work, same, place, by rw [stage]; rfl, seen_of_applying edge, ?_⟩
  intro other differ
  exact acts.exclusive work _ reason outcome other same stage (place ▸ differ)

theorem committed_after (after : (box.later reaction id).status = .committed) :
    (box.table.row id).status = .committed ∨
      ∃ work, task = .resume work ∧ work.id = id ∧ work.stage.settled = false ∧
        (box.table.row id).status = .applying := by
  rcases DbWrite.apply_committed (acts.forward.free id) after with
    ⟨before, -⟩ | ⟨-, -, -, reason, outcome, write⟩
  · exact .inl before
  · exact .inr (acts.commits write)

theorem builtAt_after {status : Status}
    (current : (box.table.row id).status = status) (live : status ≠ .superseded) :
    (box.later reaction id).builtAt = (box.table.row id).builtAt := by
  unfold Row.builtAt
  rw [DbWrite.apply_release (acts.claimed.tidy.known current live)]

theorem committed_before {j id : ℕ} {other : Task} (found : box.tasks[j]? = some other) (starts : other.starts)
    (after : (box.later reaction id).status = .committed) : (box.table.row id).status = .committed := by
  rcases acts.committed_after after with before | ⟨work, rfl, rfl, unsettled, applying⟩
  · exact before
  · have quiet := acts.forward.quiet i j work other acts.current found unsettled applying
    rw [starts] at quiet
    cases quiet

theorem free_after (after : (box.later reaction id).status = .committed) :
    (box.later reaction id).claim = none := by
  rcases DbWrite.apply_committed (acts.forward.free id) after with
    ⟨-, -, free, -⟩ | ⟨-, same, -, reason, outcome, write⟩
  · exact free
  · obtain ⟨work, rfl, rfl, -, -⟩ := acts.commits write
    rw [same]
    exact (acts.claimed.resumed i _ work.id acts.current rfl).2.2

theorem alone_after {id other : ℕ} (after : (box.later reaction id).status = .applying)
    (after' : (box.later reaction other).status = .applying) : id = other := by
  rcases DbWrite.apply_applying after with before | ⟨reason, outcome, write⟩
  · rcases DbWrite.apply_applying after' with before' | ⟨reason, outcome, write⟩
    · exact acts.forward.alone id other before before'
    · obtain ⟨work, -, -, -, -, others⟩ := acts.applies write
      by_contra differ
      exact others id differ before
  · obtain ⟨work, -, -, -, -, others⟩ := acts.applies write
    rcases DbWrite.apply_applying after' with before' | ⟨reason', outcome', write'⟩
    · by_contra differ
      exact others other (Ne.symm differ) before'
    · rw [write] at write'
      cases write'
      rfl

theorem ahead_after {id other : ℕ} (applying : (box.later reaction id).status = .applying)
    (committed : (box.later reaction other).status = .committed) :
    (box.later reaction other).builtAt < (box.later reaction id).builtAt := by
  rcases DbWrite.apply_applying applying with before | ⟨reason, outcome, write⟩
  · rcases acts.committed_after committed with before' | ⟨work, -, -, -, before'⟩
    · rw [acts.builtAt_after before (by decide), acts.builtAt_after before' (by decide)]
      exact acts.forward.ahead id other before before'
    · -- the row that commits was the only one `applying`
      rw [acts.forward.alone id other before before', committed] at applying
      cases applying
  · obtain ⟨work, rfl, rfl, past, verifying, -⟩ := acts.applies write
    have before' := acts.committed_before acts.current rfl committed
    rw [acts.builtAt_after verifying (by decide), acts.builtAt_after before' (by decide)]
    exact acts.forward.pastFloor i work other acts.current past before'

section

variable (after : (box.later reaction id).status = .committed)
include after

theorem date_after :
    ((box.table.row id).status = .committed ∧
        (box.later reaction id).updatedAt = (box.table.row id).updatedAt) ∨
      ((box.later reaction id).updatedAt = box.now ∧
        ∀ other, other ≠ id → (box.later reaction other).status = .committed →
          (box.table.row other).status = .committed ∧
            (box.later reaction other).updatedAt = (box.table.row other).updatedAt ∧
            (box.table.row other).builtAt < (box.table.row id).builtAt) := by
  rcases DbWrite.apply_committed (acts.forward.free id) after with
    ⟨before, -, -, same | ⟨date, outcome, write⟩⟩ | ⟨-, -, date, reason, outcome, write⟩
  · exact .inl ⟨before, same⟩
  · refine .inr ⟨date, ?_⟩
    intro other differ after'
    obtain ⟨work, rfl, rfl, settled⟩ := acts.floor.records id outcome write
    rcases DbWrite.apply_committed (acts.forward.free other) after' with
      ⟨before', -, -, same | ⟨-, outcome', write'⟩⟩ | ⟨-, -, -, reason', outcome', write'⟩
    · have latest := acts.forward.latest i work other acts.current settled before'
      refine ⟨before', same, ?_⟩
      rcases acts.forward.ordered other work.id before' before differ with newer | older
      · exact newer.1
      · omega
    · rw [write] at write'
      cases write'
      exact absurd rfl differ
    · rw [write] at write'
      cases write'
  · refine .inr ⟨date, ?_⟩
    intro other differ after'
    obtain ⟨work, -, -, -, applying⟩ := acts.commits write
    rcases DbWrite.apply_committed (acts.forward.free other) after' with
      ⟨before', -, -, same | ⟨-, outcome', write'⟩⟩ | ⟨-, -, -, reason', outcome', write'⟩
    · exact ⟨before', same, acts.forward.ahead id other applying before'⟩
    · rw [write] at write'
      cases write'
    · rw [write] at write'
      cases write'
      exact absurd rfl differ

theorem builtAt_committed : (box.later reaction id).builtAt = (box.table.row id).builtAt := by
  rcases acts.committed_after after with before | ⟨work, -, -, -, before⟩
  all_goals exact acts.builtAt_after before (by decide)

theorem ordered_after {other : ℕ} (after' : (box.later reaction other).status = .committed) (differ : id ≠ other) :
    ((box.later reaction id).builtAt < (box.later reaction other).builtAt ∧
        (box.later reaction id).updatedAt < (box.later reaction other).updatedAt) ∨
      ((box.later reaction other).builtAt < (box.later reaction id).builtAt ∧
        (box.later reaction other).updatedAt < (box.later reaction id).updatedAt) := by
  rw [acts.builtAt_committed after, acts.builtAt_committed after']
  rcases acts.date_after after with ⟨before, date⟩ | ⟨date, newest⟩
  · rcases acts.date_after after' with ⟨before', date'⟩ | ⟨date', newest'⟩
    · rw [date, date']
      exact acts.forward.ordered id other before before' differ
    · obtain ⟨-, date, older⟩ := newest' id differ after
      rw [date, date']
      exact .inl ⟨older, acts.forward.dated id before⟩
  · obtain ⟨before', date', older⟩ := newest other (Ne.symm differ) after'
    rw [date, date']
    exact .inr ⟨older, acts.forward.dated other before'⟩

theorem dated_after : (box.later reaction id).updatedAt < box.now + 1 := by
  rcases acts.date_after after with ⟨before, date⟩ | ⟨date, -⟩
  · have dated := acts.forward.dated id before
    omega
  · omega

end

end

end Acts

theorem Forward.installed {box : Box} (claimed : Claimed box) (forward : Forward box)
    (committed : (box.table.row id).status = .committed) :
    ∃ installed, box.table.installedRelease = some installed ∧
      (box.table.row installed).status = .committed ∧
      (box.table.row id).builtAt ≤ (box.table.row installed).builtAt := by
  obtain ⟨sound, complete⟩ := installedRelease_latest box.table
  have known := claimed.tidy.known committed (by decide)
  obtain ⟨installed, same, later⟩ := complete id known committed
  refine ⟨installed, same, sound installed same, ?_⟩
  by_cases itself : id = installed
  · rw [itself]
  · rcases forward.ordered id installed committed (sound installed same) itself with newer | older
    · exact le_of_lt newer.1
    · omega

theorem Forward.newer {box : Box} (claimed : Claimed box) (forward : Forward box) {work : Run}
    {channel : String} (passes : work.staleReason box.table channel = none) {other : ℕ}
    (committed : (box.table.row other).status = .committed) :
    (box.table.row other).builtAt < work.seen.release.builtAt := by
  obtain ⟨installed, same, -, later⟩ := forward.installed claimed committed
  simp only [Run.staleReason, same] at passes
  split at passes
  · cases passes
  · split at passes
    · cases passes
    · rename_i newer
      unfold Row.builtAt at later ⊢
      omega

namespace Acts

variable {box : Box} {i : ℕ} {task : Task} {reaction : Reaction}

theorem count_after (_ : Acts box i task reaction) :
    box.table.count ≤ (reaction.db.apply box.table box.now).count := by
  rcases DbWrite.apply_count box.table box.now reaction.db with same | ⟨more, -⟩ <;> omega

theorem known_after (acts : Acts box i task reaction) {j : ℕ} {next : Run}
    (found : (box.tasks.set i reaction.task)[j]? = some (.run next)) :
    next.id < (reaction.db.apply box.table box.now).count ∧
      next.seen.release = (box.later reaction next.id).release := by
  have before := acts.floor.known acts.claimed acts.current acts.forward.known found
  exact ⟨lt_of_lt_of_le before.1 acts.count_after, by
    rw [DbWrite.apply_release before.1]; exact before.2⟩

theorem pastFloor_after (acts : Acts box i task reaction) {j other : ℕ} {next : Run}
    (found : (box.tasks.set i reaction.task)[j]? = some (.run next))
    (past : next.stage.pastFloor) (committed : (box.later reaction other).status = .committed) :
    (box.later reaction other).builtAt < (box.later reaction next.id).builtAt := by
  -- the run was under way before, so nothing has committed meanwhile
  have before : ∃ (work : Run) (place : ℕ), box.tasks[place]? = some (.run work) ∧
      next.id = work.id ∧ (work.stage.pastFloor ∨
        ∃ channel, work.staleReason box.table channel = none) := by
    rcases set_cases found with ⟨-, same⟩ | ⟨-, old⟩
    · rcases acts.floor.runs next same.symm with ⟨work, rfl, place, -, floor⟩ | ⟨-, early, -⟩
      · exact ⟨work, i, acts.current, place, (floor past).imp_right And.right⟩
      · rcases early with early | early <;> simp [early, RunStage.pastFloor] at past
    · exact ⟨next, j, old, rfl, .inl past⟩
  obtain ⟨work, place, current, same, floor⟩ := before
  have committed' := acts.committed_before current rfl committed
  obtain ⟨known, release⟩ := acts.forward.known place work current
  rw [acts.builtAt_after committed' (by decide), same]
  have unchanged : (box.later reaction work.id).builtAt = (box.table.row work.id).builtAt := by
    unfold Row.builtAt
    rw [DbWrite.apply_release known]
  rw [unchanged]
  rcases floor with floor | ⟨channel, newer⟩
  · exact acts.forward.pastFloor place work other current floor committed'
  · have above := acts.forward.newer acts.claimed newer committed'
    unfold Row.builtAt at above ⊢
    rw [← release]
    exact above

variable {next : Resume}

section

variable (acts : Acts box i task reaction)
include acts

theorem resume_before {j : ℕ} (found : (box.tasks.set i reaction.task)[j]? = some (.resume next)) :
    ∃ work : Resume, box.tasks[j]? = some (.resume work) ∧ next.id = work.id ∧
      (next.stage.settled → work.stage.settled ∨
        ((box.table.row work.id).status = .applying ∧
          (box.later reaction work.id).status = .committed)) := by
  rcases set_cases found with ⟨rfl, same⟩ | ⟨-, old⟩
  · obtain ⟨work, rfl, place, settled⟩ := acts.floor.resumes next same.symm
    refine ⟨work, acts.current, place, ?_⟩
    intro after
    rcases settled after with before | ⟨seen, reason, outcome, write, unchanged⟩
    · exact .inl before
    · have hits : reaction.db.hits box.table := by simp [write, DbWrite.hits, unchanged]
      rw [← unchanged] at write
      obtain ⟨-, -, -, -, applying⟩ := acts.commits write
      refine .inr ⟨applying, ?_⟩
      rw [write] at hits
      simp [Box.later, write, DbWrite.apply, hits, Table.update, Row.advance]
  · exact ⟨next, old, rfl, .inl⟩

theorem quiet_after {j k : ℕ} {other : Task} (found : (box.tasks.set i reaction.task)[j]? = some (.resume next))
    (found' : (box.tasks.set i reaction.task)[k]? = some other)
    (applying : (box.later reaction next.id).status = .applying) : other.starts = false := by
  obtain ⟨work, old, same, -⟩ := acts.resume_before found
  rw [same] at applying
  obtain ⟨known, final, -⟩ := acts.claimed.resumed j _ work.id old rfl
  have before : (box.table.row work.id).status = .applying := by
    rcases DbWrite.apply_applying applying with before | ⟨reason, outcome, write⟩
    · exact before
    · obtain ⟨-, -, -, -, verifying, -⟩ := acts.applies write
      rw [verifying] at final
      cases final
  have unsettled : work.stage.settled = false := by
    by_contra settled
    have committed := acts.forward.settled j work old (by simpa using settled)
    rw [before] at committed
    cases committed
  rcases set_cases found' with ⟨-, rfl⟩ | ⟨-, old'⟩
  · by_contra starts
    rcases acts.floor.starts (by simpa using starts) with starts' | idle
    · have quiet := acts.forward.quiet j i work task old acts.current unsettled before
      rw [starts'] at quiet
      cases quiet
    · have none := Table.newest_none idle known
      simp [before] at none
  · exact acts.forward.quiet j k work other old old' unsettled before

theorem committed_stays (before : (box.table.row id).status = .committed) :
    (box.later reaction id).status = .committed := by
  have known := acts.claimed.tidy.known before (by decide)
  rcases DbWrite.apply_status acts.allowed known with same | edge
  · exact same.trans before
  · rw [before] at edge
    cases edge

theorem settled_after {j : ℕ} (found : (box.tasks.set i reaction.task)[j]? = some (.resume next))
    (settled : next.stage.settled) : (box.later reaction next.id).status = .committed := by
  obtain ⟨work, old, same, cases⟩ := acts.resume_before found
  rw [same]
  rcases cases settled with before | ⟨-, committed⟩
  · exact acts.committed_stays (acts.forward.settled j work old before)
  · exact committed

theorem latest_after {j other : ℕ} (found : (box.tasks.set i reaction.task)[j]? = some (.resume next))
    (settled : next.stage.settled) (committed : (box.later reaction other).status = .committed) :
    (box.later reaction other).builtAt ≤ (box.later reaction next.id).builtAt := by
  have itself := acts.settled_after found settled
  obtain ⟨work, old, same, cases⟩ := acts.resume_before found
  rw [acts.builtAt_committed committed, acts.builtAt_committed itself, same]
  rcases acts.committed_after committed with before | ⟨acting, rfl, rfl, unsettled, -⟩
  · rcases cases settled with settled | ⟨applying, -⟩
    · exact acts.forward.latest j work other old settled before
    · exact le_of_lt (acts.forward.ahead work.id other applying before)
  · -- there is one resume
    have one := acts.claimed.alone j i _ _ work.id acting.id old acts.current rfl rfl
    subst one
    rw [acts.current] at old
    cases old
    exact le_refl _

end

end Acts

theorem Forward.perform {box : Box} {i : ℕ} {task : Task} {reaction : Reaction}
    (acts : Acts box i task reaction) : Forward { box.perform i reaction with now := box.now + 1 } where
  known _ _ found := acts.known_after found
  free _ committed := acts.free_after committed
  alone _ _ applying applying' := acts.alone_after applying applying'
  ahead _ _ applying committed := acts.ahead_after applying committed
  pastFloor _ _ _ found past committed := acts.pastFloor_after found past committed
  quiet _ _ _ _ found found' _ applying := acts.quiet_after found found' applying
  ordered _ _ committed committed' differ := acts.ordered_after committed committed' differ
  dated _ committed := acts.dated_after committed
  settled _ _ found settled := acts.settled_after found settled
  latest _ _ _ found settled committed := acts.latest_after found settled committed

theorem Forward.fresh (host : Host) : Forward (Box.fresh host) := by
  constructor <;> simp [Box.fresh, Table.empty, Row.absent]

theorem Forward.same_table {box after : Box} (forward : Forward box)
    (table : after.table = box.table) (now : after.now = box.now + 1)
    (tasks : ∀ (j : ℕ) (task : Task), after.tasks[j]? = some task →
      box.tasks[j]? = some task ∨ ((∀ work, task ≠ .resume work) ∧
        (∀ work, task = .run work → work.id < box.table.count ∧
          work.seen.release = (box.table.row work.id).release ∧ work.stage.pastFloor = false) ∧
        (task.starts → ∀ (k : ℕ) (work : Resume), box.tasks[k]? = some (.resume work) →
          work.stage.settled))) : Forward after := by
  have resume : ∀ (j : ℕ) (work : Resume), after.tasks[j]? = some (.resume work) →
      box.tasks[j]? = some (.resume work) := by
    intro j work found
    rcases tasks j _ found with old | ⟨other, -⟩
    · exact old
    · exact absurd rfl (other work)
  constructor
  · intro j work found
    rw [table]
    rcases tasks j _ found with old | ⟨-, known, -⟩
    · exact forward.known j work old
    · obtain ⟨place, release, -⟩ := known work rfl
      exact ⟨place, release⟩
  · rw [table]
    exact forward.free
  · rw [table]
    exact forward.alone
  · rw [table]
    exact forward.ahead
  · intro j work other found past
    rw [table]
    rcases tasks j _ found with old | ⟨-, known, -⟩
    · exact forward.pastFloor j work other old past
    · obtain ⟨-, -, early⟩ := known work rfl
      rw [early] at past
      cases past
  · intro j k work task found found' unsettled
    rw [table]
    intro applying
    rcases tasks k task found' with old | ⟨-, -, starts⟩
    · exact forward.quiet j k work task (resume j work found) old unsettled applying
    · by_contra started
      rw [starts (by simpa using started) j work (resume j work found)] at unsettled
      cases unsettled
  · rw [table]
    exact forward.ordered
  · intro id
    rw [table, now]
    intro committed
    exact Nat.lt_succ_of_lt (forward.dated id committed)
  · intro j work found
    rw [table]
    exact forward.settled j work (resume j work found)
  · intro j work other found
    rw [table]
    exact forward.latest j work other (resume j work found)

theorem Forward.spawn {box : Box} (forward : Forward box) {task : Task}
    (noResume : ∀ work, task ≠ .resume work) (known : ∀ work, task = .run work → work.id < box.table.count ∧
      work.seen.release = (box.table.row work.id).release ∧ work.stage.pastFloor = false)
    (starts : task.starts → ∀ (k : ℕ) (work : Resume), box.tasks[k]? = some (.resume work) →
      work.stage.settled) :
    Forward { box.spawn task with now := box.now + 1 } := by
  refine forward.same_table rfl rfl ?_
  intro j other found
  rcases append_cases found with ⟨-, rfl⟩ | old
  · exact .inr ⟨noResume, known, starts⟩
  · exact .inl old

theorem settled_of_not_resuming {box : Box} (free : box.resuming = false) {k : ℕ} {work : Resume}
    (found : box.tasks[k]? = some (.resume work)) : work.stage.settled := by
  have member := List.mem_of_getElem? found
  simp only [Box.resuming, List.any_eq_false] at free
  have idle := free _ member
  cases stage : work.stage <;> simp_all [ResumeStage.settled]

theorem Forward.boot {box : Box} (forward : Forward box) : Forward { box.boot with now := box.now + 1 } := by
  have status : ∀ id, (box.boot.table.row id).status = (box.table.row id).status :=
    fun id => (clearClaims_row box.table box.now id).1
  have builtAt : ∀ id, (box.boot.table.row id).builtAt = (box.table.row id).builtAt := by
    intro id
    exact congrArg Release.builtAt (clearClaims_release box.table box.now id)
  -- a committed row has no claim to clear
  have date : ∀ id, (box.table.row id).status = .committed →
      (box.boot.table.row id).updatedAt = (box.table.row id).updatedAt := by
    intro id committed
    exact congrArg Row.updatedAt (clearClaims_unclaimed box.now (forward.free id committed))
  -- the one task there is starts nothing unless it is the only kind of task there is
  have only : ∃ task, box.boot.tasks = [task] ∧ (∀ work, task ≠ .run work) ∧
      ∀ work, task = .resume work → work.stage.settled = false := by
    rcases Box.boot_cases box with ⟨tasks, -⟩ | ⟨id, -, tasks⟩
    · exact ⟨_, tasks, by simp, by simp⟩
    · refine ⟨_, tasks, by simp, ?_⟩
      intro work same
      cases same
      rfl
  obtain ⟨task, tasks, noRun, unsettled⟩ := only
  have one : ∀ (j : ℕ) (other : Task), box.boot.tasks[j]? = some other → other = task := by
    intro j other found
    rw [tasks] at found
    exact (singleton_cases found).2
  constructor
  · intro j work found
    exact absurd (one j _ found).symm (noRun work)
  · intro id _
    exact (clearClaims_row box.table box.now id).2
  · intro id other
    simp only [status]
    exact forward.alone id other
  · intro id other
    simp only [status, builtAt]
    exact forward.ahead id other
  · intro j work other found
    exact absurd (one j _ found).symm (noRun work)
  · intro j k work other found found' _ _
    rw [one k other found', ← one j _ found]
    rfl
  · intro id other
    simp only [status, builtAt]
    intro committed committed' differ
    rw [date id committed, date other committed']
    exact forward.ordered id other committed committed' differ
  · intro id
    simp only [status]
    intro committed
    rw [date id committed]
    exact Nat.lt_succ_of_lt (forward.dated id committed)
  · intro j work found settled
    rw [unsettled work (one j _ found).symm] at settled
    cases settled
  · intro j work other found settled
    rw [unsettled work (one j _ found).symm] at settled
    cases settled

theorem Forward.step {box : Box} (claimed : Claimed box) (targeted : box.Targeted)
    (forward : Forward box) {event : Event} (exclusive : box.exclusive event) : Forward (box.step event) := by
  have moved := box.step_moved event
  generalize box.step event = after at moved
  cases moved with
  | still | helperDies => exact forward.same_table rfl rfl fun _ _ found => .inl found
  | spawns _ task spawns =>
    cases spawns with
    | window free =>
      rcases pickRun_cases box.table box.now with ends | ⟨next, goes, seen, stage, known⟩
      · rw [ends]
        exact forward.spawn (by simp) (by simp) (by simp [Task.starts])
      · rw [goes]
        refine forward.spawn (by simp) ?_ ?_
        · intro work same
          cases same
          exact ⟨known, by rw [seen], by rw [stage]; rfl⟩
        · intro _ k work found
          exact settled_of_not_resuming free found
    | _ => exact forward.spawn (by simp) (by simp) (by simp [Task.starts])
  | acts i answer task current =>
    apply Forward.perform
    refine ⟨claimed, targeted i task current, forward, current, Task.claimsKept .., Task.floorKept .., ?_⟩
    intro work seen reason outcome other same stage differ
    rw [same] at current
    exact Box.exclusive_applying claimed.tidy exclusive current stage differ
  | helps i answer helper found =>
    obtain ⟨table, tasks⟩ := helperStep_cases box i helper answer
    refine forward.same_table table rfl ?_
    intro j task found
    rcases tasks with tasks | tasks
    · rw [← tasks]
      exact .inl found
    · simp only [tasks] at found
      cases found
  | dies => exact forward.same_table rfl rfl (by simp [Box.die])
  | boots => exact forward.boot

theorem Forward.run (host : Host) (events : List Event)
    (along : Box.along Box.exclusive (Box.fresh host) events) : Forward ((Box.fresh host).run events) := by
  have all := Box.along_induction (motive := fun box => Claimed box ∧ box.Targeted ∧ Forward box) host
    ⟨Claimed.fresh host, by simp [Box.Targeted, Box.fresh], Forward.fresh host⟩
    (fun box event ⟨claimed, targeted, forward⟩ exclusive =>
      ⟨claimed.step event, targeted.step event, forward.step claimed targeted exclusive⟩)
    events along
  exact all.2.2

def Box.CommitsNewer (box : Box) (event : Event) : Prop :=
  ∀ id other, ((box.step event).table.row id).status = .committed →
    (box.table.row id).status ≠ .committed → (box.table.row other).status = .committed →
    (box.table.row other).builtAt < ((box.step event).table.row id).builtAt

/-- `installedRelease` is the newest of the committed rows. -/
def Box.FloorIsNewest (box : Box) : Prop :=
  (∀ installed, box.table.installedRelease = some installed →
      (box.table.row installed).status = .committed) ∧
    ∀ id, (box.table.row id).status = .committed →
      ∃ installed, box.table.installedRelease = some installed ∧
        (box.table.row id).builtAt ≤ (box.table.row installed).builtAt

theorem Forward.commits_newer {box : Box} (claimed : Claimed box) (forward : Forward box)
    (event : Event) : box.CommitsNewer event := by
  intro id other after before committed
  rcases Box.step_table box event with same | ⟨i, answer, task, -, current, writes⟩ | ⟨-, boot⟩
  · rw [same] at after
    exact absurd after before
  · rw [writes] at after ⊢
    have claims := box.claimsKept task answer
    have floor := box.floorKept task answer
    generalize box.react task answer = reaction
      at after claims floor
    rcases DbWrite.apply_committed (forward.free id) after with
      ⟨old, -⟩ | ⟨release, -, -, reason, outcome, write⟩
    · exact absurd old before
    · have edge := claims.allowed (claimed.edges i task current)
      rw [write] at edge
      have older := forward.ahead id other (seen_of_committed edge) committed
      unfold Row.builtAt at older ⊢
      rw [release]
      exact older
  · rw [boot, (clearClaims_row box.table box.now id).1] at after
    exact absurd after before

/-- Along every run in which a row is put to `applying` only while no other row is: whatever commits
is newer than everything committed before, and the floor is the newest committed release. -/
theorem box_never_goes_backwards (host : Host) (events : List Event) (event : Event)
    (along : Box.along Box.exclusive (Box.fresh host) events) :
    ((Box.fresh host).run events).CommitsNewer event ∧
      ((Box.fresh host).run events).FloorIsNewest := by
  have claimed := Claimed.run host events
  have forward := Forward.run host events along
  refine ⟨forward.commits_newer claimed event, ?_, ?_⟩
  · exact (installedRelease_latest _).1
  · intro id committed
    obtain ⟨installed, same, -, newer⟩ := forward.installed claimed committed
    exact ⟨installed, same, newer⟩

/-- A release of one service; every such release has the same orchestrator image. -/
def sharedRelease (gitSha : String) (builtAt : ℤ) : Release where
  channel := "stable"
  gitSha := gitSha
  builtAt := builtAt
  manifest := ⟨[⟨"orchestrator", "box@sha256:1", "sha256:1", true⟩], "tree"⟩

def bareHost : Host where
  refs name := if name = "orchestrator" then some "box@sha256:0" else none
  tree := "installed"
  dirs _ := ⟨none, none, none⟩
  helpers := []

def answers (i : ℕ) (told : List Answer) : List Event := told.map (.advance i)

def polled (i : ℕ) (found : Release) : List Event :=
  [.poll found] ++ answers i [.done, .done, .done]

/-- A window runs from the claim to the hand-off of the orchestrator. -/
def handedOff (i : ℕ) : List Event :=
  [.window] ++ answers i [.done, .channel "stable", .done, .ready true, .done, .done, .done, .done,
    .done, .done, .done, .done, .done, .done, .done, .done, .done, .done, .recreated [],
    .probed fun _ _ => true, .done, .done]

/-- A boot up to the write of its verdict. -/
def judged : List Event :=
  [.boot] ++ answers 0 [.done, .done, .listening true, .probed fun _ _ => true, .done]

/-- The second update waits for the first one's verdict. -/
def inTurn : List Event :=
  [.boot] ++ answers 0 [.done] ++ polled 1 (sharedRelease "a" 1) ++ handedOff 2 ++
    [.helper 0 .done] ++ judged ++ answers 0 [.done] ++ polled 1 (sharedRelease "b" 2) ++
    handedOff 2 ++ [.helper 1 .done] ++ judged

theorem in_turn_goes_forward :
    Box.along Box.exclusive (Box.fresh bareHost) inTurn ∧
      ((Box.fresh bareHost).run inTurn).CommitsNewer (.advance 0 .done) ∧
      ((Box.fresh bareHost).run inTurn).FloorIsNewest := by
  have along : Box.along Box.exclusive (Box.fresh bareHost) inTurn := by decide
  exact ⟨along, box_never_goes_backwards bareHost inTurn (.advance 0 .done) along⟩

/-- The helper of the first update is lost and its row stays `applying`; the next window takes the
second one. Both have the image that runs, so the boots commit the second and then the first. -/
def sideBySide : List Event :=
  [.boot] ++ answers 0 [.done] ++ polled 1 (sharedRelease "a" 1) ++ handedOff 2 ++
    [.helperDies 0] ++ polled 3 (sharedRelease "b" 2) ++ handedOff 4 ++ [.helper 1 .done] ++
    judged ++ answers 0 [.done] ++ [.crash] ++ judged

theorem side_by_side_goes_backwards :
    ¬((Box.fresh bareHost).run sideBySide).CommitsNewer (.advance 0 .done) := by
  intro newer
  have older := newer 0 1 (by decide +kernel) (by decide +kernel) (by decide +kernel)
  exact absurd older (by decide +kernel)

end Droplet.Update
