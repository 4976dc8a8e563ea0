import Droplet.Filing.Calls
import Droplet.Filing.Written

/-! A proposal is decided once, however the calls interleave. -/

namespace Droplet.Filing

open Fallible

/-- The status and the policy class before and after a statement. -/
inductive Moves (what : Happened) (id : RowId) : Option IngestProposal → Option IngestProposal → Prop
  | absent (elsewhere : what ≠ .applied id) : Moves what id none none
  | proposed (row : IngestProposal) (pending : row.status = .PENDING) (elsewhere : what ≠ .applied id) :
      Moves what id none (some row)
  | stays (row next : IngestProposal) (status : next.status = row.status)
      (policy : next.policyClass = .NEVER ↔ row.policyClass = .NEVER) (elsewhere : what ≠ .applied id) :
      Moves what id (some row) (some next)
  | applied (row next : IngestProposal) (same : what = .applied id) (was : row.status = .PENDING)
      (is_ : next.status = .APPLIED) (allowed : row.policyClass ≠ .NEVER)
      (policy : next.policyClass = row.policyClass) : Moves what id (some row) (some next)
  | refused (row next : IngestProposal) (was : row.status = .PENDING)
      (is_ : next.status = .REJECTED ∨ next.status = .NOT_SAME)
      (policy : next.policyClass = row.policyClass) (elsewhere : what ≠ .applied id) :
      Moves what id (some row) (some next)
  | undone (row next : IngestProposal) (was : row.status = .APPLIED) (is_ : next.status = .UNDONE)
      (policy : next.policyClass = row.policyClass) (elsewhere : what ≠ .applied id) :
      Moves what id (some row) (some next)

variable {what : Happened} {id other : RowId} {db after : Db}

theorem Moves.same (before : Option IngestProposal) (elsewhere : what ≠ .applied id) :
    Moves what id before before := by
  cases before with
  | none => exact .absent elsewhere
  | some row => exact .stays row row rfl Iff.rfl elsewhere

theorem Moves.update {before : Option IngestProposal} {change : IngestProposal → IngestProposal}
    (status : ∀ row, (change row).status = row.status)
    (policy : ∀ row, (change row).policyClass = .NEVER ↔ row.policyClass = .NEVER)
    (elsewhere : what ≠ .applied id) : Moves what id before (before.map change) := by
  cases before with
  | none => exact .absent elsewhere
  | some row => exact .stays row (change row) (status row) (policy row) elsewhere

theorem updateProposal_get (data : IngestProposal → IngestProposal) :
    (db.updateProposal id data).proposals.get other =
      (db.proposals.get other).map fun row => if other = id then data row else row := by
  simp [Db.updateProposal, Table.get_updateMany]

theorem reversed_proposals (created : Created) (now : Instant) :
    (reversed db created now).db.proposals = db.proposals := by
  have caption (state : Reversal) (pointer : Option RowId) :
      (state.caption pointer).db.proposals = state.db.proposals := by
    cases pointer <;> rfl
  have document (state : Reversal) (pointer : Option RowId) :
      (state.document pointer).db.proposals = state.db.proposals := by
    cases pointer <;> rfl
  have project (state : Reversal) (pointer : Option RowId) :
      (state.project pointer now).db.proposals = state.db.proposals := by
    cases pointer <;> rfl
  have contact (state : Reversal) (pointer : Option RowId) :
      (state.contact pointer now).db.proposals = state.db.proposals := by
    cases pointer with
    | none => rfl
    | some id =>
      simp only [Reversal.contact, withPointer]
      split <;> rfl
  have company (state : Reversal) (pointer : Option RowId) :
      (state.company pointer now).db.proposals = state.db.proposals := by
    cases pointer with
    | none => rfl
    | some id =>
      simp only [Reversal.company, withPointer]
      split <;> rfl
  have link (state : Reversal) (pointer : Option RowId) :
      (state.link pointer now).db.proposals = state.db.proposals := by
    cases pointer with
    | none => rfl
    | some id =>
      simp only [Reversal.link, withPointer]
      split <;> rfl
  rw [reversed, link, company, contact, project, document, caption]

theorem reverse_proposals (reading : Reading) (proposal : IngestProposal) (hand : Hand) :
    (reverse reading db id proposal hand).db.proposals.get other = (db.proposals.get other).map fun row =>
      if other = id then
        { row with undoMode := (reversed db proposal.created hand.now).mode } else row := by
  unfold reverse Reversal.remember
  dsimp only
  split
  all_goals
    simp only [updateProposal_get, reversed_proposals]

/-- One proposal is changed, and no other. -/
structure OneRow (db after : Db) (id : RowId) (row next : IngestProposal) : Prop where
  found : db.proposals.get id = some row
  there : after.proposals.get id = some next
  rest : ∀ other, other ≠ id → after.proposals.get other = db.proposals.get other

theorem OneRow.each {row next : IngestProposal} (one : OneRow db after id row next)
    (relation : RowId → Option IngestProposal → Option IngestProposal → Prop)
    (changed : relation id (some row) (some next)) (same : ∀ before, other ≠ id → relation other before before) :
    relation other (db.proposals.get other) (after.proposals.get other) := by
  by_cases here : other = id
  · rw [here, one.found, one.there]
    exact changed
  · rw [one.rest other here]
    exact same _ here

theorem rejectProposal_row {hand : Hand} (runs : rejectProposal db id hand = .ok after) :
    ∃ row, row.status = .PENDING ∧
      OneRow db after id row { row.decide .REJECTED hand with evidence := none } := by
  obtain ⟨row, found, pending, -, there, rest⟩ := moveProposal_cases runs
  exact ⟨row, pending, found, there, rest⟩

theorem markNotSame_row {reading : Reading} {companyId : RowId} {hand : Hand}
    (runs : markNotSame reading db id companyId hand = .ok after) :
    ∃ row, row.status = .PENDING ∧
      OneRow db after id row { row.decide .NOT_SAME hand with evidence := none } := by
  rw [markNotSame] at runs
  split at runs
  · contradiction
  · obtain ⟨moved, moves, runs⟩ := bind_ok_iff.mp runs
    have proposals : after.proposals = moved.proposals := by
      dsimp only at runs
      split at runs
      · rw [← pure_ok_iff.mp runs]
      · simp only [bind_ok_iff, pure_ok_iff] at runs
        obtain ⟨-, -, rfl⟩ := runs
        rfl
    obtain ⟨row, found, pending, -, there, rest⟩ := moveProposal_cases moves
    rw [← proposals] at there rest
    exact ⟨row, pending, found, there, rest⟩

theorem undoTransaction_row {reading : Reading} {proposal : IngestProposal} {hand : Hand}
    {back : Reversal} (runs : undoTransaction reading db id proposal hand = .ok back) :
    ∃ row undoMode, row.status = .APPLIED ∧
      OneRow db back.db id row { row.undone hand with undoMode := undoMode } := by
  obtain ⟨claimed, claims, runs⟩ := bind_ok_iff.mp runs
  obtain rfl := pure_ok_iff.mp runs
  obtain ⟨row, found, applied, -, there, rest⟩ := moveProposal_cases claims
  refine ⟨row, (reversed claimed proposal.created hand.now).mode, applied, found, ?_, ?_⟩
  · simp [reverse_proposals, there]
  · intro other apart
    simp [reverse_proposals, rest other apart, apart]

theorem applyTransaction_row {reading : Reading} {pre : Preflight} {ctx : ApplyContext}
    {created : Created} (runs : applyTransaction reading db id pre ctx = .ok (after, created)) :
    ∃ row, row.status = .PENDING ∧
      OneRow db after id row { row.applied ctx.hand with created := created } := by
  obtain ⟨claimed, claims, runs⟩ := bind_ok_iff.mp runs
  obtain ⟨done, performs, runs⟩ := bind_ok_iff.mp runs
  obtain ⟨rfl, rfl⟩ := Prod.mk.inj (pure_ok_iff.mp runs)
  obtain ⟨row, found, pending, -, there, rest⟩ := moveProposal_cases claims
  refine ⟨row, pending, found, ?_, ?_⟩
  · simp [updateProposal_get, Applying.performApply_proposals performs, there]
  · intro other apart
    simp [updateProposal_get, Applying.performApply_proposals performs, rest other apart, apart]

/-- A call that returns has committed its transaction. -/
inductive Commits (reading : Reading) (db : Db) (answer : Answer) (after : Db) :
    CallStage → Happened → Prop
  | rejected (id actorId : RowId) (runs : rejectProposal db id ⟨actorId, answer.now⟩ = .ok after) :
      Commits reading db answer after (.called (.reject id actorId)) (.rejected id)
  | notSame (id companyId actorId : RowId)
      (runs : markNotSame reading db id companyId ⟨actorId, answer.now⟩ = .ok after) :
      Commits reading db answer after (.called (.notSame id companyId actorId)) (.notSame id)
  | applied (id actorId : RowId) (chooseCompanyId : Option RowId) (pre : Preflight) (created : Created)
      (runs : applyTransaction reading db id pre ⟨⟨actorId, answer.now⟩, answer.ids, chooseCompanyId⟩ =
        .ok (after, created)) :
      Commits reading db answer after (.applyTransaction id actorId chooseCompanyId pre) (.applied id)
  | undone (id actorId : RowId) (proposal : IngestProposal) (back : Reversal)
      (runs : undoTransaction reading db id proposal ⟨actorId, answer.now⟩ = .ok back)
      (same : back.db = after) :
      Commits reading db answer after (.undoTransaction id actorId proposal) (.undone id)

variable {answer : Answer} {stage : CallStage}

theorem serve_commits {reading : Reading} {what : Happened}
    (runs : serve reading db answer stage = .ok (.returns after what)) :
    Commits reading db answer after stage what := by
  cases stage with
  | called call =>
    cases call with
    | apply | undo =>
      obtain ⟨_, -, runs⟩ := bind_ok_iff.mp runs
      cases pure_ok_iff.mp runs
    | reject id actorId =>
      obtain ⟨rejected, rejects, runs⟩ := bind_ok_iff.mp runs
      obtain ⟨rfl, rfl⟩ := Progress.returns.inj (pure_ok_iff.mp runs)
      exact .rejected id actorId rejects
    | notSame id companyId actorId =>
      obtain ⟨marked, marks, runs⟩ := bind_ok_iff.mp runs
      obtain ⟨rfl, rfl⟩ := Progress.returns.inj (pure_ok_iff.mp runs)
      exact .notSame id companyId actorId marks
  | source =>
    obtain ⟨_, -, runs⟩ := bind_ok_iff.mp runs
    cases pure_ok_iff.mp runs
  | applyTransaction id actorId chooseCompanyId pre =>
    obtain ⟨done, applies, runs⟩ := bind_ok_iff.mp runs
    obtain ⟨rfl, rfl⟩ := Progress.returns.inj (pure_ok_iff.mp runs)
    exact .applied id actorId chooseCompanyId pre done.2 applies
  | undoTransaction id actorId proposal =>
    obtain ⟨back, undoes, runs⟩ := bind_ok_iff.mp runs
    obtain ⟨rfl, rfl⟩ := Progress.returns.inj (pure_ok_iff.mp runs)
    exact .undone id actorId proposal back undoes rfl

/-- A call past its preflight has seen a proposal that may be applied. -/
def CallStage.Sound (db : Db) : CallStage → Prop
  | .source id _ _ _ _ | .applyTransaction id _ _ _ =>
    ∃ row, db.proposals.get id = some row ∧ row.policyClass ≠ .NEVER
  | .called _ | .undoTransaction _ _ _ => True

def Position.Sound (db : Db) : Position → Prop
  | .calls stage _ => stage.Sound db
  | .works _ => True

theorem Moves.allowed (moves : Moves what id (db.proposals.get id) (after.proposals.get id))
    (allowed : ∃ row, db.proposals.get id = some row ∧ row.policyClass ≠ .NEVER) :
    ∃ row, after.proposals.get id = some row ∧ row.policyClass ≠ .NEVER := by
  obtain ⟨row, found, allowed⟩ := allowed
  rw [found] at moves
  cases there : after.proposals.get id with
  | none =>
    rw [there] at moves
    nomatch moves
  | some next =>
    refine ⟨next, rfl, ?_⟩
    rw [there] at moves
    cases moves with
    | stays _ _ _ policy _ => exact fun never => allowed (policy.mp never)
    | applied _ _ _ _ _ _ policy | refused _ _ _ _ policy | undone _ _ _ _ policy =>
      exact policy ▸ allowed

variable {position : Position}

theorem Position.Sound.moves (sound : position.Sound db)
    (moves : ∀ id, Moves what id (db.proposals.get id) (after.proposals.get id)) : position.Sound after := by
  cases position with
  | works => trivial
  | calls stage =>
    cases stage with
    | called | undoTransaction => trivial
    | source id | applyTransaction id => exact (moves id).allowed sound

theorem nextApply_sound {actorId : RowId} {caps : CapState}
    {rest : List (RowId × IngestProposalKind)} (next : nextApply actorId caps rest = some position) :
    position.Sound db := by
  induction rest with
  | nil => cases next
  | cons first rest ih =>
    rw [nextApply] at next
    split at next
    · exact ih next
    · rw [← Option.some.inj next]
      trivial

variable {ended : ℕ} {activity : Activity}

theorem Tick.proceed_some {tick : Tick} (next : tick.proceed ended = some activity) :
    activity.ended = ended ∧ activity.position.Sound db := by
  obtain ⟨position, found, rfl⟩ := Option.map_eq_some_iff.mp next
  exact ⟨rfl, nextApply_sound found⟩

theorem afterReturn_some {tick : Option Tick} (next : afterReturn ended tick = some activity) :
    activity.ended = ended + 1 ∧ activity.position.Sound db := by
  cases tick with
  | none => cases next
  | some tick =>
    rw [← Option.some.inj next]
    exact ⟨rfl, trivial⟩

theorem afterThrow_some {tick : Option Tick} {failure : Failure}
    (next : afterThrow ended failure tick = some activity) :
    activity.ended = ended + 1 ∧ activity.position.Sound db := by
  cases tick with
  | none => cases next
  | some tick =>
    rw [afterThrow] at next
    split at next
    · exact Tick.proceed_some next
    · cases next

theorem work_moves {stage : WorkerStage} {next : Option Activity}
    (runs : work db ended stage = (after, next)) (id : RowId) :
    Moves .other id (db.proposals.get id) (after.proposals.get id) := by
  cases stage with
  | held actorId caps =>
    rw [work] at runs
    split at runs
    all_goals
      rw [← (Prod.mk.inj runs).1]
      exact .same _ (by simp)
  | free actorId caps ids =>
    rw [← (Prod.mk.inj runs).1, freeHeld, Table.get_updateMany]
    refine .update ?_ ?_ (by simp)
    · intro row
      split <;> rfl
    · intro row
      split
      · rename_i held
        simp only [Bool.and_eq_true, decide_eq_true_eq] at held
        simp [held.2]
      · rfl
  | ready actorId caps =>
    rw [← (Prod.mk.inj runs).1]
    exact .same _ (by simp)
  | mark tick =>
    rw [← (Prod.mk.inj runs).1, updateProposal_get]
    refine .update ?_ ?_ (by simp)
    all_goals
      intro row
      split <;> rfl

theorem work_some (after : Db) {stage : WorkerStage} (runs : (work db ended stage).2 = some activity) :
    activity.ended = ended ∧ activity.position.Sound after := by
  cases stage with
  | held actorId caps =>
    rw [work] at runs
    split at runs
    all_goals
      rw [← Option.some.inj runs]
      exact ⟨rfl, trivial⟩
  | free actorId caps ids =>
    rw [← Option.some.inj runs]
    exact ⟨rfl, trivial⟩
  | ready actorId caps =>
    simp only [work, Option.map_eq_some_iff] at runs
    obtain ⟨position, found, rfl⟩ := runs
    exact ⟨rfl, nextApply_sound found⟩
  | mark tick => exact Tick.proceed_some runs

inductive Happened.Writes : Happened → Prop
  | applied (id : RowId) : Happened.Writes (.applied id)
  | rejected (id : RowId) : Happened.Writes (.rejected id)
  | notSame (id : RowId) : Happened.Writes (.notSame id)
  | undone (id : RowId) : Happened.Writes (.undone id)

theorem Happened.Writes.of_applied (same : what = .applied id) : what.Writes := by
  rw [same]
  exact .applied id

theorem serve_goes {reading : Reading} {stage next : CallStage}
    (sound : stage.Sound db) (runs : serve reading db answer stage = .ok (.goes next)) : next.Sound db := by
  cases stage with
  | called call =>
    cases call with
    | apply id actorId chooseCompanyId =>
      obtain ⟨pre, preflight, runs⟩ := bind_ok_iff.mp runs
      have seen : ∃ row, db.proposals.get id = some row ∧ row.policyClass ≠ .NEVER := by
        rw [applyPreflight] at preflight
        split at preflight
        · contradiction
        · rename_i row found
          simp only [bind_ok_iff, require_ok, decide_eq_true_eq] at preflight
          obtain ⟨-, -, -, allowed, -⟩ := preflight
          exact ⟨row, found, allowed⟩
      obtain rfl := Progress.goes.inj (pure_ok_iff.mp runs)
      split <;> exact seen
    | reject | notSame =>
      obtain ⟨_, -, runs⟩ := bind_ok_iff.mp runs
      cases pure_ok_iff.mp runs
    | undo id actorId =>
      obtain ⟨proposal, -, runs⟩ := bind_ok_iff.mp runs
      obtain rfl := Progress.goes.inj (pure_ok_iff.mp runs)
      trivial
  | source id actorId chooseCompanyId pre file =>
    obtain ⟨-, -, runs⟩ := bind_ok_iff.mp runs
    obtain rfl := Progress.goes.inj (pure_ok_iff.mp runs)
    exact sound
  | applyTransaction | undoTransaction =>
    obtain ⟨_, -, runs⟩ := bind_ok_iff.mp runs
    cases pure_ok_iff.mp runs

theorem serve_returns {reading : Reading} {what : Happened}
    (sound : stage.Sound db) (runs : serve reading db answer stage = .ok (.returns after what)) :
    what.Writes ∧ (∀ id, Moves what id (db.proposals.get id) (after.proposals.get id)) ∧
      ∀ id, what = .applied id →
        ∃ pre ctx created, applyTransaction reading db id pre ctx = .ok (after, created) := by
  cases serve_commits runs with
  | rejected id actorId rejects =>
    obtain ⟨row, pending, one⟩ := rejectProposal_row rejects
    refine ⟨.rejected id, fun _ => one.each (Moves _) ?_ fun _ _ => .same _ (by simp), (by simp)⟩
    exact .refused _ _ pending (.inl rfl) rfl (by simp)
  | notSame id companyId actorId marks =>
    obtain ⟨row, pending, one⟩ := markNotSame_row marks
    refine ⟨.notSame id, fun _ => one.each (Moves _) ?_ fun _ _ => .same _ (by simp), (by simp)⟩
    exact .refused _ _ pending (.inr rfl) rfl (by simp)
  | applied id actorId chooseCompanyId pre created applies =>
    obtain ⟨row, pending, one⟩ := applyTransaction_row applies
    obtain ⟨_, again, policy⟩ := sound
    obtain rfl := Option.some.inj (one.found.symm.trans again)
    refine ⟨.applied id, fun _ => one.each (Moves _) ?_ fun _ apart => .same _ (by simpa using Ne.symm apart), ?_⟩
    · exact .applied _ _ rfl pending rfl policy rfl
    · intro other same
      obtain rfl := Happened.applied.inj same
      exact ⟨pre, _, created, applies⟩
  | undone id actorId proposal back undoes same =>
    obtain ⟨row, undoMode, applied, one⟩ := undoTransaction_row undoes
    rw [same] at one
    refine ⟨.undone id, fun _ => one.each (Moves _) ?_ fun _ _ => .same _ (by simp), (by simp)⟩
    exact .undone _ _ applied rfl rfl (by simp)

def noteStatus (seen : List IngestProposalStatus) :
    Option IngestProposalStatus → List IngestProposalStatus
  | none => seen
  | some status => if seen.getLast? = some status then seen else seen ++ [status]

def statusHistory (trace : List Moment) (id : RowId) : List IngestProposalStatus :=
  trace.foldl (fun seen moment =>
    noteStatus seen ((moment.after.proposals.get id).map IngestProposal.status)) []

/-- How often the writes of `performApply` were committed. -/
def applyCount (trace : List Moment) (id : RowId) : ℕ :=
  trace.countP fun moment => moment.what = .applied id

def pathTo : Option IngestProposal → List IngestProposalStatus
  | none => []
  | some row =>
    match row.status with
    | .PENDING => [.PENDING]
    | .APPLIED => [.PENDING, .APPLIED]
    | .UNDONE => [.PENDING, .APPLIED, .UNDONE]
    | .REJECTED => [.PENDING, .REJECTED]
    | .NOT_SAME => [.PENDING, .NOT_SAME]
    | .EXPIRED => [.EXPIRED]

/-- Its writes stand, or were taken back. -/
def wasApplied : Option IngestProposal → Bool
  | none => false
  | some row => row.status = .APPLIED || row.status = .UNDONE

variable {before next : Option IngestProposal}

theorem Moves.path (moves : Moves what id before next) :
    noteStatus (pathTo before) (next.map IngestProposal.status) = pathTo next := by
  cases moves with
  | absent => rfl
  | proposed row pending => simp [pathTo, pending, noteStatus]
  | stays row next status =>
    simp only [Option.map_some, pathTo, status]
    cases row.status <;> rfl
  | applied _ _ _ was is_ | undone _ _ was is_ => simp [pathTo, was, is_, noteStatus]
  | refused row next was is_ =>
    rcases is_ with rejected | notSame
    · simp [pathTo, was, rejected, noteStatus]
    · simp [pathTo, was, notSame, noteStatus]

theorem Moves.count (moves : Moves what id before next) :
    (wasApplied before).toNat + (if what = .applied id then 1 else 0) = (wasApplied next).toNat := by
  cases moves with
  | absent elsewhere => simp [wasApplied, elsewhere]
  | proposed row pending elsewhere => simp [wasApplied, pending, elsewhere]
  | stays row next status _ elsewhere => simp [wasApplied, status, elsewhere]
  | applied row next same was is_ => simp [wasApplied, same, was, is_]
  | refused row next was is_ _ elsewhere => rcases is_ with is_ | is_ <;> simp [wasApplied, was, is_, elsewhere]
  | undone row next was is_ _ elsewhere => simp [wasApplied, was, is_, elsewhere]

/-- What holds of each statement carried out. -/
structure Moment.Honest (reading : Reading) (moment : Moment) : Prop where
  moves : ∀ id, Moves moment.what id (moment.before.proposals.get id) (moment.after.proposals.get id)
  kept : ¬ moment.what.Writes → moment.call ≠ none → moment.after = moment.before
  called : ∀ failure, moment.what = .threw failure → moment.call ≠ none
  applies : ∀ id, moment.what = .applied id → ∃ pre ctx created,
    applyTransaction reading moment.before id pre ctx = .ok (moment.after, created)

structure Told (reading : Reading) (db : Db) (trace : List Moment) : Prop where
  honest : ∀ moment ∈ trace, moment.Honest reading
  history : ∀ id, statusHistory trace id = pathTo (db.proposals.get id)
  count : ∀ id, applyCount trace id = (wasApplied (db.proposals.get id)).toNat
  never : ∀ id row, db.proposals.get id = some row → row.policyClass = .NEVER →
    row.status ≠ .APPLIED ∧ row.status ≠ .UNDONE
  alive : ∀ id row, db.proposals.get id = some row → row.status ≠ .EXPIRED

theorem Told.record {reading : Reading} {trace : List Moment} {call : Option (ℕ × ℕ)}
    (told : Told reading db trace) (honest : Moment.Honest reading ⟨call, what, db, after⟩) :
    Told reading after (trace ++ [⟨call, what, db, after⟩]) where
  honest := by
    intro moment member
    rcases List.mem_append.mp member with earlier | last
    · exact told.honest moment earlier
    · rw [List.mem_singleton.mp last]
      exact honest
  history := by
    intro id
    rw [statusHistory, List.foldl_append]
    exact (congrArg (noteStatus · _) (told.history id)).trans (honest.moves id).path
  count := by
    intro id
    rw [applyCount, List.countP_append, ← applyCount, told.count id, List.countP_singleton]
    simpa using (honest.moves id).count
  never := by
    intro id next found policy
    have moves := honest.moves id
    simp only at moves
    rw [found] at moves
    cases before : db.proposals.get id with
    | none =>
      rw [before] at moves
      cases moves with
      | proposed _ pending => simp [pending]
    | some row =>
      rw [before] at moves
      cases moves with
      | stays _ _ status same => exact status ▸ told.never id row before (same.mp policy)
      | applied _ _ _ _ _ allowed same => exact absurd (same.symm.trans policy) allowed
      | refused _ _ _ is_ => rcases is_ with is_ | is_ <;> simp [is_]
      | undone _ _ was _ same => exact absurd was (told.never id row before (same ▸ policy)).1
  alive := by
    intro id next found
    have moves := honest.moves id
    simp only at moves
    rw [found] at moves
    cases before : db.proposals.get id with
    | none =>
      rw [before] at moves
      cases moves with
      | proposed _ pending => simp [pending]
    | some row =>
      rw [before] at moves
      cases moves with
      | stays _ _ status => exact status ▸ told.alive id row before
      | applied _ _ _ _ is_ => simp [is_]
      | refused _ _ _ is_ => rcases is_ with is_ | is_ <;> simp [is_]
      | undone _ _ _ is_ => simp [is_]

/-- No call goes on after the statement that ended it. -/
structure Numbered (activities : List (Option Activity)) (trace : List Moment) : Prop where
  current : ∀ n activity moment k, activities[n]? = some (some activity) → moment ∈ trace →
    moment.call = some (n, k) → k < activity.ended ∨ (k = activity.ended ∧ moment.what = .reads)
  bound : ∀ moment ∈ trace, ∀ n k, moment.call = some (n, k) → n < activities.length
  once : trace.Pairwise fun earlier later =>
    earlier.call = later.call → earlier.call ≠ none → earlier.what = .reads

namespace Numbered

variable {activities : List (Option Activity)} {trace : List Moment} {n : ℕ} {activity : Activity}
  {next : Option Activity} {moment : Moment}

section

variable (numbered : Numbered activities trace)
include numbered

/-- Activity `n` carries out a statement of its call. -/
theorem record (live : activities[n]? = some (some activity)) (call : moment.call = some (n, activity.ended))
    (later : ∀ a, next = some a →
      a.ended = activity.ended ∧ moment.what = .reads ∨ a.ended = activity.ended + 1) :
    Numbered (activities.set n next) (trace ++ [moment]) where
  current := by
    intro m other told k found member same
    rcases Places.set_cases found with here | there
    · obtain ⟨rfl, nexts⟩ := here
      rcases later other nexts.symm with goes | ends
      · obtain ⟨number, reads⟩ := goes
        rcases List.mem_append.mp member with earlier | last
        · rw [number]
          exact numbered.current m activity told k live earlier same
        · obtain rfl := List.mem_singleton.mp last
          rw [call] at same
          exact .inr ⟨number ▸ (Prod.mk.inj (Option.some.inj same)).2.symm, reads⟩
      · rcases List.mem_append.mp member with earlier | last
        · rcases numbered.current m activity told k live earlier same with less | equal
          · exact .inl (by omega)
          · exact .inl (by omega)
        · obtain rfl := List.mem_singleton.mp last
          rw [call] at same
          have number := (Prod.mk.inj (Option.some.inj same)).2
          exact .inl (by omega)
    · obtain ⟨apart, found⟩ := there
      rcases List.mem_append.mp member with earlier | last
      · exact numbered.current m other told k found earlier same
      · obtain rfl := List.mem_singleton.mp last
        rw [call] at same
        exact absurd (Prod.mk.inj (Option.some.inj same)).1.symm apart
  bound := by
    intro told member m k same
    rw [List.length_set]
    rcases List.mem_append.mp member with earlier | last
    · exact numbered.bound told earlier m k same
    · obtain rfl := List.mem_singleton.mp last
      rw [call] at same
      rw [← (Prod.mk.inj (Option.some.inj same)).1]
      exact (List.getElem?_eq_some_iff.mp live).1
  once := by
    rw [List.pairwise_append]
    refine ⟨numbered.once, List.pairwise_singleton _ _, ?_⟩
    intro earlier member last isLast same _
    obtain rfl := List.mem_singleton.mp isLast
    rw [call] at same
    rcases numbered.current n activity earlier _ live member same with less | equal
    · exact absurd less (lt_irrefl _)
    · exact equal.2

theorem outside (call : moment.call = none) : Numbered activities (trace ++ [moment]) where
  current := by
    intro m other told k found member same
    rcases List.mem_append.mp member with earlier | last
    · exact numbered.current m other told k found earlier same
    · rw [List.mem_singleton.mp last, call] at same
      contradiction
  bound := by
    intro told member m k same
    rcases List.mem_append.mp member with earlier | last
    · exact numbered.bound told earlier m k same
    · rw [List.mem_singleton.mp last, call] at same
      contradiction
  once := by
    rw [List.pairwise_append]
    refine ⟨numbered.once, List.pairwise_singleton _ _, ?_⟩
    intro earlier _ last isLast same something
    rw [List.mem_singleton.mp isLast, call] at same
    exact absurd same something

theorem set (live : activities[n]? = some (some activity))
    (later : ∀ a, next = some a → a.ended = activity.ended) : Numbered (activities.set n next) trace where
  current := by
    intro m other told k found member same
    rcases Places.set_cases found with here | there
    · obtain ⟨rfl, nexts⟩ := here
      rw [later other nexts.symm]
      exact numbered.current m activity told k live member same
    · exact numbered.current m other told k there.2 member same
  bound := by
    intro told member m k same
    rw [List.length_set]
    exact numbered.bound told member m k same
  once := numbered.once

theorem begin_ (position : Position) : Numbered (activities ++ [some ⟨0, position⟩]) trace where
  current := by
    intro m other told k found member same
    rcases Places.append_cases found with here | there
    · exact absurd (numbered.bound told member m k same) (by omega)
    · exact numbered.current m other told k there member same
  bound := by
    intro told member m k same
    have below := numbered.bound told member m k same
    rw [List.length_append]
    omega
  once := numbered.once

end

theorem none_live (activities : List (Option Activity)) (m : ℕ) (activity : Activity) :
    (activities.map fun _ => none)[m]? ≠ some (some activity) := by
  rw [List.getElem?_map]
  cases activities[m]? <;> simp

theorem crash (numbered : Numbered activities trace) : Numbered (activities.map fun _ => none) trace where
  current := by
    intro m other told k found
    exact absurd found (none_live activities m other)
  bound := by
    intro told member m k same
    rw [List.length_map]
    exact numbered.bound told member m k same
  once := numbered.once

theorem read_before_end {other : Moment} (numbered : Numbered activities trace)
    (member : moment ∈ trace) (among : other ∈ trace) (same : other.call = moment.call)
    (called : moment.call ≠ none) (ends : moment.what ≠ .reads) : other = moment ∨ other.what = .reads := by
  obtain ⟨i, inside, rfl⟩ := List.mem_iff_getElem.mp member
  obtain ⟨j, insideToo, rfl⟩ := List.mem_iff_getElem.mp among
  have once := List.pairwise_iff_getElem.mp numbered.once
  rcases lt_trichotomy j i with before | equal | later
  · exact .inr (once j i insideToo inside before same (same ▸ called))
  · subst equal
    exact .inl rfl
  · exact absurd (once i j inside insideToo later same.symm called) ends

end Numbered

structure Orderly (reading : Reading) (world : World) : Prop where
  told : Told reading world.db world.trace
  numbered : Numbered world.activities world.trace
  waiting : ∀ (n : ℕ) (activity : Activity), world.activities[n]? = some (some activity) →
    activity.position.Sound world.db

namespace Orderly

variable {reading : Reading} {world : World} {n : ℕ} {activity : Activity} {next : Option Activity}

theorem start (db : Db) : Orderly reading (World.start db) where
  told := by
    constructor
    case honest =>
      intro moment member
      cases member
    case never | alive =>
      intro id row found
      cases found
    all_goals
      intro id
      rfl
  numbered := by
    constructor
    case once => exact List.Pairwise.nil
    case bound =>
      intro moment member
      cases member
    case current =>
      intro n activity moment k _ member
      cases member
  waiting := by
    intro n activity live
    simp [World.start] at live

/-- What waits elsewhere is still sound after a statement of activity `n`. -/
theorem waiting_set (orderly : Orderly reading world)
    (moves : ∀ id, Moves what id (world.db.proposals.get id) (after.proposals.get id))
    (later : ∀ a, next = some a → a.position.Sound after) :
    ∀ (m : ℕ) (other : Activity), (world.activities.set n next)[m]? = some (some other) →
      other.position.Sound after := by
  intro m other found
  rcases Places.set_cases found with here | there
  · exact later other here.2.symm
  · exact (orderly.waiting m other there.2).moves moves

theorem call (orderly : Orderly reading world) (live : world.activities[n]? = some (some activity))
    (honest : Moment.Honest reading ⟨some (n, activity.ended), what, world.db, after⟩)
    (later : ∀ a, next = some a → a.position.Sound after ∧
      (a.ended = activity.ended ∧ what = .reads ∨ a.ended = activity.ended + 1)) :
    Orderly reading ((world.record (some (n, activity.ended)) what after).setActivity n next) where
  told := orderly.told.record honest
  numbered := orderly.numbered.record live rfl fun a nexts => (later a nexts).2
  waiting := orderly.waiting_set honest.moves fun a nexts => (later a nexts).1

theorem honest_quiet (call : Option (ℕ × ℕ)) (quiet : ¬ what.Writes)
    (called : ∀ failure, what = .threw failure → call ≠ none) (db : Db) :
    Moment.Honest reading ⟨call, what, db, db⟩ where
  moves := fun _ => .same _ fun same => quiet (.of_applied same)
  kept := fun _ _ => rfl
  called := called
  applies := fun _ same => absurd (.of_applied same) quiet

section

variable (orderly : Orderly reading world)
include orderly

theorem throws (live : world.activities[n]? = some (some activity)) (failure : Failure) (tick : Option Tick) :
    Orderly reading ((world.record (some (n, activity.ended)) (.threw failure) world.db).setActivity n
      (afterThrow activity.ended failure tick)) := by
  refine orderly.call live (honest_quiet _ (by nofun) (by simp) world.db) ?_
  intro a nexts
  obtain ⟨number, sound⟩ := afterThrow_some nexts
  exact ⟨sound, .inr number⟩

theorem outside (moves : ∀ id, Moves .other id (world.db.proposals.get id) (after.proposals.get id)) :
    Orderly reading (world.record none .other after) where
  told := by
    refine orderly.told.record ?_
    constructor
    case moves => exact moves
    case kept =>
      intro _ call
      exact absurd rfl call
    case called =>
      intro failure same
      cases same
    case applies =>
      intro id same
      cases same
  numbered := orderly.numbered.outside rfl
  waiting := fun m other live => (orderly.waiting m other live).moves moves

theorem serves (live : world.activities[n]? = some (some activity)) (answer : Answer) :
    Orderly reading (world.serves reading n activity answer) := by
  rw [World.serves]
  split
  · rename_i stage tick position
    have sound : stage.Sound world.db := by
      have waiting := orderly.waiting n activity live
      rw [position] at waiting
      exact waiting
    split
    · rename_i next goes
      refine orderly.call live (honest_quiet _ (by nofun) (by simp) world.db) ?_
      intro a nexts
      obtain rfl := Option.some.inj nexts
      exact ⟨serve_goes sound goes, .inl ⟨rfl, rfl⟩⟩
    · rename_i after what returns
      obtain ⟨writes, moves, applies⟩ := serve_returns sound returns
      refine orderly.call live ?_ ?_
      · constructor
        case moves => exact moves
        case kept =>
          intro quiet
          exact absurd writes quiet
        case called =>
          intro failure same
          subst same
          nomatch writes
        case applies => exact applies
      · intro a nexts
        obtain ⟨number, sound⟩ := afterReturn_some nexts
        exact ⟨sound, .inr number⟩
    · rename_i failure _
      exact orderly.throws live failure tick
  · rename_i stage _
    have moves := work_moves (Prod.mk.eta (p := work world.db activity.ended stage)).symm
    have recorded := orderly.outside moves
    exact {
      told := recorded.told
      numbered := recorded.numbered.set live fun a nexts => (work_some world.db nexts).1
      waiting := orderly.waiting_set moves fun a nexts => (work_some _ nexts).2 }

theorem fails (live : world.activities[n]? = some (some activity)) : Orderly reading (world.fails n activity) := by
  rw [World.fails]
  split
  · exact orderly.throws live .DRIVER _
  · exact {
      told := orderly.told
      numbered := orderly.numbered.set live (by simp)
      waiting := by
        intro m other found
        rcases Places.set_cases found with here | there
        · cases here.2
        · exact orderly.waiting m other there.2 }

theorem begin_ (sound : position.Sound world.db) : Orderly reading (world.begin_ position) where
  told := orderly.told
  numbered := orderly.numbered.begin_ position
  waiting := by
    intro m other found
    rcases Places.append_cases found with here | there
    · rw [Option.some.inj here.2]
      exact sound
    · exact orderly.waiting m other there

theorem step (event : Event) : Orderly reading (world.step reading event) := by
  cases event with
  | calls | ticks => exact orderly.begin_ trivial
  | serves n answer =>
    simp only [World.step]
    split
    · rename_i activity live
      exact orderly.serves live answer
    · exact orderly
  | fails n =>
    simp only [World.step]
    split
    · rename_i activity live
      exact orderly.fails live
    · exact orderly
  | proposes id proposal =>
    simp only [World.step]
    split
    · rename_i proposals made
      refine orderly.outside ?_
      intro other
      obtain ⟨free, get⟩ := Table.create_some made
      simp only [get]
      split
      · rename_i same
        rw [same, free]
        exact .proposed _ rfl (by simp)
      · exact .same _ (by simp)
    · exact orderly
  | elsewhere db =>
    refine orderly.outside ?_
    intro id
    exact .same _ (by simp)
  | crashes =>
    exact {
      told := orderly.told
      numbered := orderly.numbered.crash
      waiting := by
        intro m other found
        exact absurd found (Numbered.none_live world.activities m other) }

end

theorem always (reading : Reading) (db : Db) (events : List Event) :
    Orderly reading (World.after reading db events) :=
  Stepping.run_keeps (fun _ event orderly => orderly.step event) events (start db)

end Orderly

/-- The writes of `performApply` in one commit: the status becomes `APPLIED` with them. -/
def Moment.Applies (reading : Reading) (moment : Moment) (id : RowId) : Prop :=
  ∃ pre ctx created row next,
    applyTransaction reading moment.before id pre ctx = .ok (moment.after, created) ∧
    moment.before.proposals.get id = some row ∧ row.status = .PENDING ∧ row.policyClass ≠ .NEVER ∧
    moment.after.proposals.get id = some next ∧ next.status = .APPLIED

theorem Moment.Honest.applied {reading : Reading} {moment : Moment} (honest : moment.Honest reading)
    (same : moment.what = .applied id) : moment.Applies reading id := by
  obtain ⟨pre, ctx, created, applies⟩ := honest.applies id same
  have moves := honest.moves id
  cases before : moment.before.proposals.get id with
  | none =>
    rw [before] at moves
    cases there : moment.after.proposals.get id with
    | none =>
      rw [there] at moves
      cases moves with
      | absent elsewhere => exact absurd same elsewhere
    | some next =>
      rw [there] at moves
      cases moves with
      | proposed _ _ elsewhere => exact absurd same elsewhere
  | some row =>
    rw [before] at moves
    cases there : moment.after.proposals.get id with
    | none =>
      rw [there] at moves
      nomatch moves
    | some next =>
      rw [there] at moves
      cases moves with
      | stays _ _ _ _ elsewhere | refused _ _ _ _ _ elsewhere | undone _ _ _ _ _ elsewhere =>
        exact absurd same elsewhere
      | applied _ _ _ was is_ allowed =>
        exact ⟨pre, ctx, created, row, next, applies, before, was, allowed, there, is_⟩

/-- However the calls interleave: each proposal goes one of three ways, its writes are committed once at
most and by the call that moves it to `APPLIED`, one that may never be applied is not, and a call that throws
has changed nothing. -/
theorem proposal_decided_once (reading : Reading) (db : Db) (events : List Event) :
    let world := World.after reading db events
    (∀ id, statusHistory world.trace id <+: [.PENDING, .APPLIED, .UNDONE] ∨
      statusHistory world.trace id <+: [.PENDING, .REJECTED] ∨
      statusHistory world.trace id <+: [.PENDING, .NOT_SAME]) ∧
    (∀ id, applyCount world.trace id ≤ 1) ∧
    (∀ moment ∈ world.trace, ∀ id, moment.what = .applied id → moment.Applies reading id) ∧
    (∀ id row, world.db.proposals.get id = some row → row.policyClass = .NEVER →
      applyCount world.trace id = 0 ∧ .APPLIED ∉ statusHistory world.trace id) ∧
    (∀ moment ∈ world.trace, ∀ failure, moment.what = .threw failure → moment.call ≠ none ∧
      ∀ other ∈ world.trace, other.call = moment.call → other.after = other.before) := by
  have orderly := Orderly.always reading db events
  set world := World.after reading db events
  have told := orderly.told
  refine ⟨?_, ?_, ?_, ?_, ?_⟩
  · intro id
    rw [told.history id]
    cases found : world.db.proposals.get id with
    | none => exact .inl (List.nil_prefix)
    | some row =>
      have alive := told.alive id row found
      simp only [pathTo]
      cases status : row.status with
      | EXPIRED => exact absurd status alive
      | PENDING => exact .inl ⟨[.APPLIED, .UNDONE], rfl⟩
      | APPLIED => exact .inl ⟨[.UNDONE], rfl⟩
      | UNDONE => exact .inl (List.prefix_refl _)
      | REJECTED => exact .inr (.inl (List.prefix_refl _))
      | NOT_SAME => exact .inr (.inr (List.prefix_refl _))
  · intro id
    rw [told.count id]
    exact Bool.toNat_le _
  · intro moment member id same
    exact (told.honest moment member).applied same
  · intro id row found policy
    have notApplied := told.never id row found policy
    have alive := told.alive id row found
    rw [told.count id, told.history id, found]
    refine ⟨by simp [wasApplied, notApplied], ?_⟩
    simp only [pathTo]
    cases status : row.status <;> simp_all
  · intro moment member failure threw
    have called := (told.honest moment member).called failure threw
    refine ⟨called, ?_⟩
    intro other among same
    refine (told.honest other among).kept ?_ (same ▸ called)
    have ended : moment.what ≠ .reads := by simp [threw]
    rcases orderly.numbered.read_before_end member among same called ended with itself | reads
    · rw [itself, threw]
      rintro ⟨⟩
    · rw [reads]
      rintro ⟨⟩

end Droplet.Filing
