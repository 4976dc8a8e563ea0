import Droplet.Filing.Calls
import Droplet.Filing.TakenBack

/-! The queue of unattended filing, under one tick of `runAutoApply` (`filing/auto-apply.ts`) after the
other, where a proposal meets the same outcome each time. -/

namespace Droplet.Filing

section

variable {α : Type} {stays : α → Bool} {width : ℕ} {queue before later : List α} {item : α}

/-- A round reads the front of a queue and takes away whatever does not stay. -/
def drain (stays : α → Bool) (width : ℕ) (queue : List α) : List α :=
  (queue.take width).filter stays ++ queue.drop width

/-- Fewer than a front of those that stay are ahead of each one that does not. -/
def Flows (stays : α → Bool) (width : ℕ) (queue : List α) : Prop :=
  ∀ before item later, queue = before ++ item :: later → stays item = false →
    (before.filter stays).length < width

theorem filter_drain : (drain stays width queue).filter stays = queue.filter stays := by
  rw [drain, List.filter_append, List.filter_filter]
  simp only [Bool.and_self]
  rw [← List.filter_append, List.take_append_drop]

theorem Flows.round (flows : Flows stays width queue) : Flows stays width (drain stays width queue) := by
  intro before item later same goes
  have split : ∃ ahead, queue.drop width = ahead ++ item :: later ∧
      before = (queue.take width).filter stays ++ ahead := by
    rcases List.append_eq_append_iff.mp same with ⟨ahead, is, rest⟩ | ⟨beyond, is, rest⟩
    · exact ⟨ahead, rest, is⟩
    · cases beyond with
      | nil => exact ⟨[], rest.symm, by simpa using is.symm⟩
      | cons first beyond =>
        obtain ⟨rfl, -⟩ := List.cons.inj rest
        have stayed : stays item = true :=
          (List.mem_filter.mp (by rw [is]; simp : item ∈ (queue.take width).filter stays)).2
        rw [goes] at stayed
        contradiction
  obtain ⟨ahead, dropped, rfl⟩ := split
  have few := flows (queue.take width ++ ahead) item later
    (by rw [List.append_assoc, ← dropped, List.take_append_drop]) goes
  simpa [List.filter_append, List.filter_filter] using few

theorem Flows.shorter (flows : Flows stays width queue) (member : item ∈ queue)
    (goes : stays item = false) : (drain stays width queue).length < queue.length := by
  by_cases all : (queue.take width).filter stays = queue.take width
  · have dropped : item ∈ queue.drop width := by
      rw [← List.take_append_drop width queue] at member
      rcases List.mem_append.mp member with front | back
      · rw [← all] at front
        exact absurd (List.mem_filter.mp front).2 (by simp [goes])
      · exact back
    obtain ⟨ahead, later, is⟩ := List.append_of_mem dropped
    have few := flows (queue.take width ++ ahead) item later
      (by rw [List.append_assoc, ← is, List.take_append_drop]) goes
    have long : width < queue.length := by
      by_contra short
      rw [List.drop_eq_nil_of_le (by omega)] at dropped
      cases dropped
    rw [List.filter_append, all, List.length_append, List.length_take] at few
    omega
  · have fewer : ((queue.take width).filter stays).length < (queue.take width).length := by
      apply lt_of_le_of_ne (List.length_filter_le _ _)
      intro same
      exact all (List.filter_sublist.eq_of_length same)
    have parts : (queue.take width).length + (queue.drop width).length = queue.length := by
      rw [← List.length_append, List.take_append_drop]
    rw [drain, List.length_append]
    omega

theorem Flows.empties (flows : Flows stays width queue) :
    ∃ n, ∀ item ∈ (drain stays width)^[n] queue, stays item = true := by
  induction size : queue.length using Nat.strong_induction_on generalizing queue with
  | _ size ih =>
    by_cases done : ∀ item ∈ queue, stays item = true
    · exact ⟨0, done⟩
    · push Not at done
      obtain ⟨item, member, goes⟩ := done
      have shorter := flows.shorter member (by simpa using goes)
      obtain ⟨n, emptied⟩ := ih _ (by omega) flows.round rfl
      exact ⟨n + 1, emptied⟩

theorem blocked (full : width ≤ (before.filter stays).length) (n : ℕ) :
    ∃ ahead, (drain stays width)^[n] (before ++ item :: later) = ahead ++ item :: later := by
  induction n generalizing before with
  | zero => exact ⟨before, rfl⟩
  | succ n ih =>
    have long : width ≤ before.length := full.trans (List.length_filter_le _ _)
    have moved : drain stays width (before ++ item :: later) = drain stays width before ++ item :: later := by
      rw [drain, List.take_append_of_le_length long, List.drop_append_of_le_length long,
        ← List.append_assoc, drain]
    rw [Function.iterate_succ_apply, moved]
    exact ih (by rwa [filter_drain])

theorem empties_iff :
    (∃ n, ∀ item ∈ (drain stays width)^[n] queue, stays item = true) ↔ Flows stays width queue := by
  constructor
  · intro ⟨n, emptied⟩ before item later same goes
    by_contra full
    subst same
    obtain ⟨ahead, is⟩ : ∃ ahead, (drain stays width)^[n] (before ++ item :: later) = ahead ++ item :: later :=
      blocked (not_lt.mp full) n
    have stayed := emptied item (is ▸ by simp)
    rw [goes] at stayed
    contradiction
  · exact Flows.empties

end

/-- The proposals that an unbounded read of a tick would find, oldest first. -/
def queueOf (db : Db) : List (RowId × IngestProposal) :=
  (db.proposals.findMany fun _ row => row.status = .PENDING && row.policyClass = .AUTO).reverse

def heldOf (db : Db) : List (RowId × IngestProposal) :=
  db.proposals.findMany fun _ row => row.status = .PENDING && row.policyClass = .REVIEW &&
    row.policyReason.any fun reason => contains reason BOUNDED_MARKER

/-- A proposal that the tick has applied, in the columns that ticks read. -/
def IngestProposal.byBox (row : IngestProposal) : IngestProposal :=
  { row with status := .APPLIED, autoApplied := true }

/-- The loop of a tick; `outcome` has what `applyProposal` throws for a proposal, if it throws. -/
def applyReady (outcome : RowId → Option Failure) :
    CapState → List (RowId × IngestProposalKind) → Db → Transaction Db
  | _, [], db => .ok db
  | caps, (id, kind) :: ready, db =>
    if capReachedFor kind caps then applyReady outcome caps ready db
    else match outcome id with
      | none => applyReady outcome (caps.spend kind) ready (db.updateProposal id IngestProposal.byBox)
      | some failure =>
        if isExpected failure then applyReady outcome caps ready db else .error failure

/-- A tick past its preflight. -/
def runAutoApply (outcome : RowId → Option Failure) (caps : CapState) (db : Db) : Transaction Db :=
  let freed := if caps.hourlyReached && caps.dailyReached then db else freeHeld db (heldIds db caps)
  applyReady outcome caps (readyIds freed) freed

/-- So many ticks, the n-th of which finds the caps at `caps n`. -/
def ticks (outcome : RowId → Option Failure) (caps : ℕ → CapState) (db : Db) : ℕ → Transaction Db
  | 0 => .ok db
  | n + 1 => do runAutoApply outcome (caps n) (← ticks outcome caps db n)

/-- Whatever the tick applies, no cap is reached. -/
def CapState.NeverReached (caps : CapState) (room : ℕ) : Prop :=
  ∀ (kinds : List IngestProposalKind) kind, kinds.length < room → capReachedFor kind (kinds.foldl CapState.spend caps) = false

def Db.withApplied (db : Db) (chosen : RowId → Bool) : Db :=
  { db with proposals := db.proposals.updateMany (fun key _ => chosen key) IngestProposal.byBox }

variable {outcome : RowId → Option Failure} {caps : CapState} {db : Db}

theorem withApplied_twice (chosen others : RowId → Bool) :
    (db.withApplied chosen).withApplied others = db.withApplied fun id => chosen id || others id := by
  simp only [Db.withApplied, Table.updateMany, List.map_map]
  congr 2
  apply List.map_congr_left
  intro row _
  simp only [Function.comp_apply]
  by_cases first : chosen row.1 = true <;> by_cases second : others row.1 = true <;>
    simp [first, second, IngestProposal.byBox]

theorem withApplied_none : (db.withApplied fun _ => false) = db := by
  simp [Db.withApplied, Table.updateMany]

theorem findMany_withApplied (chosen : RowId → Bool) {where_ : IngestProposal → Bool}
    (leaves : ∀ row, where_ (IngestProposal.byBox row) = false) :
    ((db.withApplied chosen).proposals.findMany fun _ row => where_ row) =
      (db.proposals.findMany fun _ row => where_ row).filter fun row => !chosen row.1 := by
  simp only [Db.withApplied, Table.updateMany, Table.findMany]
  induction db.proposals.rows with
  | nil => rfl
  | cons row rows ih =>
    cases taken : chosen row.1 <;> cases found : where_ row.2 <;>
      simp [taken, found, leaves, ih]

theorem CapState.NeverReached.less {room : ℕ} (roomy : caps.NeverReached (room + 1)) :
    caps.NeverReached room := fun kinds kind short => roomy kinds kind (by omega)

theorem CapState.NeverReached.spend {room : ℕ} (roomy : caps.NeverReached (room + 1))
    (kind : IngestProposalKind) : (caps.spend kind).NeverReached room :=
  fun kinds next short => roomy (kind :: kinds) next (by simpa using short)

def appliesAmong (outcome : RowId → Option Failure) (ready : List (RowId × IngestProposalKind))
    (id : RowId) : Bool :=
  ready.any fun entry => entry.1 = id && (outcome id).isNone

theorem applyReady_ok (expected : ∀ id failure, outcome id = some failure → isExpected failure = true)
    (ready : List (RowId × IngestProposalKind)) (db : Db) (roomy : caps.NeverReached ready.length) :
    applyReady outcome caps ready db = .ok (db.withApplied (appliesAmong outcome ready)) := by
  induction ready generalizing caps db with
  | nil => exact congrArg Except.ok withApplied_none.symm
  | cons entry ready ih =>
    obtain ⟨id, kind⟩ := entry
    have free : capReachedFor kind caps = false := roomy [] kind (by simp)
    rw [applyReady, free, if_neg Bool.false_ne_true]
    cases meets : outcome id with
    | none =>
      simp only [ih _ (roomy.spend kind)]
      have one : db.updateProposal id IngestProposal.byBox = db.withApplied fun key => key = id := rfl
      rw [one, withApplied_twice]
      congr 2
      funext other
      by_cases same : other = id
      · simp [appliesAmong, same, meets]
      · simp [appliesAmong, same, Ne.symm same]
    | some failure =>
      simp only [expected id failure meets, if_true]
      rw [ih _ roomy.less]
      congr 2
      funext other
      by_cases same : other = id
      · simp [appliesAmong, same, meets]
      · simp [appliesAmong, Ne.symm same]

def refused (outcome : RowId → Option Failure) (row : RowId × IngestProposal) : Bool :=
  (outcome row.1).isSome

theorem queueOf_withApplied (chosen : RowId → Bool) :
    queueOf (db.withApplied chosen) = (queueOf db).filter fun row => !chosen row.1 := by
  rw [queueOf, findMany_withApplied chosen (fun _ => by simp [IngestProposal.byBox]), ← List.filter_reverse,
    queueOf]

theorem heldOf_withApplied (chosen : RowId → Bool) (unheld : heldOf db = []) :
    heldOf (db.withApplied chosen) = [] := by
  rw [heldOf] at unheld ⊢
  rw [findMany_withApplied chosen (fun _ => by simp [IngestProposal.byBox]), unheld, List.filter_nil]

theorem runAutoApply_ok (expected : ∀ id failure, outcome id = some failure → isExpected failure = true)
    (roomy : caps.NeverReached AUTO_APPLY_PER_TICK) (unheld : heldOf db = []) :
    runAutoApply outcome caps db = .ok (db.withApplied (appliesAmong outcome (readyIds db))) := by
  have none_held : heldIds db caps = [] := by
    rw [heldOf] at unheld
    rw [heldIds, unheld]
    rfl
  have same : freeHeld db [] = db := by simp [freeHeld, Table.updateMany]
  rw [runAutoApply, none_held, same, ite_self]
  apply applyReady_ok expected
  intro kinds kind short
  apply roomy kinds kind (short.trans_le _)
  simp only [readyIds, List.length_map, List.length_take]
  exact min_le_left _ _

theorem queueOf_tick :
    queueOf (db.withApplied (appliesAmong outcome (readyIds db))) =
      drain (refused outcome) AUTO_APPLY_PER_TICK (queueOf db) := by
  have apart : ((queueOf db).map Prod.fst).Nodup := by
    rw [queueOf, List.map_reverse, List.nodup_reverse]
    exact db.proposals.distinct.sublist (List.filter_sublist.map _)
  have read : readyIds db = ((queueOf db).take AUTO_APPLY_PER_TICK).map fun row => (row.1, row.2.kind) := rfl
  rw [queueOf_withApplied, drain, read]
  generalize queueOf db = queue at apart ⊢
  generalize AUTO_APPLY_PER_TICK = width
  have parts := List.take_append_drop width queue
  rw [← parts, List.map_append, List.nodup_append] at apart
  obtain ⟨-, -, apart⟩ := apart
  conv_lhs => rw [← parts, List.filter_append]
  rw [parts]
  congr 1
  · apply List.filter_congr
    intro row member
    have among : appliesAmong outcome ((queue.take width).map fun row => (row.1, row.2.kind)) row.1 =
        (outcome row.1).isNone := by
      rw [appliesAmong, Bool.eq_iff_iff, List.any_eq_true]
      simp only [List.mem_map, Bool.and_eq_true, decide_eq_true_eq]
      constructor
      · intro ⟨_, _, _, goes⟩
        exact goes
      · intro goes
        exact ⟨_, ⟨row, member, rfl⟩, rfl, goes⟩
    rw [among, refused]
    cases outcome row.1 <;> rfl
  · apply List.filter_eq_self.mpr
    intro row member
    rw [Bool.not_eq_true', appliesAmong, List.any_eq_false]
    intro entry there
    obtain ⟨other, taken, rfl⟩ := List.mem_map.mp there
    have differ := apart other.1 (List.mem_map_of_mem taken) row.1 (List.mem_map_of_mem member)
    simp [differ]

variable {caps : ℕ → CapState}

section

variable (expected : ∀ id failure, outcome id = some failure → isExpected failure = true)
include expected

theorem ticks_ok (roomy : ∀ n, (caps n).NeverReached AUTO_APPLY_PER_TICK) (unheld : heldOf db = []) (n : ℕ) :
    ∃ chosen, ticks outcome caps db n = .ok (db.withApplied chosen) ∧
      queueOf (db.withApplied chosen) =
        (drain (refused outcome) AUTO_APPLY_PER_TICK)^[n] (queueOf db) := by
  induction n with
  | zero => exact ⟨fun _ => false, congrArg Except.ok withApplied_none.symm, congrArg queueOf withApplied_none⟩
  | succ n ih =>
    obtain ⟨chosen, before, left⟩ := ih
    have goes := runAutoApply_ok expected (roomy n) (heldOf_withApplied chosen unheld)
    rw [withApplied_twice] at goes
    refine ⟨_, by rw [ticks, before]; exact goes, ?_⟩
    rw [← withApplied_twice, queueOf_tick, left, Function.iterate_succ_apply']

theorem drained_iff (roomy : ∀ n, (caps n).NeverReached AUTO_APPLY_PER_TICK) (unheld : heldOf db = []) :
    (∃ n after, ticks outcome caps db n = .ok after ∧ ∀ row ∈ queueOf db, outcome row.1 = none →
      (after.proposals.get row.1).map IngestProposal.status = some .APPLIED) ↔
      ∃ n, ∀ row ∈ (drain (refused outcome) AUTO_APPLY_PER_TICK)^[n] (queueOf db),
        refused outcome row = true := by
  apply exists_congr
  intro n
  obtain ⟨chosen, runs, left⟩ := ticks_ok expected roomy unheld n
  rw [runs, ← left, queueOf_withApplied]
  have status : ∀ row ∈ queueOf db,
      (((db.withApplied chosen).proposals.get row.1).map IngestProposal.status = some .APPLIED ↔
        chosen row.1 = true) := by
    intro row member
    obtain ⟨found, waits⟩ := Table.mem_findMany.mp (List.mem_reverse.mp member)
    rw [Db.withApplied, Table.get_updateMany, found]
    simp only [Bool.and_eq_true, decide_eq_true_eq] at waits
    cases chosen row.1 <;> simp [waits.1, IngestProposal.byBox]
  constructor
  · intro ⟨after, same, applied⟩ row member
    obtain rfl := Except.ok.inj same
    obtain ⟨queued, stays⟩ := List.mem_filter.mp member
    by_contra goes
    have taken := (status row queued).mp (applied row queued (by simpa [refused] using goes))
    simp [taken] at stays
  · intro emptied
    refine ⟨_, rfl, fun row queued goes => (status row queued).mpr ?_⟩
    by_contra kept
    have stays := emptied row (List.mem_filter.mpr ⟨queued, by simpa using kept⟩)
    simp [refused, goes] at stays

end

/-- A proposal that applies is reached if and only if fewer refused ones than a tick reads are older. -/
theorem queue_drains_iff (outcome : RowId → Option Failure) (caps : ℕ → CapState) (db : Db)
    (expected : ∀ id failure, outcome id = some failure → isExpected failure = true)
    (roomy : ∀ n, (caps n).NeverReached AUTO_APPLY_PER_TICK) (unheld : heldOf db = []) :
    (∃ n after, ticks outcome caps db n = .ok after ∧ ∀ row ∈ queueOf db, outcome row.1 = none →
      (after.proposals.get row.1).map IngestProposal.status = some .APPLIED) ↔
      ∀ older row newer, queueOf db = older ++ row :: newer → outcome row.1 = none →
        (older.filter fun other => (outcome other.1).isSome).length < AUTO_APPLY_PER_TICK := by
  rw [drained_iff expected roomy unheld, empties_iff]
  simp only [Flows, refused, Option.isSome_eq_false_iff, Option.isNone_iff_eq_none]
  rfl

theorem spend_unreached (kinds : List IngestProposalKind) (kind : IngestProposalKind) (applied created : ℕ)
    (short : applied + kinds.length < 100 ∧ created + kinds.length < 100) :
    capReachedFor kind (kinds.foldl CapState.spend ⟨applied, created, 100, 100, false, false⟩) = false := by
  induction kinds generalizing applied created with
  | nil => simp [capReachedFor]
  | cons first kinds ih =>
    simp only [List.length_cons] at short
    have created_le : (if isCreate first = true then created + 1 else created) ≤ created + 1 := by split <;> omega
    have spent : CapState.spend ⟨applied, created, 100, 100, false, false⟩ first =
        ⟨applied + 1, if isCreate first = true then created + 1 else created, 100, 100, false, false⟩ := by
      simp only [CapState.spend, CapState.mk.injEq, decide_eq_false_iff_not, true_and]
      omega
    rw [List.foldl_cons, spent]
    exact ih _ _ (by omega)

def roomyCaps : CapState := ⟨0, 0, 100, 100, false, false⟩

theorem roomyCaps_never_reached : roomyCaps.NeverReached AUTO_APPLY_PER_TICK := by
  intro kinds kind short
  exact spend_unreached kinds kind 0 0 (by simp only [AUTO_APPLY_PER_TICK] at short; omega)

/-- Proposals `0` to `last`, the oldest first. -/
def queuedDb (last : ℕ) : Db :=
  { Db.sample with
    proposals := ⟨(List.range (last + 1)).reverse.map fun id =>
      (id, { IngestProposal.sample .LINK_FILE with policyClass := .AUTO }),
      by simp [Function.comp_def, List.nodup_range]⟩ }

/-- The files of the proposals before this one have moved. -/
def moved (first id : RowId) : Option Failure := if id < first then some .SOURCE_CHANGED else none

theorem moved_expected (first id : RowId) (failure : Failure) (found : moved first id = some failure) :
    isExpected failure = true := by
  rw [moved] at found
  split at found <;> cases found
  rfl

theorem four_refused_are_passed :
    ∃ n after, ticks (moved 4) (fun _ => roomyCaps) (queuedDb 4) n = .ok after ∧
      ∀ row ∈ queueOf (queuedDb 4), moved 4 row.1 = none →
        (after.proposals.get row.1).map IngestProposal.status = some .APPLIED := by
  apply (queue_drains_iff (moved 4) _ (queuedDb 4) (moved_expected 4) (fun _ => roomyCaps_never_reached)
    (by decide)).mpr
  intro older row newer same _
  have few := congrArg List.length same
  rw [List.length_append, List.length_cons] at few
  have five : (queueOf (queuedDb 4)).length = 5 := by decide
  have bound := List.length_filter_le (fun other => (moved 4 other.1).isSome) older
  simp only [AUTO_APPLY_PER_TICK]
  omega

/-- Five refused proposals fill every tick. -/
theorem five_refused_block :
    ¬ ∃ n after, ticks (moved 5) (fun _ => roomyCaps) (queuedDb 5) n = .ok after ∧
      ∀ row ∈ queueOf (queuedDb 5), moved 5 row.1 = none →
        (after.proposals.get row.1).map IngestProposal.status = some .APPLIED := by
  rw [drained_iff (moved_expected 5) (fun _ => roomyCaps_never_reached) (by decide), empties_iff]
  intro flows
  have few := flows ((queueOf (queuedDb 5)).take 5) _ [] (by rfl) rfl
  exact absurd few (by decide)

end Droplet.Filing
