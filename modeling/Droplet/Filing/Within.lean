import Droplet.Lib.Windows
import Droplet.Filing.Spent

/-! Unattended filing stays within its budgets while no mark is lost: what has been counted, and what is
spent beside it, over every run. -/

namespace Droplet.Filing

variable {reading : Reading} {limits : Limits} {box next : Box}

def CapState.count (caps : CapState) : Budget → ℕ
  | .hourly => caps.appliedThisHour
  | .daily => caps.createdToday

def CapState.cap (caps : CapState) : Budget → ℕ
  | .hourly => caps.hourlyCap
  | .daily => caps.dailyCap

def CapState.reached (caps : CapState) : Budget → Bool
  | .hourly => caps.hourlyReached
  | .daily => caps.dailyReached

/-- The caps of the settings, each reached when its count says so. -/
structure CapState.Fits (limits : Limits) (caps : CapState) : Prop where
  cap : ∀ budget, caps.cap budget = budget.cap limits
  reached : ∀ budget, caps.reached budget = decide (budget.cap limits ≤ caps.count budget)

variable {caps : CapState}

theorem CapState.Fits.spend (fits : caps.Fits limits) (kind : IngestProposalKind) :
    (caps.spend kind).Fits limits := by
  have caps_ := fits.cap
  constructor
  · intro budget
    rw [← caps_ budget]
    cases budget <;> rfl
  · intro budget
    have same := caps_ budget
    cases budget
    all_goals simp only [CapState.reached, CapState.spend, CapState.count, ← same, CapState.cap]

theorem spend_count (caps : CapState) (kind : IngestProposalKind) (budget : Budget) :
    (caps.spend kind).count budget = caps.count budget + if budget.covers kind then 1 else 0 := by
  cases budget with
  | hourly => rfl
  | daily =>
    simp only [CapState.spend, CapState.count, Budget.covers]
    by_cases create : isCreate kind = true <;> simp [create]

theorem CapState.Fits.room (fits : caps.Fits limits) {kind : IngestProposalKind}
    (free : capReachedFor kind caps = false) {budget : Budget} (covered : budget.covers kind = true) :
    caps.count budget < budget.cap limits := by
  obtain ⟨hourly, daily⟩ := Bool.or_eq_false_iff.mp free
  have unreached : caps.reached budget = false := by
    cases budget with
    | hourly => exact hourly
    | daily =>
      rcases Bool.and_eq_false_iff.mp daily with other | unreached
      · exact absurd covered (Bool.eq_false_iff.mp other)
      · exact unreached
  rw [fits.reached, decide_eq_false_iff_not, not_le] at unreached
  exact unreached

theorem caps_fits {counting : Counting} (come : counting.caps limits = some caps) :
    caps.Fits limits ∧ counting.appliedThisHour = some caps.appliedThisHour ∧
      counting.createdToday = some caps.createdToday := by
  unfold Counting.caps at come
  cases hour : counting.appliedThisHour with
  | none => simp [hour] at come
  | some appliedThisHour =>
    cases day : counting.createdToday with
    | none => simp [hour, day] at come
    | some createdToday =>
      simp only [hour, day, Option.bind_eq_bind, Option.bind_some, Option.pure_def, Option.some.injEq] at come
      subst come
      refine ⟨⟨?_, ?_⟩, rfl, rfl⟩ <;> intro budget <;> cases budget <;> rfl

/-- The caps have counted what was spent since some instant, but for what is still to be marked. -/
structure Tracks (limits : Limits) (box : Box) (caps : CapState)
    (unmarked : Option IngestProposalKind) : Prop where
  fits : caps.Fits limits
  counted : ∃ instant ≤ box.now, ∀ budget, Windows.since (box.spent budget) (instant - budget.width) ≤
    caps.count budget + if unmarked.any budget.covers then 1 else 0

def Queued (db : Db) (queue : List (RowId × IngestProposalKind)) : Prop :=
  ∀ entry ∈ queue, ∃ row, db.proposals.get entry.1 = some row ∧ row.kind = entry.2

def CallStage.Applies (id : RowId) : CallStage → Prop
  | .called (.apply other _ _) => other = id
  | .source other _ _ _ _ => other = id
  | .applyTransaction other _ _ _ => other = id
  | _ => False

def Position.Within (limits : Limits) (box : Box) : Position → Prop
  | .calls _ none => True
  | .calls stage (some tick) => Tracks limits box tick.caps none ∧
      Queued box.world.db (tick.current :: tick.rest) ∧
      capReachedFor tick.current.2 tick.caps = false ∧ stage.Applies tick.current.1
  | .works (.mark tick) => Tracks limits box tick.caps (some tick.current.2) ∧
      Queued box.world.db (tick.current :: tick.rest) ∧
      ∃ applied ∈ box.applies, applied.id = tick.current.1
  | .works (.held _ caps) => Tracks limits box caps none
  | .works (.free _ caps _) => Tracks limits box caps none
  | .works (.ready _ caps) => Tracks limits box caps none

/-- Activity `n` is about to mark this proposal. -/
def Box.Marking (box : Box) (n : ℕ) (id : RowId) : Prop :=
  ∃ ended tick, box.world.activities[n]? = some (some ⟨ended, .works (.mark tick)⟩) ∧
    tick.current.1 = id

structure Within (limits : Limits) (box : Box) : Prop where
  unmarked : Unmarked box.world.db
  logged : ∀ applied ∈ box.applies, ∃ row, box.world.db.proposals.get applied.id = some row ∧
    row.status ≠ .PENDING ∧ row.kind = applied.kind ∧ row.appliedAt = some applied.appliedAt ∧
      (row.autoApplied = true ∨ ∃ n, box.Marking n applied.id)
  distinct : (box.applies.map UnattendedApply.id).Nodup
  one : ∀ (n m : ℕ) first second, box.world.activities[n]? = some (some first) →
    box.world.activities[m]? = some (some second) → first.position.ofTick = true →
      second.position.ofTick = true → n = m
  alone : box.counting ≠ none → box.world.ticking = false
  counting : ∀ counting, box.counting = some counting → counting.now ≤ box.now ∧
    (∀ k, counting.appliedThisHour = some k →
      Windows.since (box.spent .hourly) (counting.now - HOUR_MS) ≤ k) ∧
    ∀ k, counting.createdToday = some k →
      Windows.since (box.spent .daily) (counting.now - DAY_MS) ≤ k
  held : ∀ (n : ℕ) activity, box.world.activities[n]? = some (some activity) →
    activity.position.Within limits box
  bounded : ∀ budget, Windows.Bounded (box.spent budget) budget.width (budget.cap limits)

/-- Everything but the mark of an apply, and the apply itself. -/
structure Idle (box next : Box) : Prop where
  now : box.now ≤ next.now
  applies : next.applies = box.applies
  db : AllSpend box.world.db next.world.db

theorem Idle.spent (idle : Idle box next) (budget : Budget) : next.spent budget = box.spent budget := by
  rw [Box.spent, idle.applies]
  rfl

theorem Tracks.idle (idle : Idle box next) {unmarked : Option IngestProposalKind}
    (tracks : Tracks limits box caps unmarked) : Tracks limits next caps unmarked := by
  obtain ⟨instant, before, counted⟩ := tracks.counted
  refine ⟨tracks.fits, instant, before.trans idle.now, ?_⟩
  intro budget
  rw [idle.spent]
  exact counted budget

theorem spends_kind {before : Db} {after : Db} (spends : AllSpend before after) {id : RowId}
    {row : IngestProposal} (found : before.proposals.get id = some row) :
    ∃ later, after.proposals.get id = some later ∧ later.kind = row.kind := by
  have moves := spends id
  rw [found] at moves
  cases there : after.proposals.get id with
  | none =>
    rw [there] at moves
    nomatch moves
  | some later =>
    rw [there] at moves
    refine ⟨later, rfl, ?_⟩
    cases moves with
    | waits _ _ _ kind | decided _ _ _ _ kind => exact kind

variable {queue : List (RowId × IngestProposalKind)}

theorem Queued.spends {before after : Db} (queued : Queued before queue)
    (spends : AllSpend before after) : Queued after queue := by
  intro entry member
  obtain ⟨row, found, kind⟩ := queued entry member
  obtain ⟨later, there, same⟩ := spends_kind spends found
  exact ⟨later, there, same.trans kind⟩

theorem Position.Within.idle (idle : Idle box next) {position : Position}
    (within : position.Within limits box) : position.Within limits next := by
  cases position with
  | calls stage tick =>
    cases tick with
    | none => trivial
    | some tick =>
      obtain ⟨tracks, queued, free, applies⟩ := within
      exact ⟨tracks.idle idle, queued.spends idle.db, free, applies⟩
  | works stage =>
    cases stage with
    | held | free | ready => exact Tracks.idle idle within
    | mark tick =>
      obtain ⟨tracks, queued, applied, member, same⟩ := within
      exact ⟨tracks.idle idle, queued.spends idle.db, applied, idle.applies ▸ member, same⟩

theorem logged_spends {before after : Db} (spends : AllSpend before after) {applied : UnattendedApply}
    {row : IngestProposal} (found : before.proposals.get applied.id = some row)
    (was : row.status ≠ .PENDING) (kind : row.kind = applied.kind)
    (instant : row.appliedAt = some applied.appliedAt) :
    ∃ later, after.proposals.get applied.id = some later ∧ later.status ≠ .PENDING ∧
      later.kind = applied.kind ∧ later.appliedAt = some applied.appliedAt ∧
        later.autoApplied = row.autoApplied := by
  have moves := spends applied.id
  rw [found] at moves
  cases there : after.proposals.get applied.id with
  | none =>
    rw [there] at moves
    nomatch moves
  | some later =>
    rw [there] at moves
    refine ⟨later, rfl, ?_⟩
    cases moves with
    | waits _ _ pending => exact absurd pending was
    | decided _ _ _ is_ same at_ mark => exact ⟨is_, same.trans kind, at_.trans instant, mark⟩

structure MarksKept (box next : Box) : Prop extends Idle box next where
  marking : ∀ n id, box.Marking n id → next.Marking n id

theorem Within.logged_kept (within : Within limits box) (keeps : MarksKept box next) :
    ∀ applied ∈ next.applies, ∃ row, next.world.db.proposals.get applied.id = some row ∧
      row.status ≠ .PENDING ∧ row.kind = applied.kind ∧ row.appliedAt = some applied.appliedAt ∧
        (row.autoApplied = true ∨ ∃ n, next.Marking n applied.id) := by
  intro applied member
  rw [keeps.applies] at member
  obtain ⟨row, found, was, kind, instant, mark⟩ := within.logged applied member
  obtain ⟨later, there, is_, same, at_, kept⟩ := logged_spends keeps.db found was kind instant
  refine ⟨later, there, is_, same, at_, ?_⟩
  rcases mark with marked | ⟨n, marking⟩
  · exact .inl (kept.trans marked)
  · exact .inr ⟨n, keeps.marking n applied.id marking⟩

theorem counting_idle (idle : Idle box next) (within : Within limits box)
    (same : next.counting = box.counting) (counting : Counting) (found : next.counting = some counting) :
    counting.now ≤ next.now ∧
      (∀ k, counting.appliedThisHour = some k →
        Windows.since (next.spent .hourly) (counting.now - HOUR_MS) ≤ k) ∧
      ∀ k, counting.createdToday = some k →
        Windows.since (next.spent .daily) (counting.now - DAY_MS) ≤ k := by
  obtain ⟨before, hour, day⟩ := within.counting counting (same ▸ found)
  rw [idle.spent, idle.spent]
  exact ⟨before.trans idle.now, hour, day⟩

variable {activity : Activity}

theorem ticking_false {world : World} (idle : world.ticking = false) {n : ℕ}
    (live : world.activities[n]? = some (some activity)) : activity.position.ofTick = false := by
  rw [World.ticking, List.any_eq_false] at idle
  have none_ := idle _ (List.mem_of_getElem? live)
  rw [Option.any_some] at none_
  exact Bool.eq_false_iff.mpr none_

theorem ticking_of_forall {world : World}
    (none_ : ∀ (n : ℕ) activity, world.activities[n]? = some (some activity) →
      activity.position.ofTick = false) : world.ticking = false := by
  rw [World.ticking, List.any_eq_false]
  intro activity member
  obtain ⟨n, there⟩ := List.mem_iff_getElem?.mp member
  cases activity with
  | none => simp
  | some a => simp [none_ n a there]

theorem Within.still (within : Within limits box) (idle : Idle box next)
    (activities : next.world.activities = box.world.activities)
    (counting : ∀ counting, next.counting = some counting → counting.now ≤ next.now ∧
      (∀ k, counting.appliedThisHour = some k →
        Windows.since (next.spent .hourly) (counting.now - HOUR_MS) ≤ k) ∧
      ∀ k, counting.createdToday = some k →
        Windows.since (next.spent .daily) (counting.now - DAY_MS) ≤ k)
    (alone : next.counting ≠ none → box.world.ticking = false) : Within limits next where
  unmarked := within.unmarked.spends idle.db
  logged := within.logged_kept ⟨idle, fun n id marking => by
    unfold Box.Marking
    rw [activities]
    exact marking⟩
  distinct := by
    rw [idle.applies]
    exact within.distinct
  one := by
    rw [activities]
    exact within.one
  alone := by
    intro counts
    rw [World.ticking, activities]
    exact alone counts
  counting := counting
  held := by
    rw [activities]
    intro n activity live
    exact (within.held n activity live).idle idle
  bounded := by
    intro budget
    rw [idle.spent]
    exact within.bounded budget

theorem Within.same (within : Within limits box) (idle : Idle box next)
    (activities : next.world.activities = box.world.activities) (same : next.counting = box.counting) :
    Within limits next :=
  within.still idle activities (counting_idle idle within same) fun counts => within.alone (same ▸ counts)

/-- A step of activity `n` that applies nothing and marks nothing. -/
theorem Within.set (within : Within limits box) (idle : Idle box next) {n : ℕ}
    {new : Option Activity} (live : box.world.activities[n]? = some (some activity))
    (unmarking : ∀ tick, activity.position ≠ .works (.mark tick))
    (activities : next.world.activities = box.world.activities.set n new) (same : next.counting = box.counting)
    (ticks : ∀ a, new = some a → a.position.ofTick = true → activity.position.ofTick = true)
    (holds : ∀ a, new = some a → a.position.Within limits next) : Within limits next where
  unmarked := within.unmarked.spends idle.db
  logged := by
    apply within.logged_kept ⟨idle, _⟩
    intro m id marking
    obtain ⟨ended, tick, there, current⟩ := marking
    refine ⟨ended, tick, ?_, current⟩
    rw [activities, List.getElem?_set_ne, there]
    intro here
    rw [← here, live] at there
    cases there
    exact unmarking tick rfl
  distinct := by
    rw [idle.applies]
    exact within.distinct
  one := by
    have back {m : ℕ} {a : Activity} (found : next.world.activities[m]? = some (some a))
        (ofTick : a.position.ofTick = true) :
        ∃ earlier, box.world.activities[m]? = some (some earlier) ∧ earlier.position.ofTick = true := by
      rw [activities] at found
      rcases Places.set_cases found with ⟨here, new_⟩ | ⟨_, there⟩
      · rw [here]
        exact ⟨activity, live, ticks a new_.symm ofTick⟩
      · exact ⟨a, there, ofTick⟩
    intro m k first second found found' ofTick ofTick'
    obtain ⟨earlier, was, did⟩ := back found ofTick
    obtain ⟨earlier', was', did'⟩ := back found' ofTick'
    exact within.one m k earlier earlier' was was' did did'
  alone := by
    intro counts
    have idle_ := within.alone (same ▸ counts)
    apply ticking_of_forall
    intro m a found
    rw [activities] at found
    rcases Places.set_cases found with ⟨_, new_⟩ | ⟨_, there⟩
    · rw [Bool.eq_false_iff]
      intro ofTick
      have did := ticks a new_.symm ofTick
      rw [ticking_false idle_ live] at did
      cases did
    · exact ticking_false idle_ there
  counting := counting_idle idle within same
  held := by
    intro m a found
    rw [activities] at found
    rcases Places.set_cases found with ⟨_, new_⟩ | ⟨_, there⟩
    · exact holds a new_.symm
    · exact (within.held m a there).idle idle
  bounded := by
    intro budget
    rw [idle.spent]
    exact within.bounded budget

theorem nextApply_within {actorId : RowId} {position : Position}
    (tracks : Tracks limits box caps none) (queued : Queued box.world.db queue)
    (next_ : nextApply actorId caps queue = some position) : position.Within limits box := by
  induction queue with
  | nil => cases next_
  | cons first rest ih =>
    have later : Queued box.world.db rest := fun entry member => queued entry (.tail _ member)
    rw [nextApply] at next_
    split at next_
    · exact ih later next_
    · rename_i free
      rw [← Option.some.inj next_]
      exact ⟨tracks, queued, Bool.eq_false_iff.mpr free, rfl⟩

theorem proceed_within {tick : Tick} {ended : ℕ} (tracks : Tracks limits box tick.caps none)
    (queued : Queued box.world.db tick.rest) (next_ : tick.proceed ended = some activity) :
    activity.position.Within limits box := by
  obtain ⟨position, found, rfl⟩ := Option.map_eq_some_iff.mp next_
  exact nextApply_within tracks queued found

theorem afterThrow_within {stage : CallStage} {tick : Option Tick} {ended : ℕ} {failure : Failure}
    (within : Position.Within limits box (.calls stage tick))
    (next_ : afterThrow ended failure tick = some activity) :
    activity.position.Within limits box ∧ tick.isSome = true := by
  cases tick with
  | none => cases next_
  | some tick =>
    obtain ⟨tracks, queued, -, -⟩ := within
    refine ⟨?_, rfl⟩
    rw [afterThrow] at next_
    split at next_
    · exact proceed_within tracks (fun entry member => queued entry (.tail _ member)) next_
    · cases next_

theorem readyIds_queued (db : Db) : Queued db (readyIds db) := by
  intro entry member
  unfold readyIds at member
  obtain ⟨found, there, same⟩ := List.mem_map.mp member
  have listed := List.mem_reverse.mp (List.mem_of_mem_take there)
  obtain ⟨row, _⟩ := Table.mem_findMany.mp listed
  rw [← same]
  exact ⟨found.2, row, rfl⟩

theorem serve_goes_applies {answer : Answer} {stage later : CallStage} {id : RowId} {db : Db}
    (applies : stage.Applies id) (runs : serve reading db answer stage = .ok (.goes later)) :
    later.Applies id := by
  cases stage with
  | called call =>
    cases call with
    | apply other actorId chooseCompanyId =>
      obtain ⟨pre, -, runs⟩ := Fallible.bind_ok_iff.mp runs
      obtain rfl := Progress.goes.inj (Fallible.pure_ok_iff.mp runs)
      split <;> exact applies
    | reject | notSame | undo => exact absurd applies not_false
  | source other actorId chooseCompanyId pre file =>
    obtain ⟨-, -, runs⟩ := Fallible.bind_ok_iff.mp runs
    obtain rfl := Progress.goes.inj (Fallible.pure_ok_iff.mp runs)
    exact applies
  | applyTransaction other actorId chooseCompanyId pre =>
    obtain ⟨done, -, runs⟩ := Fallible.bind_ok_iff.mp runs
    cases Fallible.pure_ok_iff.mp runs
  | undoTransaction => exact absurd applies not_false

theorem serve_returns_applies {answer : Answer} {stage : CallStage} {id : RowId} {db after : Db}
    {what : Happened} (applies : stage.Applies id)
    (runs : serve reading db answer stage = .ok (.returns after what)) :
    what = .applied id ∧ ∃ row later, db.proposals.get id = some row ∧ row.status = .PENDING ∧
      after.proposals.get id = some later ∧ later.status = .APPLIED ∧ later.kind = row.kind ∧
        later.appliedAt = some answer.now := by
  cases serve_commits runs with
  | rejected | notSame | undone => exact absurd applies not_false
  | applied other actorId chooseCompanyId pre created commits =>
    obtain rfl : other = id := applies
    obtain ⟨row, pending, one⟩ := applyTransaction_row commits
    exact ⟨rfl, row, _, one.found, pending, one.there, rfl, rfl, rfl⟩

end Droplet.Filing
