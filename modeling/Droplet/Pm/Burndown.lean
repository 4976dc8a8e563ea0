import Droplet.Lib.Toggles

/-! The burndown of a cycle (`services/pm/pm-burndown.ts`), rebuilt backward from the live rows. Estimates
are rationals here. -/

namespace Droplet.Pm.Burndown

/-- Milliseconds. -/
abbrev Instant := ℤ

structure BurndownDay where
  date : String
  startsAt : Instant
  endsAt : Instant

structure BurndownItem where
  id : String
  memberNow : Bool
  terminalNow : Bool
  weight : ℚ

/-- What changed, with the value before the change. -/
inductive BurndownEvent where
  | membership (itemId : String) (at_ : Instant) (wasMember : Bool)
  | terminal (itemId : String) (at_ : Instant) (wasTerminal : Bool)

structure BurndownInput where
  days : List BurndownDay
  items : List BurndownItem
  events : List BurndownEvent
  now : Instant

structure BurndownPoint where
  date : String
  scope : Option ℕ
  remaining : Option ℕ
  completed : Option ℕ
  added : Option ℕ
  removed : Option ℕ
  scopeEstimate : Option ℚ
  remainingEstimate : Option ℚ
  completedEstimate : Option ℚ
  ideal : ℚ
  idealEstimate : ℚ

abbrev Change := Instant × Bool

structure Timeline where
  times : List Instant
  before : List Bool
  live : Bool

def buildTimeline (events : List Change) (live : Bool) : Timeline :=
  let sorted := Toggles.sort Prod.fst events
  ⟨sorted.map Prod.fst, sorted.map Prod.snd, live⟩

/-- The loop of `valueAt`: the first event that is not before the instant, between two bounds. -/
def firstFrom (times : List Instant) (t : Instant) (lo hi : ℕ) : ℕ :=
  if lo < hi then
    let mid := (lo + hi) / 2
    if times.getD mid 0 < t then firstFrom times t (mid + 1) hi else firstFrom times t lo mid
  else lo
termination_by hi - lo
decreasing_by all_goals omega

def valueAt (tl : Timeline) (t : Instant) : Bool :=
  let lo := firstFrom tl.times t 0 tl.times.length
  if lo < tl.times.length then tl.before.getD lo false else tl.live

/-- `Math.round(n * 100) / 100` -/
def round2 (n : ℚ) : ℚ := (⌊n * 100 + 1 / 2⌋ : ℚ) / 100

def membershipOf (events : List BurndownEvent) (id : String) : List Change :=
  events.filterMap fun
    | .membership itemId at_ wasMember => if itemId = id then some (at_, wasMember) else none
    | .terminal _ _ _ => none

def terminalOf (events : List BurndownEvent) (id : String) : List Change :=
  events.filterMap fun
    | .membership _ _ _ => none
    | .terminal itemId at_ wasTerminal => if itemId = id then some (at_, wasTerminal) else none

structure ItemTimeline where
  weight : ℚ
  membership : Timeline
  terminal : Timeline
  membershipEvents : List Change

def itemTimeline (events : List BurndownEvent) (item : BurndownItem) : ItemTimeline where
  weight := item.weight
  membership := buildTimeline (membershipOf events item.id) item.memberNow
  terminal := buildTimeline (terminalOf events item.id) item.terminalNow
  membershipEvents := membershipOf events item.id

structure Snapshot where
  scope : ℕ
  remaining : ℕ
  completed : ℕ
  scopeEstimate : ℚ
  remainingEstimate : ℚ
  completedEstimate : ℚ
  added : ℕ
  removed : ℕ

def Snapshot.zero : Snapshot := ⟨0, 0, 0, 0, 0, 0, 0, 0⟩

def Snapshot.count (snap : Snapshot) (tl : ItemTimeline) (t : Instant) : Snapshot :=
  if valueAt tl.membership t then
    let snap := { snap with scope := snap.scope + 1, scopeEstimate := snap.scopeEstimate + tl.weight }
    if valueAt tl.terminal t then
      { snap with
        completed := snap.completed + 1
        completedEstimate := snap.completedEstimate + tl.weight }
    else
      { snap with
        remaining := snap.remaining + 1
        remainingEstimate := snap.remainingEstimate + tl.weight }
  else snap

def Snapshot.tally (snap : Snapshot) (day : BurndownDay) (event : Change) : Snapshot :=
  if event.1 ≥ day.startsAt ∧ event.1 < day.endsAt then
    if event.2 then { snap with removed := snap.removed + 1 } else { snap with added := snap.added + 1 }
  else snap

def snapshot (timelines : List ItemTimeline) (day : BurndownDay) : Snapshot :=
  timelines.foldl (fun snap tl =>
    tl.membershipEvents.foldl (fun snap event => snap.tally day event) (snap.count tl day.endsAt)) .zero

def idealAt (last : ℕ) (base : ℚ) (i : ℕ) : ℚ :=
  if last = 0 then 0 else round2 (base * (last - i) / last)

def point (now : Instant) (last : ℕ) (baseline : Snapshot) (day : BurndownDay) (snap : Snapshot) (i : ℕ) :
    BurndownPoint :=
  let started := day.startsAt ≤ now
  { date := day.date
    scope := if started then some snap.scope else none
    remaining := if started then some snap.remaining else none
    completed := if started then some snap.completed else none
    added := if started then some snap.added else none
    removed := if started then some snap.removed else none
    scopeEstimate := if started then some (round2 snap.scopeEstimate) else none
    remainingEstimate := if started then some (round2 snap.remainingEstimate) else none
    completedEstimate := if started then some (round2 snap.completedEstimate) else none
    ideal := idealAt last baseline.remaining i
    idealEstimate := idealAt last baseline.remainingEstimate i }

def reconstructBurndown (input : BurndownInput) : List BurndownPoint :=
  let timelines := input.items.map (itemTimeline input.events)
  let snapshots := input.days.map (snapshot timelines)
  let baseline := snapshots.headD .zero
  (input.days.zip snapshots).mapIdx fun i entry =>
    point input.now (input.days.length - 1) baseline entry.1 entry.2 i

theorem firstFrom_cuts {times : List Instant} (ascending : times.Pairwise (· ≤ ·)) (t : Instant)
    (lo hi : ℕ) (ordered : lo ≤ hi) (within : hi ≤ times.length)
    (low : ∀ i (bound : i < times.length), i < lo → times[i] < t)
    (high : ∀ i (bound : i < times.length), hi ≤ i → t ≤ times[i]) :
    firstFrom times t lo hi ≤ times.length ∧
      ∀ i (bound : i < times.length), i < firstFrom times t lo hi ↔ times[i] < t := by
  have rises : ∀ i j (bound : i < times.length) (bound' : j < times.length), i ≤ j → times[i] ≤ times[j] := by
    intro i j bound bound' before
    rcases before.lt_or_eq with less | same
    · exact List.pairwise_iff_getElem.mp ascending i j bound bound' less
    · subst same
      exact le_rfl
  induction lo, hi using firstFrom.induct times t with
  | case1 lo hi open_ mid below ih =>
    have bound : mid < times.length := by omega
    have here : times.getD mid 0 = times[mid] := by simp [bound]
    rw [firstFrom, if_pos open_, if_pos below]
    refine ih (by omega) within ?_ high
    intro i bound' less
    rw [here] at below
    exact (rises i mid bound' bound (by omega)).trans_lt below
  | case2 lo hi open_ mid above ih =>
    have bound : mid < times.length := by omega
    have here : times.getD mid 0 = times[mid] := by simp [bound]
    rw [firstFrom, if_pos open_, if_neg above]
    refine ih (by omega) (by omega) low ?_
    intro i bound' more
    rw [here] at above
    exact (not_lt.mp above).trans (rises mid i bound bound' more)
  | case3 lo hi closed =>
    rw [firstFrom, if_neg closed]
    refine ⟨by omega, ?_⟩
    intro i bound
    constructor
    · exact low i bound
    · intro less
      by_contra more
      exact absurd (high i bound (by omega)) (not_le.mpr less)

/-- The toggles of one value, in the order in which they happened. -/
structure History where
  start : Bool
  times : List Instant
  ascending : times.Pairwise (· ≤ ·)

namespace History

def changes (history : History) : List Change := Toggles.toggles history.start history.times

def valueAt (history : History) (t : Instant) : Bool := Toggles.replay history.start history.times t

def live (history : History) : Bool := Toggles.final history.start history.times

theorem changes_ascending (history : History) : history.changes.Pairwise (·.1 ≤ ·.1) := by
  have keys : (history.changes.map Prod.fst).Pairwise (· ≤ ·) := by
    rw [changes, Toggles.toggles_fst]
    exact history.ascending
  exact List.pairwise_map.mp keys

end History

/-- The changes, listed in any order but for those of one instant. -/
def Lists (events : List Change) (history : History) : Prop :=
  ∀ t, events.filter (·.1 = t) = history.changes.filter (·.1 = t)

theorem valueAt_eq {events : List Change} {history : History} (listed : Lists events history) (t : Instant) :
    valueAt (buildTimeline events history.live) t = history.valueAt t := by
  have sorted : Toggles.sort Prod.fst events = history.changes :=
    Toggles.sort_eq Prod.fst history.changes_ascending listed
  have times : (history.changes).map Prod.fst = history.times := Toggles.toggles_fst _ _
  have length : history.changes.length = history.times.length := by rw [← times, List.length_map]
  obtain ⟨within, cuts⟩ := firstFrom_cuts history.ascending t 0 history.times.length (by omega) le_rfl
    (fun i _ less => absurd less (Nat.not_lt_zero i)) (fun i bound more => absurd bound (by omega))
  have found := Toggles.found_eq_replay history.start
    (firstFrom history.times t 0 history.times.length) cuts within
  simp only [valueAt, buildTimeline, sorted, times]
  rw [History.valueAt, ← found]
  change _ = ((history.changes[_]?).map Prod.snd).getD history.live
  split
  next less =>
    have bound : firstFrom history.times t 0 history.times.length < history.changes.length := by omega
    simp [bound]
  next more =>
    have bound : history.changes.length ≤ firstFrom history.times t 0 history.times.length := by omega
    simp [bound]

theorem tally_foldl (day : BurndownDay) (events : List Change) (snap : Snapshot) :
    events.foldl (fun snap event => snap.tally day event) snap =
      { snap with
        added := snap.added + Toggles.joins events day.startsAt day.endsAt
        removed := snap.removed + Toggles.leaves events day.startsAt day.endsAt } := by
  induction events generalizing snap with
  | nil => rfl
  | cons event rest ih =>
    obtain ⟨at_, before⟩ := event
    rw [List.foldl_cons, ih]
    simp only [Snapshot.tally, Toggles.joins, Toggles.leaves, List.countP_cons]
    by_cases inside : day.startsAt ≤ at_ ∧ at_ < day.endsAt
    · cases before <;> simp [inside] <;> omega
    · have outside : ∀ before' : Bool, ¬(day.startsAt ≤ at_ ∧ at_ < day.endsAt ∧ before = before') :=
        fun _ both => inside ⟨both.1, both.2.1⟩
      simp [inside, outside]

theorem snapshot_counts (timelines : List ItemTimeline) (day : BurndownDay) :
    (snapshot timelines day).scope = timelines.countP (fun tl => valueAt tl.membership day.endsAt) ∧
      (snapshot timelines day).remaining = timelines.countP (fun tl =>
        valueAt tl.membership day.endsAt && !valueAt tl.terminal day.endsAt) ∧
      (snapshot timelines day).completed = timelines.countP (fun tl =>
        valueAt tl.membership day.endsAt && valueAt tl.terminal day.endsAt) ∧
      (snapshot timelines day).added =
        (timelines.map fun tl => Toggles.joins tl.membershipEvents day.startsAt day.endsAt).sum ∧
      (snapshot timelines day).removed =
        (timelines.map fun tl => Toggles.leaves tl.membershipEvents day.startsAt day.endsAt).sum := by
  have counts : ∀ snap : Snapshot, ∃ after : Snapshot, timelines.foldl (fun snap tl =>
        tl.membershipEvents.foldl (fun snap event => snap.tally day event) (snap.count tl day.endsAt)) snap =
        after ∧
      after.scope = snap.scope + timelines.countP (fun tl => valueAt tl.membership day.endsAt) ∧
      after.remaining = snap.remaining + timelines.countP (fun tl =>
        valueAt tl.membership day.endsAt && !valueAt tl.terminal day.endsAt) ∧
      after.completed = snap.completed + timelines.countP (fun tl =>
        valueAt tl.membership day.endsAt && valueAt tl.terminal day.endsAt) ∧
      after.added = snap.added +
        (timelines.map fun tl => Toggles.joins tl.membershipEvents day.startsAt day.endsAt).sum ∧
      after.removed = snap.removed +
        (timelines.map fun tl => Toggles.leaves tl.membershipEvents day.startsAt day.endsAt).sum := by
    induction timelines with
    | nil => exact fun snap => ⟨snap, rfl, rfl, rfl, rfl, rfl, rfl⟩
    | cons tl rest ih =>
      intro snap
      rw [List.foldl_cons, tally_foldl]
      obtain ⟨after, is, scope, remaining, completed, added, removed⟩ := ih _
      refine ⟨after, is, ?_⟩
      rw [scope, remaining, completed, added, removed]
      simp only [Snapshot.count, List.countP_cons, List.map_cons, List.sum_cons]
      cases valueAt tl.membership day.endsAt <;> cases valueAt tl.terminal day.endsAt <;>
        simp <;> omega
  obtain ⟨after, is, scope, remaining, completed, added, removed⟩ := counts .zero
  rw [snapshot, is, scope, remaining, completed, added, removed]
  simp [Snapshot.zero]

/-- What happened to an item, and that it is told so, to the values of the live row. -/
structure Told (events : List BurndownEvent) (membership terminal : String → History)
    (item : BurndownItem) : Prop where
  joined : Lists (membershipOf events item.id) (membership item.id)
  finished : Lists (terminalOf events item.id) (terminal item.id)
  member : item.memberNow = (membership item.id).live
  done : item.terminalNow = (terminal item.id).live

/-- Each day begins where the one before it ended. -/
def Consecutive (days : List BurndownDay) : Prop :=
  (∀ day ∈ days, day.startsAt ≤ day.endsAt) ∧
    ∀ i day next, days[i]? = some day → days[i + 1]? = some next → next.startsAt = day.endsAt

section
variable (membership terminal : String → History) (items : List BurndownItem)

/-- How many items are in the cycle at an instant, by what happened before it. -/
def scopeAt (t : Instant) : ℕ := items.countP fun item => (membership item.id).valueAt t

def remainingAt (t : Instant) : ℕ :=
  items.countP fun item => (membership item.id).valueAt t && !(terminal item.id).valueAt t

def completedAt (t : Instant) : ℕ :=
  items.countP fun item => (membership item.id).valueAt t && (terminal item.id).valueAt t

theorem scopeAt_eq (t : Instant) :
    scopeAt membership items t = remainingAt membership terminal items t + completedAt membership terminal items t := by
  simp only [scopeAt, remainingAt, completedAt]
  induction items with
  | nil => rfl
  | cons item rest ih =>
    simp only [List.countP_cons, ih]
    cases (membership item.id).valueAt t <;> cases (terminal item.id).valueAt t <;> simp <;> omega

variable {membership terminal items} {events : List BurndownEvent}

theorem snapshot_replays (told : ∀ item ∈ items, Told events membership terminal item) (day : BurndownDay) :
    (snapshot (items.map (itemTimeline events)) day).scope = scopeAt membership items day.endsAt ∧
      (snapshot (items.map (itemTimeline events)) day).remaining =
        remainingAt membership terminal items day.endsAt ∧
      (snapshot (items.map (itemTimeline events)) day).completed =
        completedAt membership terminal items day.endsAt := by
  obtain ⟨scope, remaining, completed, _⟩ := snapshot_counts (items.map (itemTimeline events)) day
  have member : ∀ item ∈ items, valueAt (itemTimeline events item).membership day.endsAt =
      (membership item.id).valueAt day.endsAt := by
    intro item there
    rw [itemTimeline, (told item there).member]
    exact valueAt_eq (told item there).joined day.endsAt
  have done : ∀ item ∈ items, valueAt (itemTimeline events item).terminal day.endsAt =
      (terminal item.id).valueAt day.endsAt := by
    intro item there
    rw [itemTimeline, (told item there).done]
    exact valueAt_eq (told item there).finished day.endsAt
  rw [scope, remaining, completed, List.countP_map, List.countP_map, List.countP_map]
  refine ⟨List.countP_congr ?_, List.countP_congr ?_, List.countP_congr ?_⟩ <;> intro item there <;>
    simp [member item there, done item there]

theorem scope_window (told : ∀ item ∈ items, Told events membership terminal item) {t t' : Instant}
    (window : t ≤ t') :
    scopeAt membership items t' + (items.map fun item =>
        Toggles.leaves (membershipOf events item.id) t t').sum =
      scopeAt membership items t + (items.map fun item =>
        Toggles.joins (membershipOf events item.id) t t').sum := by
  simp only [scopeAt]
  induction items with
  | nil => rfl
  | cons item rest ih =>
    have tail := ih fun other there => told other (.tail _ there)
    have perm := Toggles.perm_of_listed Prod.fst (membership item.id).changes_ascending
      (told item (.head _)).joined
    have own : ((membership item.id).valueAt t').toNat + Toggles.leaves (membershipOf events item.id) t t' =
        ((membership item.id).valueAt t).toNat + Toggles.joins (membershipOf events item.id) t t' := by
      rw [Toggles.leaves, Toggles.joins, perm.countP_eq, perm.countP_eq]
      exact Toggles.replay_window (membership item.id).ascending window
    simp only [List.countP_cons, List.map_cons, List.sum_cons]
    have count : ∀ value : Bool, (if value = true then 1 else 0) = value.toNat := by
      intro value
      cases value <;> rfl
    rw [count, count]
    omega

end

theorem point_of_day {input : BurndownInput} {i : ℕ} {day : BurndownDay} {drawn : BurndownPoint}
    (there : input.days[i]? = some day) (is : (reconstructBurndown input)[i]? = some drawn)
    (started : day.startsAt ≤ input.now) :
    drawn.scope = some (snapshot (input.items.map (itemTimeline input.events)) day).scope ∧
      drawn.remaining = some (snapshot (input.items.map (itemTimeline input.events)) day).remaining ∧
      drawn.completed = some (snapshot (input.items.map (itemTimeline input.events)) day).completed ∧
      drawn.added = some (snapshot (input.items.map (itemTimeline input.events)) day).added ∧
      drawn.removed = some (snapshot (input.items.map (itemTimeline input.events)) day).removed := by
  simp only [reconstructBurndown, List.getElem?_mapIdx, List.getElem?_zip_eq_some, List.getElem?_map,
    Option.map_eq_some_iff] at is
  obtain ⟨entry, both, rfl⟩ := is
  obtain ⟨first, second, again, snap⟩ := both
  cases Option.some_inj.mp (there.symm.trans first)
  cases Option.some_inj.mp (there.symm.trans again)
  rw [← snap]
  simp [point, started]

/-- Each day that has started shows what the toggles come to, replayed up to its end; what is in the cycle
is done or remains; the scope moves by what was added and removed; and after the last toggle the chart
shows the live rows. -/
theorem burndown_is_the_history_replayed (input : BurndownInput) (membership terminal : String → History)
    (told : ∀ item ∈ input.items, Told input.events membership terminal item)
    (consecutive : Consecutive input.days) :
    (reconstructBurndown input).length = input.days.length ∧
    ∀ i day drawn, input.days[i]? = some day → (reconstructBurndown input)[i]? = some drawn →
      day.startsAt ≤ input.now →
      (drawn.scope = some (scopeAt membership input.items day.endsAt) ∧
        drawn.remaining = some (remainingAt membership terminal input.items day.endsAt) ∧
        drawn.completed = some (completedAt membership terminal input.items day.endsAt)) ∧
      (∃ scope remaining completed, drawn.scope = some scope ∧ drawn.remaining = some remaining ∧
        drawn.completed = some completed ∧ scope = remaining + completed) ∧
      (∀ next later, input.days[i + 1]? = some next → (reconstructBurndown input)[i + 1]? = some later →
        next.startsAt ≤ input.now → ∃ scope scope' added removed, drawn.scope = some scope ∧
          later.scope = some scope' ∧ later.added = some added ∧ later.removed = some removed ∧
          scope' + removed = scope + added) ∧
      ((∀ item ∈ input.items, (∀ time ∈ (membership item.id).times, time < day.endsAt) ∧
          ∀ time ∈ (terminal item.id).times, time < day.endsAt) →
        drawn.scope = some (input.items.countP BurndownItem.memberNow) ∧
        drawn.remaining = some (input.items.countP fun item => item.memberNow && !item.terminalNow) ∧
        drawn.completed = some (input.items.countP fun item => item.memberNow && item.terminalNow)) := by
  refine ⟨by simp [reconstructBurndown], ?_⟩
  intro i day drawn there is started
  obtain ⟨scope, remaining, completed, _⟩ := point_of_day there is started
  obtain ⟨scope_eq, remaining_eq, completed_eq⟩ := snapshot_replays told day
  rw [scope_eq] at scope
  rw [remaining_eq] at remaining
  rw [completed_eq] at completed
  refine ⟨⟨scope, remaining, completed⟩, ⟨_, _, _, scope, remaining, completed, scopeAt_eq _ _ _ _⟩, ?_, ?_⟩
  · intro next later there' is' started'
    obtain ⟨scope', _, _, added, removed⟩ := point_of_day there' is' started'
    obtain ⟨_, _, _, added_eq, removed_eq⟩ :=
      snapshot_counts (input.items.map (itemTimeline input.events)) next
    refine ⟨_, _, _, _, scope, scope', added, removed, ?_⟩
    have abuts := consecutive.2 i day next there there'
    have window := scope_window told (consecutive.1 next (List.mem_of_getElem? there'))
    rw [(snapshot_replays told next).1, added_eq, removed_eq, List.map_map, List.map_map, ← abuts]
    exact window
  · intro past
    have member : ∀ item ∈ input.items, (membership item.id).valueAt day.endsAt = item.memberNow := by
      intro item inside
      rw [(told item inside).member]
      exact Toggles.replay_all (past item inside).1
    have done : ∀ item ∈ input.items, (terminal item.id).valueAt day.endsAt = item.terminalNow := by
      intro item inside
      rw [(told item inside).done]
      exact Toggles.replay_all (past item inside).2
    rw [scope, remaining, completed, scopeAt, remainingAt, completedAt]
    refine ⟨congrArg some (List.countP_congr ?_), congrArg some (List.countP_congr ?_),
      congrArg some (List.countP_congr ?_)⟩ <;> intro item inside <;>
      simp [member item inside, done item inside]

/-- An item that joins on the first day and is finished on the second, listed the other way about. -/
def joinedAndFinished : BurndownInput where
  days := [⟨"2026-01-01", 0, 10⟩, ⟨"2026-01-02", 10, 20⟩]
  items := [⟨"a", true, true, 3⟩]
  events := [.terminal "a" 15 false, .membership "a" 5 false]
  now := 30

theorem joined_and_finished_replayed : ∃ drawn, (reconstructBurndown joinedAndFinished)[1]? = some drawn ∧
    drawn.scope = some 1 ∧ drawn.remaining = some 0 ∧ drawn.completed = some 1 := by
  have membership : membershipOf joinedAndFinished.events "a" = [(5, false)] := by decide
  have terminal : terminalOf joinedAndFinished.events "a" = [(15, false)] := by decide
  have told : ∀ item ∈ joinedAndFinished.items, Told joinedAndFinished.events
      (fun _ => ⟨false, [5], by simp⟩) (fun _ => ⟨false, [15], by simp⟩) item := by
    intro item there
    cases List.mem_singleton.mp there
    refine ⟨?_, ?_, rfl, rfl⟩
    · intro t
      rw [membership]
      rfl
    · intro t
      rw [terminal]
      rfl
  have consecutive : Consecutive joinedAndFinished.days := by
    refine ⟨by decide, ?_⟩
    intro i day next first second
    rcases i with _ | _ | i
    · cases first
      cases second
      rfl
    · cases second
    · cases first
  obtain ⟨length, replayed⟩ :=
    burndown_is_the_history_replayed joinedAndFinished _ _ told consecutive
  have bound : 1 < (reconstructBurndown joinedAndFinished).length := length ▸ by decide
  exact ⟨_, List.getElem?_eq_getElem bound,
    (replayed 1 _ _ rfl (List.getElem?_eq_getElem bound) (by decide)).1⟩

end Droplet.Pm.Burndown
