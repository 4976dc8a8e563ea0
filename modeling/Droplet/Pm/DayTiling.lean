import Droplet.Pm.Resolve
import Droplet.Pm.WhereMeans

/-! Date conditions tile the time line (`services/pm/filter/dates.ts` and `dateCondition`): where a day starts
in a zone whose clock is changed, and what is before, in and after it. -/

namespace Droplet.Pm

open ZonedTime Gregorian Fallible Sql

/-- The offset is a step function of the instant: it is less than a day, and it changes by at most a day, not
twice within two days. -/
structure StepOffset (zone : Zone) : Prop where
  apart : ∀ t u, zone.offset t ≠ zone.offset (t - 1) → zone.offset u ≠ zone.offset (u - 1) →
    t < u → 2 * DAY_MS ≤ u - t
  within : ∀ t, |zone.offset t| < DAY_MS
  height : ∀ t, |zone.offset t - zone.offset (t - 1)| ≤ DAY_MS

def localDay (zone : Zone) (t : ℤ) : ℤ := (t + timeZoneOffsetMs zone t) / DAY_MS

/-- The date has begun, at the instant or before: a clock that is set back does not undo it. -/
def Begun (zone : Zone) (t day : ℤ) : Prop := ∃ u ≤ t, day ≤ localDay zone u

/-- A change sets the clock forward from before the midnight to after it. -/
def Skips (zone : Zone) (day : ℤ) : Prop :=
  ∃ t, t + zone.offset (t - 1) < day * DAY_MS ∧ day * DAY_MS < t + zone.offset t

/-- A change sets the clock back from after the midnight to before it. -/
def SetsBack (zone : Zone) (day : ℤ) : Prop :=
  ∃ t, t + zone.offset t < day * DAY_MS ∧ day * DAY_MS < t + zone.offset (t - 1)

section
variable {zone : Zone}

theorem day_pos : 0 < DAY_MS := by decide

/-- The offset around a wall clock: one before a change, another from it on. -/
structure Window (zone : Zone) (w change a b : ℤ) : Prop where
  low : w - DAY_MS < change
  high : change ≤ w + DAY_MS
  before : ∀ u, w - DAY_MS ≤ u → u < change → zone.offset u = a
  after : ∀ u, change ≤ u → u ≤ w + DAY_MS → zone.offset u = b

theorem offset_const {first last : ℤ} (none_ : ∀ u, first < u → u ≤ last → zone.offset u = zone.offset (u - 1))
    (u : ℤ) (low : first ≤ u) (high : u ≤ last) : zone.offset u = zone.offset first := by
  induction u, low using Int.leInduction with
  | base => rfl
  | succ u low ih =>
    have step := none_ (u + 1) (by omega) high
    rw [step, show u + 1 - 1 = u by omega, ih (by omega)]

theorem StepOffset.window (steps : StepOffset zone) (w : ℤ) : ∃ change a b, Window zone w change a b := by
  have pos := day_pos
  by_cases changes : ∃ change, w - DAY_MS < change ∧ change ≤ w + DAY_MS ∧
      zone.offset change ≠ zone.offset (change - 1)
  · obtain ⟨change, low, high, step⟩ := changes
    have only : ∀ u, w - DAY_MS < u → u ≤ w + DAY_MS → u ≠ change → zone.offset u = zone.offset (u - 1) := by
      intro u above below other
      by_contra second
      rcases lt_or_gt_of_ne other with less | more
      · have far := steps.apart u change second step less
        omega
      · have far := steps.apart change u step second more
        omega
    refine ⟨change, zone.offset (w - DAY_MS), zone.offset change, low, high, ?_, ?_⟩
    · intro u above below
      refine @offset_const zone (w - DAY_MS) (change - 1) ?_ u above (by omega)
      intro v up down
      exact only v up (by omega) (by omega)
    · intro u above below
      refine @offset_const zone change (w + DAY_MS) ?_ u above below
      intro v up down
      exact only v (by omega) down (by omega)
  · push Not at changes
    refine ⟨w + DAY_MS, zone.offset (w - DAY_MS), zone.offset (w - DAY_MS), by omega, le_rfl, ?_, ?_⟩
    · intro u above below
      exact @offset_const zone (w - DAY_MS) (w + DAY_MS) changes u above (by omega)
    · intro u above below
      exact @offset_const zone (w - DAY_MS) (w + DAY_MS) changes u (by omega) below

/-- The instant of a wall clock, from the wall clock as an instant of UTC. -/
def atWall (zone : Zone) (w : ℤ) : ℤ :=
  let offsetBefore := timeZoneOffsetMs zone (w - DAY_MS)
  let offsetAfter := timeZoneOffsetMs zone (w + DAY_MS)
  let valid := ([offsetBefore, offsetAfter].eraseDups.map fun off => w - off).filter
    fun instant => decide (timeZoneOffsetMs zone instant = w - instant)
  match valid.min? with
  | some first => first
  | none => w - offsetBefore

theorem zonedWallClockToUtc_eq (y : ℤ) (mo d h mi s : ℕ) (zone : Zone) :
    zonedWallClockToUtc y mo d h mi s zone = atWall zone (dateUTC y mo d h mi s) := rfl

theorem atWall_eq (steps : StepOffset zone) {w change a b : ℤ} (window : Window zone w change a b) :
    atWall zone w = if change ≤ w - b ∧ change ≤ w - a then w - b else w - a := by
  have pos := day_pos
  obtain ⟨low, high, before, after⟩ := window
  have first : timeZoneOffsetMs zone (w - DAY_MS) = a := before _ le_rfl low
  have last : timeZoneOffsetMs zone (w + DAY_MS) = b := after _ high le_rfl
  have smallA : |a| < DAY_MS := first ▸ steps.within _
  have smallB : |b| < DAY_MS := last ▸ steps.within _
  rw [abs_lt] at smallA smallB
  have validA : timeZoneOffsetMs zone (w - a) = w - (w - a) ↔ w - a < change ∨ a = b := by
    rw [sub_sub_cancel]
    by_cases early : w - a < change
    · simp only [early, true_or, iff_true]
      exact before _ (by omega) early
    · have is : timeZoneOffsetMs zone (w - a) = b := after _ (by omega) (by omega)
      rw [is]
      simp [early, eq_comm]
  have validB : timeZoneOffsetMs zone (w - b) = w - (w - b) ↔ change ≤ w - b ∨ a = b := by
    rw [sub_sub_cancel]
    by_cases late : change ≤ w - b
    · simp only [late, true_or, iff_true]
      exact after _ late (by omega)
    · have is : timeZoneOffsetMs zone (w - b) = a := before _ (by omega) (by omega)
      rw [is]
      simp [late]
  unfold atWall
  simp only [first, last]
  by_cases same : a = b
  · subst same
    have once : [a, a].eraseDups = [a] := by simp [List.eraseDups_cons]
    have holds : timeZoneOffsetMs zone (w - a) = w - (w - a) := validA.mpr (.inr rfl)
    simp only [once, List.map_cons, List.map_nil, List.filter_cons, List.filter_nil, holds, decide_true, if_true,
      ite_self]
    rfl
  · have two : [a, b].eraseDups = [a, b] := by simp [List.eraseDups_cons, Ne.symm same]
    simp only [two, List.map_cons, List.map_nil, List.filter_cons, List.filter_nil, validA, validB, same, or_false,
      decide_eq_true_eq]
    by_cases early : w - a < change <;> by_cases late : change ≤ w - b
    · rw [if_pos early, if_pos late, if_neg (by omega)]
      exact min_eq_left (by omega)
    · rw [if_pos early, if_neg late, if_neg (by omega)]
      rfl
    · rw [if_neg early, if_pos late, if_pos ⟨late, by omega⟩]
      rfl
    · rw [if_neg early, if_neg late, if_neg (by omega)]
      rfl

theorem atWall_mono (steps : StepOffset zone) (w : ℤ) : atWall zone w ≤ atWall zone (w + DAY_MS) := by
  have pos := day_pos
  obtain ⟨change, a, b, window⟩ := steps.window w
  obtain ⟨change', a', b', window'⟩ := steps.window (w + DAY_MS)
  rw [atWall_eq steps window, atWall_eq steps window']
  obtain ⟨low, high, before, after⟩ := window
  obtain ⟨low', high', before', after'⟩ := window'
  have atChange : zone.offset change = b := after change le_rfl high
  have atChange' : zone.offset change' = b' := after' change' le_rfl high'
  have fore : zone.offset (change - 1) = a := before _ (by omega) (by omega)
  have fore' : zone.offset (change' - 1) = a' := before' _ (by omega) (by omega)
  have small := steps.height change
  have small' := steps.height change'
  have within := steps.within change
  have withinFore := steps.within (change - 1)
  rw [atChange, fore] at small
  rw [atChange', fore'] at small'
  rw [atChange] at within
  rw [fore] at withinFore
  rw [abs_le] at small small'
  rw [abs_lt] at within withinFore
  have shared : zone.offset w = a' := before' w (by omega) (by omega)
  by_cases passed : change ≤ w
  · have same : b = a' := (after w passed (by omega)).symm.trans shared
    subst same
    by_cases later : b = b'
    · subst later
      split <;> split <;> omega
    · by_cases flat : a = b
      · subst flat
        split <;> split <;> omega
      · have far : change < change' → 2 * DAY_MS ≤ change' - change := by
          refine steps.apart change change' ?_ ?_
          · rw [atChange, fore]
            exact Ne.symm flat
          · rw [atChange', fore']
            exact Ne.symm later
        have far' := far (by omega)
        split <;> split <;> omega
  · have same : a = a' := (before w (by omega) (by omega)).symm.trans shared
    subst same
    by_cases flat : a = b
    · subst flat
      split <;> split <;> omega
    · have one : change' = change := by
        rcases lt_trichotomy change' change with less | is | more
        · have now := after' change less.le (by omega)
          have ago := after' (change - 1) (by omega) (by omega)
          exact absurd (fore.symm.trans (ago.trans (now.symm.trans atChange))) flat
        · exact is
        · exact absurd ((before' change (by omega) more).symm.trans atChange) flat
      subst one
      have equal : b' = b := atChange'.symm.trans atChange
      subst equal
      split <;> split <;> omega

theorem le_localDay (zone : Zone) (t day : ℤ) : day ≤ localDay zone t ↔ day * DAY_MS ≤ t + zone.offset t :=
  Int.le_ediv_iff_mul_le day_pos

theorem begun_iff (steps : StepOffset zone) {day : ℤ} (whole : ¬ Skips zone day) (t : ℤ) :
    Begun zone t day ↔ atWall zone (day * DAY_MS) ≤ t := by
  have pos := day_pos
  generalize at_ : day * DAY_MS = w
  obtain ⟨change, a, b, window⟩ := steps.window w
  rw [atWall_eq steps window]
  obtain ⟨low, high, before, after⟩ := window
  have atChange : zone.offset change = b := after change le_rfl high
  have fore : zone.offset (change - 1) = a := before _ (by omega) (by omega)
  have straight : ¬(change + a < w ∧ w < change + b) := by
    intro skips
    refine whole ⟨change, ?_⟩
    rw [at_, fore, atChange]
    exact skips
  have withinA := steps.within (change - 1)
  have withinB := steps.within change
  rw [fore, abs_lt] at withinA
  rw [atChange, abs_lt] at withinB
  constructor
  · intro begun
    obtain ⟨u, early, reads⟩ := begun
    rw [le_localDay, at_] at reads
    have within := steps.within u
    rw [abs_lt] at within
    by_contra later
    by_cases first : u < change
    · rw [before u (by omega) first] at reads within
      split at later <;> omega
    · rw [after u (by omega) (by split at later <;> omega)] at reads within
      split at later <;> omega
  · intro started
    refine ⟨_, started, ?_⟩
    rw [le_localDay, at_]
    split
    next both => rw [after (w - b) both.1 (by omega)]; omega
    next other =>
      by_cases first : w - a < change
      · rw [before (w - a) (by omega) first]
        omega
      · rw [after (w - a) (by omega) (by omega)]
        omega

/-- Where no clock is set back over the midnight, the date that has begun is the local date or one before. -/
theorem begun_iff_localDay (steps : StepOffset zone) {day : ℤ} (forward : ¬ SetsBack zone day) (t : ℤ) :
    Begun zone t day ↔ day ≤ localDay zone t := by
  have pos := day_pos
  refine ⟨?_, fun reads => ⟨t, le_rfl, reads⟩⟩
  intro begun
  obtain ⟨u, early, reads⟩ := begun
  rw [le_localDay] at reads ⊢
  generalize at_ : day * DAY_MS = w at reads ⊢
  have withinU := steps.within u
  have withinT := steps.within t
  rw [abs_lt] at withinU withinT
  by_contra behind
  obtain ⟨change, a, b, low, high, before, after⟩ := steps.window w
  have atChange : zone.offset change = b := after change le_rfl high
  have fore : zone.offset (change - 1) = a := before _ (by omega) (by omega)
  have kept : ¬(change + b < w ∧ w < change + a) := by
    intro back
    refine forward ⟨change, ?_⟩
    rw [at_, fore, atChange]
    exact back
  by_cases firstU : u < change
  · have shows : zone.offset u = a := before u (by omega) firstU
    by_cases firstT : t < change
    · have same : zone.offset t = a := before t (by omega) firstT
      omega
    · have other : zone.offset t = b := after t (by omega) (by omega)
      omega
  · have shows : zone.offset u = b := after u (by omega) (by omega)
    have same : zone.offset t = b := after t (by omega) (by omega)
    omega

end

def ExactlyOne (p q r : Prop) : Prop := (p ∧ ¬q ∧ ¬r) ∨ (¬p ∧ q ∧ ¬r) ∨ (¬p ∧ ¬q ∧ r)

section
variable {intl : Intl} {ctx : PmFilterContext} {zone : Zone} (resolves : intl.resolve ctx.tz = some zone)

/-- A day that `Date.UTC` takes for itself: not of the years it reads as 1900 to 1999. -/
def Plain (storage : DateStorage) (day : ℤ) : Prop := storage = .timestamp → 100 ≤ (ofDay day).year

include resolves in
theorem firstInstant_eq {storage : DateStorage} {day start : ℤ} (plain : Plain storage day)
    (first : firstInstant intl ctx storage day = some start) :
    (storage = .date → start = day * DAY_MS) ∧ (storage = .timestamp → start = atWall zone (day * DAY_MS)) := by
  cases storage with
  | date => exact ⟨fun _ => (Option.some.inj first).symm, nofun⟩
  | timestamp =>
    refine ⟨nofun, fun _ => ?_⟩
    rw [firstInstant, resolves, Option.map_some, zonedWallClockToUtc_eq,
      dateUTC_date (ofDay day) (ofDay_valid day) (plain rfl), toDay_ofDay] at first
    rw [← Option.some.inj first]
    congr 1
    simp

theorem Plain.next {storage : DateStorage} {day : ℤ} (plain : Plain storage day) : Plain storage (day + 1) := by
  intro moment
  have grows := year_ofDay_mono day (day + 1) (by omega)
  have late := plain moment
  omega

include resolves in
theorem firstInstant_mono (steps : StepOffset zone) {storage : DateStorage} {day start finish : ℤ}
    (plain : Plain storage day) (first : firstInstant intl ctx storage day = some start)
    (last : firstInstant intl ctx storage (day + 1) = some finish) : start ≤ finish := by
  have pos := day_pos
  have one := firstInstant_eq resolves plain first
  have two := firstInstant_eq resolves plain.next last
  have next : (day + 1) * DAY_MS = day * DAY_MS + DAY_MS := by ring
  cases storage with
  | date =>
    rw [one.1 rfl, two.1 rfl]
    omega
  | timestamp =>
    rw [one.2 rfl, two.2 rfl, next]
    exact atWall_mono steps _

variable {col : DateColumn} {field : PmFilterField} {token : String} {compiled : Where}

theorem before_compiled (returns : dateCondition intl col ctx ⟨field, .before, some (.str token)⟩ = .ok compiled) :
    ∃ start, tokenStart ctx intl (DATE_COLUMNS col) token = .ok start ∧
      compiled = .date col (.range none (some start)) := by
  simp only [dateCondition, bind_ok_iff, ofRange_ok_iff, pure_ok_iff] at returns
  obtain ⟨start, first, is⟩ := returns
  exact ⟨start, bind_ok_iff.mpr first, is.symm⟩

theorem after_compiled (returns : dateCondition intl col ctx ⟨field, .after, some (.str token)⟩ = .ok compiled) :
    ∃ finish, tokenEnd ctx intl (DATE_COLUMNS col) token = .ok finish ∧
      compiled = .date col (.range (some finish) none) := by
  simp only [dateCondition, bind_ok_iff, ofRange_ok_iff, pure_ok_iff] at returns
  obtain ⟨finish, last, is⟩ := returns
  exact ⟨finish, bind_ok_iff.mpr last, is.symm⟩

theorem is_compiled (returns : dateCondition intl col ctx ⟨field, .is, some (.str token)⟩ = .ok compiled) :
    ∃ start finish, tokenStart ctx intl (DATE_COLUMNS col) token = .ok start ∧
      tokenEnd ctx intl (DATE_COLUMNS col) token = .ok finish ∧
      compiled = .date col (.range (some start) (some finish)) := by
  simp only [dateCondition, bind_ok_iff, ofRange_ok_iff, pure_ok_iff] at returns
  obtain ⟨start, first, finish, last, is⟩ := returns
  exact ⟨start, finish, bind_ok_iff.mpr first, bind_ok_iff.mpr last, is.symm⟩

theorem between_compiled {last : String}
    (returns : dateCondition intl col ctx ⟨field, .between, some (.list [token, last])⟩ = .ok compiled) :
    ∃ start finish, tokenStart ctx intl (DATE_COLUMNS col) token = .ok start ∧
      tokenEnd ctx intl (DATE_COLUMNS col) last = .ok finish ∧
      compiled = .date col (.range (some start) (some finish)) := by
  simp only [dateCondition, bind_ok_iff, ofRange_ok_iff, pure_ok_iff] at returns
  obtain ⟨start, first, finish, ends, is⟩ := returns
  exact ⟨start, finish, bind_ok_iff.mpr first, bind_ok_iff.mpr ends, is.symm⟩

include resolves in
theorem token_bounds {storage : DateStorage} {start finish day : ℤ}
    (starts : tokenStart ctx intl storage token = .ok start)
    (ends : tokenEnd ctx intl storage token = .ok finish) (known : tokenDay intl ctx token = some day) :
    firstInstant intl ctx storage day = some start ∧ firstInstant intl ctx storage (day + 1) = some finish := by
  obtain ⟨ymd, date, dayIs, parsed, rfl⟩ := (tokenDay_eq_some ctx intl token day).mp known
  simp only [tokenStart, bind_ok_iff, dayStart_ok_iff ctx intl _ _ zone resolves] at starts
  simp only [tokenEnd, bind_ok_iff, dayEnd_ok_iff ctx intl _ _ zone resolves] at ends
  obtain ⟨ymd', same, date', parsed', first⟩ := starts
  obtain ⟨ymd'', same', date'', parsed'', _, last⟩ := ends
  rw [dayIs] at same same'
  cases same
  cases same'
  rw [parsed] at parsed' parsed''
  cases parsed'
  cases parsed''
  exact ⟨first, last⟩

include resolves in
theorem tokenDay_of_start {storage : DateStorage} {start : ℤ}
    (starts : tokenStart ctx intl storage token = .ok start) : ∃ day, tokenDay intl ctx token = some day := by
  simp only [tokenStart, bind_ok_iff, dayStart_ok_iff ctx intl _ _ zone resolves] at starts
  obtain ⟨ymd, dayIs, date, parsed, _⟩ := starts
  exact ⟨_, (tokenDay_eq_some ctx intl token _).mpr ⟨ymd, date, dayIs, parsed, rfl⟩⟩

variable (folding : Folding) {row : PmWorkItem} {t : ℤ} (value : row.date col = some t)

include value in
theorem range_holds (gte lt : Option ℤ) : (Where.date col (.range gte lt)).eval folding row = some true ↔
    (∀ low ∈ gte, low ≤ t) ∧ ∀ high ∈ lt, t < high := by
  rw [range_eval, value]
  simp

include value resolves in
/-- Date conditions tile the time line, and on a column of moments a day is the stretch in which its date is
the last that has begun. -/
theorem date_conditions_tile (steps : StepOffset zone) (first last : String)
    (plain : ∀ day, tokenDay intl ctx first = some day → Plain (DATE_COLUMNS col) day)
    {before_ is_ after_ afterLast between_ : Where}
    (compiledBefore : dateCondition intl col ctx ⟨field, .before, some (.str first)⟩ = .ok before_)
    (compiledIs : dateCondition intl col ctx ⟨field, .is, some (.str first)⟩ = .ok is_)
    (compiledAfter : dateCondition intl col ctx ⟨field, .after, some (.str first)⟩ = .ok after_)
    (compiledLast : dateCondition intl col ctx ⟨field, .after, some (.str last)⟩ = .ok afterLast)
    (compiledBetween : dateCondition intl col ctx ⟨field, .between, some (.list [first, last])⟩ = .ok between_) :
    ExactlyOne (before_.eval folding row = some true) (is_.eval folding row = some true)
        (after_.eval folding row = some true) ∧
      (between_.eval folding row = some true ↔
        ¬ before_.eval folding row = some true ∧ ¬ afterLast.eval folding row = some true) ∧
      (DATE_COLUMNS col = .timestamp → ∀ day, tokenDay intl ctx first = some day →
        ¬ Skips zone day → ¬ Skips zone (day + 1) →
        (is_.eval folding row = some true ↔ Begun zone t day ∧ ¬ Begun zone t (day + 1)) ∧
        (¬ SetsBack zone day → ¬ SetsBack zone (day + 1) →
          (is_.eval folding row = some true ↔ localDay zone t = day))) := by
  obtain ⟨start, starts, rfl⟩ := before_compiled compiledBefore
  obtain ⟨start', finish, starts', ends, rfl⟩ := is_compiled compiledIs
  obtain ⟨finish', ends', rfl⟩ := after_compiled compiledAfter
  obtain ⟨finishLast, endsLast, rfl⟩ := after_compiled compiledLast
  obtain ⟨start'', finishLast', starts'', endsLast', rfl⟩ := between_compiled compiledBetween
  cases Except.ok.inj (starts.symm.trans starts')
  cases Except.ok.inj (starts.symm.trans starts'')
  cases Except.ok.inj (ends.symm.trans ends')
  cases Except.ok.inj (endsLast.symm.trans endsLast')
  obtain ⟨day, known⟩ := tokenDay_of_start resolves starts
  obtain ⟨opens, closes⟩ := token_bounds resolves starts ends known
  have ordered := firstInstant_mono resolves steps (plain day known) opens closes
  simp only [range_holds folding value, Option.mem_def, Option.some.injEq, forall_eq', reduceCtorEq, false_imp_iff,
    implies_true, true_and, and_true]
  refine ⟨?_, by omega, ?_⟩
  · unfold ExactlyOne
    omega
  · intro moment day' same whole whole'
    rw [known] at same
    cases same
    have begins := (firstInstant_eq resolves (plain day known) opens).2 moment
    have ends_ := (firstInstant_eq resolves (plain day known).next closes).2 moment
    have isDay : start ≤ t ∧ t < finish ↔ Begun zone t day ∧ ¬ Begun zone t (day + 1) := by
      rw [begun_iff steps whole, begun_iff steps whole', begins, ends_]
      omega
    refine ⟨isDay, ?_⟩
    intro forward forward'
    rw [isDay, begun_iff_localDay steps forward, begun_iff_localDay steps forward']
    omega

end

/-- A zone whose clock is changed once. -/
theorem stepOffset_once (canonical : String) (change : ℤ) {a b : ℤ} (low : |a| < DAY_MS) (high : |b| < DAY_MS)
    (height : |b - a| ≤ DAY_MS) : StepOffset ⟨canonical, fun t => if t < change then a else b⟩ where
  apart := by
    intro t u first second less
    dsimp only at first second
    split at first <;> split at first <;> split at second <;> split at second <;> omega
  within := by
    intro t
    dsimp only
    split <;> assumption
  height := by
    intro t
    dsimp only
    have pos := day_pos
    split <;> split
    · rw [sub_self, abs_zero]
      omega
    · omega
    · exact height
    · rw [sub_self, abs_zero]
      omega

/-- At one minute past midnight of the first day the clock is set back by an hour. -/
def setBackZone : Zone := ⟨"Back", fun t => if t < 60000 then 0 else -3600000⟩

def setBackIntl : Intl := Intl.only setBackZone (by decide)

def backContext : PmFilterContext := ⟨0, "Back", none, fun _ => none⟩

theorem setBackZone_step : StepOffset setBackZone :=
  stepOffset_once "Back" 60000 (a := 0) (b := -3600000) (by decide) (by decide) (by decide)

def lastDay : Where := .date .createdAt (.range (some (-86400000)) (some 0))

theorem lastDay_compiled :
    dateCondition setBackIntl .createdAt backContext ⟨.createdAt, .is, some (.str "1969-12-31")⟩ =
      .ok lastDay := by
  rfl

def itemAt (t : ℤ) : PmWorkItem where
  project := ⟨"p1", "OPS", none⟩
  sequenceId := 1
  name := "Item"
  descriptionText := none
  state := none
  priority := .unset
  parentId := none
  cycleId := none
  departmentId := none
  createdById := none
  startDate := none
  dueDate := none
  isArchived := false
  createdAt := t
  updatedAt := t
  assignees := []
  labels := []
  modules := []

def exactFolding : Folding := ⟨fun c => c, fun _ _ => rfl⟩

/-- The minutes that are shown again before midnight have the old date and are in the new day. -/
theorem set_back_day_is_split :
    ¬ ∀ (intl : Intl) (ctx : PmFilterContext) (zone : Zone) (token : String) (day : ℤ) (row : PmWorkItem)
      (is_ : Where), intl.resolve ctx.tz = some zone → StepOffset zone → tokenDay intl ctx token = some day →
      dateCondition intl .createdAt ctx ⟨.createdAt, .is, some (.str token)⟩ = .ok is_ →
      (is_.eval exactFolding row = some true ↔ localDay zone row.createdAt = day) := by
  intro claim
  have same := claim setBackIntl backContext setBackZone "1969-12-31" (-1) (itemAt 60000) lastDay rfl
    setBackZone_step rfl lastDay_compiled
  exact absurd same (by decide)

/-- Noon of the second day of the epoch, in UTC. -/
theorem second_day_tiles :
    ExactlyOne
        ((Where.date .createdAt (.range none (some 86400000))).eval exactFolding (itemAt 129600000) = some true)
        ((Where.date .createdAt (.range (some 86400000) (some 172800000))).eval exactFolding
          (itemAt 129600000) = some true)
        ((Where.date .createdAt (.range (some 172800000) none)).eval exactFolding
          (itemAt 129600000) = some true) := by
  have steps : StepOffset ⟨"UTC", fun _ => 0⟩ :=
    ⟨fun t u first => absurd rfl first, fun t => by simp [DAY_MS], fun t => by simp [DAY_MS]⟩
  have plain : ∀ day, tokenDay utcIntl opsContext "1970-01-02" = some day → Plain (DATE_COLUMNS .createdAt) day := by
    intro day known
    rw [show tokenDay utcIntl opsContext "1970-01-02" = some 1 by decide] at known
    cases known
    intro _
    decide
  have resolves : utcIntl.resolve opsContext.tz = some ⟨"UTC", fun _ => 0⟩ := rfl
  have before_ : dateCondition utcIntl .createdAt opsContext ⟨.createdAt, .before, some (.str "1970-01-02")⟩ =
      .ok (.date .createdAt (.range none (some 86400000))) := rfl
  have is_ : dateCondition utcIntl .createdAt opsContext ⟨.createdAt, .is, some (.str "1970-01-02")⟩ =
      .ok (.date .createdAt (.range (some 86400000) (some 172800000))) := rfl
  have after_ : dateCondition utcIntl .createdAt opsContext ⟨.createdAt, .after, some (.str "1970-01-02")⟩ =
      .ok (.date .createdAt (.range (some 172800000) none)) := rfl
  have bounds : dateCondition utcIntl .createdAt opsContext ⟨.createdAt, .between, some (.list ["1970-01-02",
      "1970-01-04"])⟩ = .ok (.date .createdAt (.range (some 86400000) (some 345600000))) := rfl
  have last : dateCondition utcIntl .createdAt opsContext ⟨.createdAt, .after, some (.str "1970-01-04")⟩ =
      .ok (.date .createdAt (.range (some 345600000) none)) := rfl
  have value : (itemAt 129600000).date .createdAt = some 129600000 := rfl
  exact (date_conditions_tile resolves exactFolding value steps "1970-01-02" "1970-01-04" plain before_ is_ after_
    last bounds).1

end Droplet.Pm
