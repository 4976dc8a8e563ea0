import Droplet.Pm.DayTiling

/-! What the one converter means (`lib/zoned-time.ts`): the instant of a wall clock that occurs, and of one that
a change of the clock skips. The scheduler has a converter of its own (`utils/rrule.ts`). -/

namespace Droplet.ZonedTime

open Gregorian Fallible Pm

def Reads (zone : Zone) (t w : ℤ) : Prop := t + timeZoneOffsetMs zone t = w

variable {zone : Zone}

theorem reads_iff (steps : StepOffset zone) {w change a b : ℤ} (window : Window zone w change a b) (t : ℤ) :
    Reads zone t w ↔ t < change ∧ t = w - a ∨ change ≤ t ∧ t = w - b := by
  have pos := day_pos
  obtain ⟨low, high, before, after⟩ := window
  have near : ∀ u, |zone.offset u| < DAY_MS := steps.within
  unfold Reads timeZoneOffsetMs
  constructor
  · intro reads
    have within := abs_lt.mp (near t)
    rcases lt_or_ge t change with early | late
    · rw [before t (by omega) early] at reads
      exact .inl ⟨early, by omega⟩
    · rw [after t late (by omega)] at reads
      exact .inr ⟨late, by omega⟩
  · rintro (⟨early, rfl⟩ | ⟨late, rfl⟩)
    · have within := abs_lt.mp (near (change - 1))
      rw [before (change - 1) (by omega) (by omega)] at within
      rw [before (w - a) (by omega) early]
      omega
    · have within := abs_lt.mp (near change)
      rw [after change le_rfl high] at within
      rw [after (w - b) late (by omega)]
      omega

/-- The first of the instants that read the wall clock; where none does, the wall clock at the offset before
the change that jumps over it, which reads later by that jump. -/
def Denotes (zone : Zone) (t w : ℤ) : Prop :=
  IsLeast {u | Reads zone u w} t ∨ (∀ u, ¬ Reads zone u w) ∧
    ∃ change, change + zone.offset (change - 1) ≤ w ∧ w < change + zone.offset change ∧
      t = w - zone.offset (change - 1) ∧ Reads zone t (w + (zone.offset change - zone.offset (change - 1)))

theorem atWall_denotes (steps : StepOffset zone) (w : ℤ) : Denotes zone (atWall zone w) w := by
  have pos := day_pos
  obtain ⟨change, a, b, window⟩ := steps.window w
  have reads := reads_iff steps window
  rw [atWall_eq steps window]
  obtain ⟨low, high, before, after⟩ := window
  have first : zone.offset (change - 1) = a := before _ (by omega) (by omega)
  have last : zone.offset change = b := after _ le_rfl high
  by_cases jumps : change ≤ w - a ∧ w - b < change
  · right
    rw [if_neg (by omega)]
    refine ⟨?_, change, by omega, by omega, by rw [first], ?_⟩
    · intro t
      rw [reads]
      omega
    · have within := abs_lt.mp (steps.within (change - 1))
      rw [Reads, timeZoneOffsetMs, after (w - a) jumps.1 (by omega), first, last]
      omega
  · left
    constructor
    · rw [Set.mem_ofPred_eq, reads]
      split <;> omega
    · intro t member
      rw [Set.mem_ofPred_eq, reads] at member
      split <;> omega

/-- The years that `Date.UTC` takes as they are, a day before included. -/
theorem zonedWallClockToUtc_denotes (steps : StepOffset zone) (date : Date) (h mi s : ℕ)
    (clock : Valid date ∧ h < 24 ∧ mi < 60 ∧ s < 60) (years : 101 ≤ date.year ∧ date.year < 275760) :
    Denotes zone (zonedWallClockToUtc date.year date.month date.day h mi s zone)
      (toDay date * DAY_MS + h * 3600000 + mi * MINUTE_MS + s * 1000) := by
  rw [zonedWallClockToUtc_eq, dateUTC_date date clock.1 (by omega)]
  exact atWall_denotes steps _

/-- 1970-01-01 00:00:30 occurs twice. -/
theorem setBack_first : IsLeast {t | Reads setBackZone t 30000} 30000 := by
  rcases zonedWallClockToUtc_denotes setBackZone_step ⟨1970, 1, 1⟩ 0 0 30 (by decide) (by decide) with first | skipped
  · exact first
  · exact absurd rfl (skipped.1 30000)

section
variable {intl : Intl} {tz : String} (resolves : intl.resolve tz = some zone)
include resolves

/-- What a clock shows, from the year 1 on. -/
theorem localPartsOf_eq {t n wall : ℤ} {minute : ℕ} (small : minute < 1440) (low : 1 ≤ (ofDay n).year)
    (high : (ofDay n).year ≤ 9999) (reads : Reads zone t wall) (later : 1 ≤ (ofDay (wall / DAY_MS)).year) :
    (∃ weekday, localPartsOf intl t tz = .ok ⟨ymdOfUtcDate n, weekday, minute⟩) ↔
      wall / MINUTE_MS = n * 1440 + minute := by
  have positive : ¬ (ofDay (wall / DAY_MS)).year ≤ 0 := by omega
  have plain : parseYmd (ymdOfUtcDate n) = .ok (ofDay n) := parseYmd_ofDay n low high
  have split : wall / MINUTE_MS = n * 1440 + minute ↔
      wall / DAY_MS = n ∧ (wall % DAY_MS / MINUTE_MS).toNat = minute := by
    rw [DAY_MS, MINUTE_MS]
    omega
  simp only [localPartsOf, zoneFormatter, resolves, ok_bind, show t + timeZoneOffsetMs zone t = wall from reads,
    eraYear, if_neg positive, bind_ok_iff, pure_ok_iff, LocalParts.mk.injEq, split]
  constructor
  · rintro ⟨_, weekday, _, text, _, shown⟩
    refine ⟨?_, shown⟩
    by_cases far : (ofDay (wall / DAY_MS)).year ≤ 9999
    · have other := parseYmd_ofDay _ later far
      rw [text, plain] at other
      rw [← toDay_ofDay (wall / DAY_MS), ← Except.ok.inj other, toDay_ofDay]
    · exact absurd (text ▸ plain) (parseYmd_dateText_far (ofDay (wall / DAY_MS)) (by omega) _)
  · rintro ⟨rfl, shown⟩
    obtain ⟨weekday, known⟩ := isoWeekdayOf_ok _ _ plain
    exact ⟨_, weekday, known, rfl, rfl, shown⟩

/-- Minute 1440 is the midnight at the end of the day. -/
theorem zonedDateMinuteToUtc_ok_iff {n : ℤ} (late : 100 ≤ (ofDay n).year) (high : (ofDay n).year ≤ 9999)
    {minute : ℕ} (range : minute ≤ 1440) (t : ℤ) :
    zonedDateMinuteToUtc intl (ymdOfUtcDate n) minute tz = .ok t ↔
      (ofDay (n + minute / 1440)).year ≤ 9999 ∧ t = atWall zone (n * DAY_MS + minute * MINUTE_MS) := by
  have inRange : ¬ minute > 1440 := by omega
  have later := year_ofDay_mono n (n + minute / 1440) (by omega)
  have plain : parseYmd (ymdOfUtcDate n) = .ok (ofDay n) := parseYmd_ofDay n (by omega) high
  have parses : zonedDateMinuteToUtc intl (ymdOfUtcDate n) minute tz = parseYmd (ymdOfUtcDate (n + minute / 1440)) >>=
      fun date => .ok (zonedWallClockToUtc date.year date.month date.day (minute % 1440 / 60) (minute % 60) 0 zone) := by
    simp only [zonedDateMinuteToUtc, if_neg inRange, pure_bind, resolves]
    split
    next last =>
      simp only [ymdAddDays, plain, last, toDay_ofDay, ok_bind, pure_bind]
      rfl
    next other =>
      rw [show (minute / 1440 : ℤ) = 0 by omega, add_zero, Nat.mod_eq_of_lt (by omega : minute < 1440)]
      rfl
  rw [parses, ymdOfUtcDate]
  by_cases far : (ofDay (n + minute / 1440)).year ≤ 9999
  · rw [parseYmd_ofDay _ (by omega) far, ok_bind, zonedWallClockToUtc_eq, dateUTC_date _ (ofDay_valid _) (by omega),
      toDay_ofDay, and_iff_right far, Except.ok.injEq, eq_comm, iff_iff_eq]
    congr 2
    rw [DAY_MS, MINUTE_MS]
    omega
  · rw [bind_ok_iff]
    refine ⟨?_, fun found => absurd found.1 far⟩
    rintro ⟨date, parsed, _⟩
    exact absurd parsed (parseYmd_dateText_far _ (by omega) _)

theorem date_minute_reads (steps : StepOffset zone)
    (whole : ∀ t, MINUTE_MS ∣ zone.offset t - zone.offset (t - 1)) {n : ℤ} (late : 100 ≤ (ofDay n).year)
    (high : (ofDay n).year ≤ 9999) {minute : ℕ} (range : minute ≤ 1440) :
    (∃ t, zonedDateMinuteToUtc intl (ymdOfUtcDate n) minute tz = .ok t ∧ ∃ weekday, localPartsOf intl t tz =
        .ok ⟨ymdOfUtcDate (n + minute / 1440), weekday, minute % 1440⟩) ↔
      (ofDay (n + minute / 1440)).year ≤ 9999 ∧ ∃ t, Reads zone t (n * DAY_MS + minute * MINUTE_MS) := by
  simp only [zonedDateMinuteToUtc_ok_iff resolves late high range]
  generalize is : n * DAY_MS + minute * MINUTE_MS = w
  have years : ∀ k, n ≤ k → 1 ≤ (ofDay k).year := by
    intro k later
    have grows := year_ofDay_mono _ _ later
    omega
  have shift : ∃ jump, 0 ≤ jump ∧ MINUTE_MS ∣ jump ∧ Reads zone (atWall zone w) (w + jump) ∧
      ((∃ t, Reads zone t w) ↔ jump = 0) := by
    rcases atWall_denotes steps w with first | ⟨never, change, _, _, _, reads⟩
    · have occurs : ∃ t, Reads zone t w := ⟨_, first.1⟩
      exact ⟨0, le_rfl, dvd_zero _, by rw [add_zero]; exact first.1, by simp [occurs]⟩
    · exact ⟨_, by omega, whole change, reads, by simp only [never, exists_false, false_iff]; omega⟩
  obtain ⟨jump, ahead, minutes, reads, occurs⟩ := shift
  have shows : (ofDay (n + minute / 1440)).year ≤ 9999 → ((∃ weekday, localPartsOf intl (atWall zone w) tz =
      .ok ⟨ymdOfUtcDate (n + minute / 1440), weekday, minute % 1440⟩) ↔ jump = 0) := by
    intro high
    rw [DAY_MS, MINUTE_MS] at *
    rw [localPartsOf_eq resolves (Nat.mod_lt minute (by decide)) (years _ (by omega)) high reads
      (years _ (by rw [DAY_MS]; omega)), MINUTE_MS]
    omega
  rw [occurs]
  constructor
  · rintro ⟨t, ⟨high, rfl⟩, shown⟩
    exact ⟨high, (shows high).mp shown⟩
  · rintro ⟨high, same⟩
    exact ⟨_, ⟨high, rfl⟩, (shows high).mpr same⟩

end

section Scheduler

/-- `h23` prints no hour 24. -/
def zoneOffsetMs (utc : ℤ) (zone : Zone) : ℤ := zone.offset utc

/-- The fields are printed to the minute. -/
def wallClockMatches (utc : ℤ) (zone : Zone) (year : ℤ) (month day hour minute : ℕ) : Bool :=
  let wall := utc + zoneOffsetMs utc zone
  let got := ofDay (wall / DAY_MS)
  eraYear got.year = year && got.month = month + 1 && got.day = day &&
    wall % DAY_MS / 3600000 = hour && wall % 3600000 / MINUTE_MS = minute

/-- The loop of `transitionInstant`. -/
def bisect (zone : Zone) (offLo lo hi : ℤ) : ℤ :=
  if hi - lo > 60000 then
    let mid := (lo + hi) / 2 / 60000 * 60000
    if mid ≤ lo then hi
    else if zoneOffsetMs mid zone = offLo then bisect zone offLo mid hi
    else bisect zone offLo lo mid
  else hi
termination_by (hi - lo).toNat

def transitionInstant (a b : ℤ) (zone : Zone) : ℤ :=
  bisect zone (zoneOffsetMs (min a b) zone) (min a b) (max a b)

/-- `month` counts from 0. -/
def localWallClockToUtc (year : ℤ) (month day hour minute second : ℕ) (zone : Zone) : ℤ :=
  let naiveMs := dateUTC year (month + 1) day hour minute second
  let utcMs1 := naiveMs - zoneOffsetMs naiveMs zone
  let utcMs2 := naiveMs - zoneOffsetMs utcMs1 zone
  if wallClockMatches utcMs2 zone year month day hour minute then utcMs2
  else transitionInstant utcMs1 utcMs2 zone

theorem reads_atWall (steps : StepOffset zone) {w : ℤ} (occurs : ∃ t, Reads zone t w) :
    Reads zone (atWall zone w) w := by
  obtain ⟨t, reads⟩ := occurs
  rcases atWall_denotes steps w with first | skipped
  · exact first.1
  · exact absurd reads (skipped.1 t)

/-- Two corrections find the instant of a wall clock that occurs once. -/
theorem corrected_twice (steps : StepOffset zone) {w : ℤ} (once : ∃! t, Reads zone t w) :
    w - zone.offset (w - zone.offset w) = atWall zone w := by
  obtain ⟨change, a, b, window⟩ := steps.window w
  have reads := reads_iff steps window
  rw [atWall_eq steps window]
  obtain ⟨low, high, before, after⟩ := window
  have smallA := abs_lt.mp (before (w - DAY_MS) le_rfl low ▸ steps.within (w - DAY_MS))
  have smallB := abs_lt.mp (after (w + DAY_MS) high le_rfl ▸ steps.within (w + DAY_MS))
  obtain ⟨t, at_, unique⟩ := once
  have one : w - a < change ↔ w - b < change := by
    constructor
    · intro early
      by_contra late
      have first := unique (w - a) ((reads _).mpr (.inl ⟨early, rfl⟩))
      have second := unique (w - b) ((reads _).mpr (.inr ⟨by omega, rfl⟩))
      omega
    · intro early
      have is := (reads t).mp at_
      omega
  have first : ∀ u, w - DAY_MS ≤ u → u ≤ w + DAY_MS → zone.offset u = if u < change then a else b := by
    intro u above below
    split
    · exact before u above (by assumption)
    · exact after u (by omega) below
  have pos := day_pos
  rw [first w (by omega) (by omega)]
  split <;> rw [first _ (by omega) (by omega)] <;> split <;> split <;> omega

theorem matches_reading {date : Date} (valid : Valid date) (positive : 1 ≤ date.year) {h mi s : ℕ}
    (clock : h < 24 ∧ mi < 60 ∧ s < 60) {t : ℤ}
    (reads : Reads zone t (toDay date * DAY_MS + h * 3600000 + mi * MINUTE_MS + s * 1000)) :
    wallClockMatches t zone date.year (date.month - 1) date.day h mi = true := by
  have month : date.month - 1 + 1 = date.month := Nat.sub_add_cancel valid.1
  have shown : t + zoneOffsetMs t zone = toDay date * DAY_MS + h * 3600000 + mi * MINUTE_MS + s * 1000 := reads
  rw [DAY_MS, MINUTE_MS] at shown
  have day : (t + zoneOffsetMs t zone) / DAY_MS = toDay date := by
    rw [DAY_MS]
    omega
  simp only [wallClockMatches, day, ofDay_toDay date valid, eraYear, if_neg (show ¬ date.year ≤ 0 by omega), month,
    decide_true, Bool.true_and, Bool.and_eq_true, decide_eq_true_eq]
  rw [DAY_MS, MINUTE_MS]
  omega

theorem localWallClockToUtc_eq (steps : StepOffset zone) {date : Date} (valid : Valid date) (late : 101 ≤ date.year)
    {h mi s : ℕ} (clock : h < 24 ∧ mi < 60 ∧ s < 60)
    (once : ∃! t, Reads zone t (toDay date * DAY_MS + h * 3600000 + mi * MINUTE_MS + s * 1000)) :
    localWallClockToUtc date.year (date.month - 1) date.day h mi s zone =
      zonedWallClockToUtc date.year date.month date.day h mi s zone := by
  have month : date.month - 1 + 1 = date.month := Nat.sub_add_cancel valid.1
  have twice := corrected_twice steps once
  have reads := reads_atWall steps once.exists
  rw [zonedWallClockToUtc_eq, localWallClockToUtc, month, dateUTC_date date valid (by omega)]
  simp only [zoneOffsetMs, twice, matches_reading valid (by omega) clock reads, if_true]

end Scheduler

/-- From the year 101 on, the two converters and the texts of dates mean the same instants. -/
theorem converters_agree (steps : StepOffset zone) {date : Date} (valid : Valid date)
    (years : 101 ≤ date.year ∧ date.year < 275760) :
    (∀ h mi s : ℕ, h < 24 ∧ mi < 60 ∧ s < 60 →
      let wall := toDay date * DAY_MS + h * 3600000 + mi * MINUTE_MS + s * 1000
      Denotes zone (zonedWallClockToUtc date.year date.month date.day h mi s zone) wall ∧
        ((∃! t, Reads zone t wall) → localWallClockToUtc date.year (date.month - 1) date.day h mi s zone =
          zonedWallClockToUtc date.year date.month date.day h mi s zone)) ∧
    (∀ (intl : Intl) (tz : String), intl.resolve tz = some zone → date.year ≤ 9999 →
      (∀ t, MINUTE_MS ∣ zone.offset t - zone.offset (t - 1)) → ∀ minute ≤ 1440,
        ((∃ t, zonedDateMinuteToUtc intl (ymdOfUtcDate (toDay date)) minute tz = .ok t ∧
            ∃ weekday, localPartsOf intl t tz =
              .ok ⟨ymdOfUtcDate (toDay date + minute / 1440), weekday, minute % 1440⟩) ↔
          (ofDay (toDay date + minute / 1440)).year ≤ 9999 ∧
            ∃ t, Reads zone t (toDay date * DAY_MS + minute * MINUTE_MS))) := by
  constructor
  · intro h mi s clock
    refine ⟨?_, localWallClockToUtc_eq steps valid years.1 clock⟩
    rw [zonedWallClockToUtc_eq, dateUTC_date date valid (by omega)]
    exact atWall_denotes steps _
  · intro intl tz resolves high whole minute range
    have same : (ofDay (toDay date)).year = date.year := by rw [ofDay_toDay date valid]
    exact date_minute_reads resolves steps whole (by omega) (by omega) range

/-- 00:00:30 of the first day occurs twice, and noon just once. -/
theorem noon_is_one_instant : localWallClockToUtc 1970 0 1 12 0 0 setBackZone = 46800000 := by
  refine ((@converters_agree setBackZone setBackZone_step ⟨1970, 1, 1⟩ (by decide) (by decide)).1 12 0 0 (by decide)).2
    ⟨46800000, rfl, ?_⟩
  intro t reads
  have first : toDay ⟨1970, 1, 1⟩ = 0 := by decide
  simp only [Reads, timeZoneOffsetMs, setBackZone, first, DAY_MS, MINUTE_MS] at reads
  split at reads <;> omega

/-- The clock is set forward by half a minute at the epoch. -/
def halfMinuteZone : Zone := ⟨"Half", fun t => if t < 0 then 0 else 30000⟩

/-- The year 50 is taken for 1950, and a jump within a minute is not seen in a date and a minute. -/
theorem year_fifty_is_another :
    ¬ Denotes setBackZone (zonedWallClockToUtc 50 1 1 0 0 0 setBackZone) (toDay ⟨50, 1, 1⟩ * DAY_MS) ∧
      ¬ ((∃ t, zonedDateMinuteToUtc (Intl.only halfMinuteZone (by decide)) (ymdOfUtcDate 0) 0 "Half" = .ok t ∧
          ∃ weekday, localPartsOf (Intl.only halfMinuteZone (by decide)) t "Half" = .ok ⟨ymdOfUtcDate 0, weekday, 0⟩) →
        ∃ t, Reads halfMinuteZone t 0) := by
  constructor
  · intro denotes
    have far : zonedWallClockToUtc 50 1 1 0 0 0 setBackZone = -631152000000 := by decide
    have day : toDay ⟨50, 1, 1⟩ * DAY_MS = -60589296000000 := by decide
    rw [far, day] at denotes
    rcases denotes with first | ⟨-, change, _, _, is, _⟩
    · exact absurd (show -631152000000 + setBackZone.offset (-631152000000) = -60589296000000 from first.1)
        (by decide)
    · have within := abs_lt.mp (setBackZone_step.within (change - 1))
      rw [DAY_MS] at within
      omega
  · intro occurs
    obtain ⟨t, reads⟩ := occurs ⟨0, rfl, _, rfl⟩
    simp only [Reads, timeZoneOffsetMs, halfMinuteZone] at reads
    split at reads <;> omega

end Droplet.ZonedTime
