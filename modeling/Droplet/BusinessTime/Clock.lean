import Droplet.CalendarText
import Droplet.BusinessTime.Operations

/-! Clocks that only go forward, and that a zone with one offset has such a clock. -/

namespace Droplet.BusinessTime

open ZonedTime Gregorian Fallible

variable (intl : Intl)

/-- From day `lo` on the wall clock conversion is strictly increasing in day and minute,
and for instants from `floor` on it agrees with `localPartsOf`: an instant up to one of
the clock has a local day, and the midnights it has reached are those of the days up
to that one. -/
structure StrictClock (c : Compiled) (lo floor : ℤ) : Prop where
  strict : ∀ n m s r x y, lo ≤ n → s < 1440 → r < 1440 → (n < m ∨ n = m ∧ s < r) →
    instantAt intl c n s = .ok x → instantAt intl c m r = .ok y → x < y
  dated : ∀ t n s y, floor ≤ t → lo ≤ n → s < 1440 → instantAt intl c n s = .ok y → t ≤ y →
    ∃ k, localDay intl c t = .ok k
  agrees : ∀ t k, floor ≤ t → localDay intl c t = .ok k → lo < k ∧
    (∃ x, instantAt intl c k 0 = .ok x) ∧
    ∀ n y, lo ≤ n → instantAt intl c n 0 = .ok y → (y ≤ t ↔ n ≤ k)

/-- A calendar whose clock is strict for instants from `floor` on. -/
def Regular (calendar : Option BusinessCalendar) (floor : ℤ) : Prop :=
  ∀ cal, calendar = some cal → ∀ c, compile intl cal = .ok c → ∃ lo, StrictClock intl c lo floor

theorem ymdOfDay_eq (n : ℤ) (low : 0 ≤ (ofDay n).year) (high : (ofDay n).year ≤ 9999) :
    ymdOfDay n = .ok (dateText (ofDay n)) := by
  obtain ⟨month, day⟩ := valid_small (ofDay n) (ofDay_valid n)
  have top := ofDay_le n high
  have bottom : -719528 ≤ n := by
    by_contra early
    have before := yearOf_spec n
    have first : daysBeforeYear 0 = -719528 := by decide
    have later := daysBeforeYear_strictMono.monotone (show 0 ≤ yearOf n from low)
    omega
  have range : ¬ (n < -100000000 ∨ n > 100000000) := by omega
  have year : 0 ≤ (ofDay n).year ∧ (ofDay n).year ≤ 9999 := ⟨by omega, high⟩
  rw [ymdOfDay, if_neg range, dateText_eq _ (ofDay_valid n) (by omega) high]
  simp only [isoDateText, if_pos year, pad2, Decimal.pad_eq_fixed 3 (ofDay n).year.natAbs (by omega),
    Decimal.pad_eq_fixed 1 _ month, Decimal.pad_eq_fixed 1 _ day, ymdText]
  rw [List.take_of_length_le]
  simp

theorem ymdOfDay_parse (n : ℤ) (ymd : String) (date : Date) (text : ymdOfDay n = .ok ymd)
    (parsed : parseYmd ymd = .ok date) : date = ofDay n ∧ (ofDay n).year ≤ 9999 := by
  by_cases plain : 0 ≤ (ofDay n).year ∧ (ofDay n).year ≤ 9999
  · rw [ymdOfDay_eq n plain.1 plain.2] at text
    obtain rfl := Except.ok.inj text
    refine ⟨?_, plain.2⟩
    by_cases low : 1 ≤ (ofDay n).year
    · rw [parseYmd_ofDay n low plain.2] at parsed
      exact (Except.ok.inj parsed).symm
    · obtain ⟨month, day⟩ := valid_small (ofDay n) (ofDay_valid n)
      have known := (parseYmd_valid _ _ parsed).2.1
      rw [dateText_eq _ (ofDay_valid n) plain.1 plain.2, parseYmd,
        matchYmd_ymdText _ _ _ (by omega) month day] at parsed
      dsimp only at parsed
      split at parsed
      · obtain rfl := Except.ok.inj parsed
        simp only at known
        omega
      · cases parsed
  · exfalso
    unfold ymdOfDay at text
    split at text
    · cases text
    · obtain rfl := Except.ok.inj text
      simp only [isoDateText, if_neg plain] at parsed
      unfold parseYmd at parsed
      split at parsed
      · cases parsed
      · rename_i y mo d matched
        have digit := matchYmd_head _ _ (if (ofDay n).year < 0 then '-' else '+') _
          (by rw [String.toList_ofList]; rfl) matched
        split at digit <;> exact absurd digit (by decide)

theorem zonedWallClockToUtc_fixed (name : String) (offset y : ℤ) (mo d h mi s : ℕ) :
    zonedWallClockToUtc y mo d h mi s ⟨name, fun _ => offset⟩ =
      dateUTC y mo d h mi s - offset := by
  have once : [offset, offset].eraseDups = [offset] := by
    simp [List.eraseDups_cons]
  simp [zonedWallClockToUtc, timeZoneOffsetMs, once]

section FixedOffset

variable {intl} {c : Compiled} {name : String} {offset : ℤ}

/-- The first day of the year 100; `Date.UTC` takes the years before it for others. -/
def year100 : ℤ := daysBeforeYear 100

theorem dateUTC_ofDay (n : ℤ) (minute : ℕ) (late : year100 ≤ n) :
    dateUTC (ofDay n).year (ofDay n).month (ofDay n).day (minute / 60) (minute % 60) 0 =
      n * DAY_MS + minute * MINUTE_MS := by
  have year := le_year_ofDay 100 n late
  rw [dateUTC_date (ofDay n) (ofDay_valid n) year, toDay_ofDay]
  simp only [DAY_MS, MINUTE_MS]
  omega

section

variable (zone : intl.resolve c.tz = some ⟨name, fun _ => offset⟩)
include zone

theorem instantAt_fixed (n : ℤ) (minute : ℕ) (x : ℤ) (late : year100 ≤ n) (small : minute < 1440) :
    instantAt intl c n minute = .ok x ↔
      (ofDay n).year ≤ 9999 ∧ x = n * DAY_MS + minute * MINUTE_MS - offset := by
  have year := le_year_ofDay 100 n late
  have early : ¬ minute ≥ 1440 := by omega
  have inRange : ¬ minute > 1440 := by omega
  have notMidnight : ¬ minute = 1440 := by omega
  have value := dateUTC_ofDay n minute late
  simp only [instantAt, if_neg early, zonedDateMinuteToUtc, if_neg inRange, if_neg notMidnight,
    zone, pure_bind]
  constructor
  · intro returns
    obtain ⟨ymd, text, returns⟩ := bind_ok_iff.mp returns
    obtain ⟨date, parsed, returns⟩ := bind_ok_iff.mp returns
    obtain ⟨rfl, high⟩ := ymdOfDay_parse n ymd date text parsed
    rw [pure_ok_iff, zonedWallClockToUtc_fixed, value] at returns
    exact ⟨high, returns.symm⟩
  · intro found
    rw [ymdOfDay_eq n (by omega) found.1, ok_bind, parseYmd_ofDay n (by omega) found.1, ok_bind,
      pure_ok_iff, zonedWallClockToUtc_fixed, value]
    exact found.2.symm

theorem localDay_fixed (t k : ℤ) (late : year100 ≤ (t + offset) / DAY_MS) :
    localDay intl c t = .ok k ↔
      (ofDay ((t + offset) / DAY_MS)).year ≤ 9999 ∧ k = (t + offset) / DAY_MS := by
  have year := le_year_ofDay 100 _ late
  have era : ({ ofDay ((t + offset) / DAY_MS) with
      year := eraYear (ofDay ((t + offset) / DAY_MS)).year } : Date) =
      ofDay ((t + offset) / DAY_MS) := by
    have positive : ¬ (ofDay ((t + offset) / DAY_MS)).year ≤ 0 := by omega
    simp only [eraYear, if_neg positive]
  simp only [localDay, localPartsOf, zoneFormatter, zone, timeZoneOffsetMs, ok_bind, era]
  constructor
  · intro returns
    obtain ⟨parts, partsOk, returns⟩ := bind_ok_iff.mp returns
    obtain ⟨weekday, _, partsOk⟩ := bind_ok_iff.mp partsOk
    rw [pure_ok_iff] at partsOk
    subst partsOk
    simp only [dayNumberOf] at returns
    obtain ⟨date, parsed, returns⟩ := bind_ok_iff.mp returns
    by_cases high : (ofDay ((t + offset) / DAY_MS)).year ≤ 9999
    · have plain := parseYmd_ofDay _ (by omega) high
      rw [plain] at parsed
      obtain rfl := Except.ok.inj parsed
      rw [pure_ok_iff, toDay_ofDay] at returns
      exact ⟨high, returns.symm⟩
    · exact (parseYmd_dateText_far _ (by omega) date parsed).elim
  · intro found
    have plain := parseYmd_ofDay _ (by omega) found.1
    obtain ⟨weekday, weekdayOk⟩ := isoWeekdayOf_ok _ _ plain
    rw [weekdayOk, ok_bind, pure_bind, dayNumberOf, plain, ok_bind, pure_ok_iff, toDay_ofDay]
    exact found.2.symm

theorem strictClock_fixed : StrictClock intl c year100 ((year100 + 1) * DAY_MS - offset) := by
  have day : DAY_MS = 86400000 := rfl
  have minute : MINUTE_MS = 60000 := rfl
  have local_late : ∀ t, (year100 + 1) * DAY_MS - offset ≤ t → year100 + 1 ≤ (t + offset) / DAY_MS := by
    intro t after
    rw [day] at *
    omega
  constructor
  · intro n m s r x y late small little before first second
    have later : year100 ≤ m := by omega
    have left := ((instantAt_fixed zone n s x late small).mp first).2
    have right := ((instantAt_fixed zone m r y later little).mp second).2
    rw [day, minute] at *
    omega
  · intro t n s y after late small clockAt early
    have placed := local_late t after
    have found := (instantAt_fixed zone n s y late small).mp clockAt
    have upTo : (t + offset) / DAY_MS ≤ n := by
      rw [day, minute] at *
      omega
    have year := year_ofDay_mono _ _ upTo
    exact ⟨_, (localDay_fixed zone t _ (by omega)).mpr ⟨by omega, rfl⟩⟩
  · intro t k after dated
    have placed := local_late t after
    obtain ⟨year, rfl⟩ := (localDay_fixed zone t k (by omega)).mp dated
    refine ⟨by omega, ⟨_, (instantAt_fixed zone _ 0 _ (by omega) (by decide)).mpr ⟨year, rfl⟩⟩, ?_⟩
    intro n y late clockAt
    have found := ((instantAt_fixed zone n 0 y late (by decide)).mp clockAt).2
    rw [day] at *
    omega

end

end FixedOffset

end Droplet.BusinessTime
