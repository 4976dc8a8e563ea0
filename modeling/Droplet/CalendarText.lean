import Droplet.Lib.Fallible
import Droplet.ZonedTime

/-! Calendar dates as text: a date from year 1 to year 9999 reads back as itself, and no
other date reads back at all. -/

namespace Droplet.ZonedTime

open Gregorian Decimal Fallible

def ymdText (y m d : ℕ) : List Char := fixed 4 y ++ '-' :: fixed 2 m ++ '-' :: fixed 2 d

theorem all_isDigit_fixed (width n : ℕ) : (fixed width n).all Char.isDigit = true := by
  rw [List.all_eq_true]
  exact fixed_isDigit width n

theorem matchYmd_ymdText (y m d : ℕ) (year : y < 10000) (month : m < 100) (day : d < 100) :
    matchYmd (String.ofList (ymdText y m d)) = some (y, m, d) := by
  have digits := all_isDigit_fixed 4 y
  have digitsM := all_isDigit_fixed 2 m
  have digitsD := all_isDigit_fixed 2 d
  have readY := value_fixed 4 y year
  have readM := value_fixed 2 m month
  have readD := value_fixed 2 d day
  simp only [ymdText, matchYmd, String.toList_ofList]
  simp only [fixed, List.nil_append, List.cons_append, List.all_cons, List.all_nil, Bool.and_true,
    Bool.and_eq_true] at digits digitsM digitsD readY readM readD ⊢
  simp only [digits, digitsM, digitsD, readY, readM, readD, and_self, if_true]

theorem ymdText_lt (y m d y' m' d' : ℕ) (year : y < 10000) (month : m < 100) (day : d < 100)
    (yearToo : y' < 10000) (monthToo : m' < 100) (dayToo : d' < 100) :
    ymdText y m d < ymdText y' m' d' ↔ y < y' ∨ y = y' ∧ (m < m' ∨ m = m' ∧ d < d') := by
  have dash : ∀ n n' : ℕ, n < 100 → n' < 100 → ('-' :: fixed 2 n < '-' :: fixed 2 n' ↔ n < n') := by
    intro n n' small smallToo
    rw [List.cons_lt_cons_iff, fixed_lt 2 n n' small smallToo]
    simp
  have dashes : '-' :: fixed 2 m = '-' :: fixed 2 m' ↔ m = m' := by
    rw [List.cons.injEq, fixed_inj 2 m m' month monthToo]
    simp
  simp only [ymdText, List.append_assoc]
  rw [append_lt_append _ _ _ _ (by simp), append_lt_append _ _ _ _ (by simp),
    fixed_lt 4 y y' year yearToo, fixed_inj 4 y y' year yearToo, dash m m' month monthToo,
    dash d d' day dayToo, dashes]

theorem matchYmd_length (text : String) (parsed : ℕ × ℕ × ℕ) (matched : matchYmd text = some parsed) :
    text.toList.length = 10 := by
  unfold matchYmd at matched
  split at matched
  · next letters => simp [letters]
  · cases matched

theorem matchYmd_head (text : String) (parsed : ℕ × ℕ × ℕ) (c : Char) (rest : List Char)
    (letters : text.toList = c :: rest) (matched : matchYmd text = some parsed) : c.isDigit = true := by
  unfold matchYmd at matched
  rw [letters] at matched
  split at matched
  · next shape =>
    obtain ⟨rfl, _⟩ := List.cons.inj shape
    split at matched
    · next digits => simp_all
    · cases matched
  · cases matched

variable (date : Date)

theorem valid_small (valid : Valid date) : date.month < 100 ∧ date.day < 100 := by
  obtain ⟨low, high, day, month⟩ := valid
  have inMonth := daysInMonth_le (isLeap date.year) date.month low high
  omega

theorem dateText_eq (valid : Valid date) (low : 0 ≤ date.year) (high : date.year ≤ 9999) :
    dateText date = String.ofList (ymdText date.year.natAbs date.month date.day) := by
  obtain ⟨month, day⟩ := valid_small date valid
  have notNegative : ¬ date.year < 0 := by omega
  have year : padStart 4 (integerText date.year) = fixed 4 date.year.natAbs := by
    rw [integerText, if_neg notNegative]
    exact pad_eq_fixed 3 date.year.natAbs (by omega)
  rw [dateText, ymdText, year, pad2, pad2, pad_eq_fixed 1 date.month month, pad_eq_fixed 1 date.day day]

theorem parseYmd_dateText (valid : Valid date) (low : 1 ≤ date.year) (high : date.year ≤ 9999) :
    parseYmd (dateText date) = .ok date := by
  obtain ⟨month, day⟩ := valid_small date valid
  have matched : matchYmd (dateText date) = some (date.year.natAbs, date.month, date.day) := by
    rw [dateText_eq date valid (by omega) high]
    exact matchYmd_ymdText _ _ _ (by omega) month day
  have year : ((date.year.natAbs : ℕ) : ℤ) = date.year := by omega
  have inMonth := daysInMonth_le (isLeap date.year) date.month valid.1 valid.2.1
  have range : ¬ (date.year.natAbs < 1 ∨ date.month < 1 ∨ date.month > 12 ∨ date.day < 1 ∨
      date.day > 31) := by
    obtain ⟨_, _, _, _⟩ := valid
    omega
  have calendar : isCalendarYmd (dateText date) = true := by
    simp only [isCalendarYmd, matched, if_neg range, year, ymdOfUtcDate, beq_iff_eq]
    rw [ofDay_toDay date valid]
  simp only [parseYmd, matched, calendar, if_true, year]

theorem parseYmd_dateText_far (far : 10000 ≤ date.year) (result : Date) :
    parseYmd (dateText date) ≠ .ok result := by
  intro parsed
  unfold parseYmd at parsed
  split at parsed
  · cases parsed
  · next y mo d matched =>
    have length := matchYmd_length _ _ matched
    have digits : 5 ≤ (Nat.toDigits 10 date.year.natAbs).length := by
      by_contra short
      have small := (Nat.length_toDigits_le_iff (by decide : 1 < 10) (by decide : 0 < 4)).mp
        (by omega : (Nat.toDigits 10 date.year.natAbs).length ≤ 4)
      omega
    have two : ∀ n, 2 ≤ (pad2 n).length := by
      intro n
      simp only [pad2, pad, padStart, List.length_append, List.length_replicate]
      omega
    have month := two date.month
    have day := two date.day
    have notNegative : ¬ date.year < 0 := by omega
    simp only [dateText, integerText, if_neg notNegative, padStart, String.toList_ofList,
      List.length_append, List.length_replicate, List.length_cons] at length
    omega

theorem year_ofDay_mono (n m : ℤ) (order : n ≤ m) : (ofDay n).year ≤ (ofDay m).year := by
  have low := yearOf_spec n
  have high := yearOf_spec m
  have years : daysBeforeYear (yearOf n) < daysBeforeYear (yearOf m + 1) := by omega
  have less := daysBeforeYear_strictMono.lt_iff_lt.mp years
  simp only [ofDay]
  omega

/-- `Date.UTC` of a date from the year 100 on is its day number, and the time on that day. -/
theorem dateUTC_date (valid : Valid date) (late : 100 ≤ date.year) (h mi s : ℕ) :
    dateUTC date.year date.month date.day h mi s =
      toDay date * DAY_MS + (h : ℤ) * 3600000 + (mi : ℤ) * MINUTE_MS + (s : ℤ) * 1000 := by
  obtain ⟨low, high, _⟩ := valid
  have plain : ¬ (0 ≤ date.year ∧ date.year ≤ 99) := by omega
  have years : ((date.month : ℤ) - 1) / 12 = 0 := by omega
  have month : (((date.month : ℤ) - 1) % 12).toNat + 1 = date.month := by omega
  simp only [dateUTC, if_neg plain, years, month, add_zero]

theorem le_year_ofDay (year n : ℤ) (from_start : daysBeforeYear year ≤ n) : year ≤ (ofDay n).year := by
  have spec := yearOf_spec n
  have years : daysBeforeYear year < daysBeforeYear (yearOf n + 1) := by omega
  have less := daysBeforeYear_strictMono.lt_iff_lt.mp years
  simp only [ofDay]
  omega

theorem ofDay_le (n : ℤ) (year : (ofDay n).year ≤ 9999) : n ≤ 2932896 := by
  have spec := yearOf_spec n
  have years : daysBeforeYear (yearOf n + 1) ≤ daysBeforeYear 10000 := by
    apply daysBeforeYear_strictMono.monotone
    simp only [ofDay] at year
    omega
  have last : daysBeforeYear 10000 = 2932897 := by decide
  omega

theorem parseYmd_ofDay (n : ℤ) (low : 1 ≤ (ofDay n).year) (high : (ofDay n).year ≤ 9999) :
    parseYmd (dateText (ofDay n)) = .ok (ofDay n) :=
  parseYmd_dateText (ofDay n) (ofDay_valid n) low high

theorem parseYmd_valid (ymd : String) (date : Date) (parsed : parseYmd ymd = .ok date) :
    Valid date ∧ 1 ≤ date.year ∧ date.year ≤ 9999 := by
  have found := parsed
  unfold parseYmd at found
  split at found
  · cases found
  · next y mo d matched =>
    split at found
    · next calendar =>
      simp only [isCalendarYmd, matched] at calendar
      split at calendar
      · cases calendar
      · next range =>
        have same : dateText (ofDay (toDay ⟨y, mo, d⟩)) = ymd := by
          simpa [ymdOfUtcDate] using calendar
        have low : 1 ≤ (ofDay (toDay ⟨y, mo, d⟩)).year := by
          apply le_year_ofDay
          have years := daysBeforeYear_strictMono.monotone (by omega : (1 : ℤ) ≤ y)
          have months := daysBeforeMonth_bounds (isLeap y) mo
          simp only [toDay]
          omega
        have high : (ofDay (toDay ⟨y, mo, d⟩)).year ≤ 9999 := by
          by_contra far
          rw [← same] at parsed
          exact parseYmd_dateText_far _ (by omega) date parsed
        rw [← same, parseYmd_ofDay _ low high] at parsed
        obtain rfl := Except.ok.inj parsed
        exact ⟨ofDay_valid _, low, high⟩
    · cases found

theorem isoWeekdayOf_ok (ymd : String) (date : Date) (parsed : parseYmd ymd = .ok date) :
    ∃ weekday, isoWeekdayOf ymd = .ok weekday := by
  refine ⟨if ((toDay date + 4) % 7).toNat = 0 then 7 else ((toDay date + 4) % 7).toNat, ?_⟩
  simp only [isoWeekdayOf, parsed, ok_bind]
  rfl

end Droplet.ZonedTime
