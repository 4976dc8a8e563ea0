import Droplet.CalendarText

/-! Instants as `Date.prototype.toISOString` writes them: one text for each instant of the
range of `Date`, and the instant can be read off it. -/

namespace Droplet.IsoText

open Gregorian Decimal ZonedTime

/-- The instants a `Date` can hold. -/
def MAX_TIME : ℤ := 8640000000000000

/-- Four digits, or a sign and six. -/
def yearText (year : ℤ) : List Char :=
  if 0 ≤ year ∧ year ≤ 9999 then fixed 4 year.natAbs
  else if year < 0 then '-' :: fixed 6 year.natAbs
  else '+' :: fixed 6 year.natAbs

def dayText (date : Date) : List Char :=
  '-' :: fixed 2 date.month ++ '-' :: fixed 2 date.day

def timeText (ms : ℕ) : List Char :=
  'T' :: fixed 2 (ms / 3600000) ++ ':' :: fixed 2 (ms / 60000 % 60) ++
    ':' :: fixed 2 (ms / 1000 % 60) ++ '.' :: fixed 3 (ms % 1000) ++ ['Z']

def dayOf (instant : ℤ) : ℤ := instant / DAY_MS

def isoText (instant : ℤ) : List Char :=
  yearText (ofDay (dayOf instant)).year ++ dayText (ofDay (dayOf instant)) ++
    timeText (instant % DAY_MS).toNat

/-- `none` where it throws: outside the range the date is invalid. -/
def toISOString (instant : ℤ) : Option String :=
  if |instant| ≤ MAX_TIME then some (String.ofList (isoText instant)) else none

theorem year_bounds (instant : ℤ) (inside : |instant| ≤ MAX_TIME) :
    (ofDay (dayOf instant)).year.natAbs < 10 ^ 6 := by
  obtain ⟨low, high⟩ := abs_le.mp inside
  simp only [MAX_TIME] at low high
  have first := year_ofDay_mono (-100000000) (dayOf instant) (by simp only [dayOf, DAY_MS]; omega)
  have last := year_ofDay_mono (dayOf instant) 100000000 (by simp only [dayOf, DAY_MS]; omega)
  have start : (ofDay (-100000000)).year = -271821 := by decide
  have stop : (ofDay 100000000).year = 275760 := by decide
  omega

theorem fixed_ne_cons (width n : ℕ) (c : Char) (rest : List Char) (sign : c.isDigit = false) :
    fixed width n ≠ c :: rest := by
  intro same
  have digit := fixed_isDigit width n c (same ▸ List.mem_cons_self)
  rw [sign] at digit
  cases digit

theorem yearText_inj (year other : ℤ) (small : year.natAbs < 10 ^ 6) (smallToo : other.natAbs < 10 ^ 6)
    (same : yearText year = yearText other) : year = other := by
  unfold yearText at same
  split at same
  · split at same
    · have digits := (fixed_inj 4 _ _ (by omega) (by omega)).mp same
      omega
    · split at same
      all_goals exact absurd same (fixed_ne_cons _ _ _ _ (by decide))
  · split at same
    · split at same
      · exact absurd same.symm (fixed_ne_cons _ _ _ _ (by decide))
      · split at same
        · have digits := (fixed_inj 6 _ _ small smallToo).mp (List.cons.inj same).2
          omega
        · exact absurd (List.cons.inj same).1 (by decide)
    · split at same
      · exact absurd same.symm (fixed_ne_cons _ _ _ _ (by decide))
      · split at same
        · exact absurd (List.cons.inj same).1 (by decide)
        · have digits := (fixed_inj 6 _ _ small smallToo).mp (List.cons.inj same).2
          omega

theorem dayText_length (date : Date) : (dayText date).length = 6 := by simp [dayText]

theorem timeText_length (ms : ℕ) : (timeText ms).length = 14 := by simp [timeText]

theorem dayText_inj (date other : Date) (valid : Valid date) (validToo : Valid other)
    (same : dayText date = dayText other) : date.month = other.month ∧ date.day = other.day := by
  obtain ⟨month, day⟩ := valid_small date valid
  obtain ⟨monthToo, dayToo⟩ := valid_small other validToo
  obtain ⟨months, days⟩ := List.append_inj same (by simp)
  exact ⟨(fixed_inj 2 _ _ month monthToo).mp (List.cons.inj months).2,
    (fixed_inj 2 _ _ day dayToo).mp (List.cons.inj days).2⟩

theorem timeText_inj (ms other : ℕ) (small : ms < 86400000) (smallToo : other < 86400000)
    (same : timeText ms = timeText other) : ms = other := by
  simp only [timeText] at same
  obtain ⟨same, _⟩ := List.append_inj same (by simp)
  obtain ⟨same, millis⟩ := List.append_inj same (by simp)
  obtain ⟨same, seconds⟩ := List.append_inj same (by simp)
  obtain ⟨hours, minutes⟩ := List.append_inj same (by simp)
  have hour := (fixed_inj 2 _ _ (by omega) (by omega)).mp (List.cons.inj hours).2
  have minute := (fixed_inj 2 _ _ (by omega) (by omega)).mp (List.cons.inj minutes).2
  have second := (fixed_inj 2 _ _ (by omega) (by omega)).mp (List.cons.inj seconds).2
  have milli := (fixed_inj 3 _ _ (by omega) (by omega)).mp (List.cons.inj millis).2
  omega

theorem toISOString_inj (instant other : ℤ) (text : String) (first : toISOString instant = some text)
    (second : toISOString other = some text) : instant = other := by
  unfold toISOString at first second
  split at first
  · next inside =>
    split at second
    · next insideToo =>
      have same : isoText instant = isoText other := by
        apply String.ofList_injective
        exact Option.some.inj (first.trans second.symm)
      obtain ⟨dates, times⟩ := List.append_inj' same (by simp [timeText_length])
      obtain ⟨years, days⟩ := List.append_inj' dates (by simp [dayText_length])
      have year := yearText_inj _ _ (year_bounds instant inside) (year_bounds other insideToo) years
      obtain ⟨month, day⟩ := dayText_inj _ _ (ofDay_valid _) (ofDay_valid _) days
      have date : ofDay (dayOf instant) = ofDay (dayOf other) := by
        cases left : ofDay (dayOf instant)
        cases right : ofDay (dayOf other)
        simp_all
      have number := congrArg toDay date
      rw [toDay_ofDay, toDay_ofDay] at number
      have time := timeText_inj _ _ (by simp only [DAY_MS]; omega) (by simp only [DAY_MS]; omega) times
      simp only [dayOf, DAY_MS] at number time
      omega
    · cases second
  · cases first

def readYear : List Char → ℤ
  | '-' :: digits => -(value digits : ℤ)
  | '+' :: digits => value digits
  | digits => value digits

/-- The instant that a text in the form of `toISOString` stands for, from the places of its digits. -/
def readIso (text : List Char) : ℤ :=
  let body := text.drop (text.length - 20)
  let number (start width : ℕ) : ℕ := value ((body.drop start).take width)
  DAY_MS * toDay ⟨readYear (text.take (text.length - 20)), number 1 2, number 4 2⟩ +
    (number 7 2 * 3600000 + number 10 2 * 60000 + number 13 2 * 1000 + number 16 3 : ℕ)

theorem readYear_yearText (year : ℤ) (small : year.natAbs < 10 ^ 6) : readYear (yearText year) = year := by
  unfold yearText
  split
  next range =>
    have plain : readYear (fixed 4 year.natAbs) = value (fixed 4 year.natAbs) := by
      unfold readYear
      split
      next digits same => exact absurd same (fixed_ne_cons _ _ _ _ (by decide))
      next digits same => exact absurd same (fixed_ne_cons _ _ _ _ (by decide))
      next => rfl
    rw [plain, value_fixed 4 _ (by omega)]
    omega
  next =>
    split
    all_goals
      rw [readYear, value_fixed 6 _ small]
      omega

theorem readIso_places (year : List Char) (month day hour minute second milli : ℕ) :
    readIso (year ++ ('-' :: fixed 2 month ++ '-' :: fixed 2 day) ++
      ('T' :: fixed 2 hour ++ ':' :: fixed 2 minute ++ ':' :: fixed 2 second ++
        '.' :: fixed 3 milli ++ ['Z'])) =
      DAY_MS * toDay ⟨readYear year, value (fixed 2 month), value (fixed 2 day)⟩ +
        (value (fixed 2 hour) * 3600000 + value (fixed 2 minute) * 60000 +
          value (fixed 2 second) * 1000 + value (fixed 3 milli) : ℕ) := by
  obtain ⟨m1, m2, months⟩ := List.length_eq_two.mp (fixed_length 2 month)
  obtain ⟨d1, d2, days⟩ := List.length_eq_two.mp (fixed_length 2 day)
  obtain ⟨h1, h2, hours⟩ := List.length_eq_two.mp (fixed_length 2 hour)
  obtain ⟨n1, n2, minutes⟩ := List.length_eq_two.mp (fixed_length 2 minute)
  obtain ⟨s1, s2, seconds⟩ := List.length_eq_two.mp (fixed_length 2 second)
  obtain ⟨f1, f2, f3, millis⟩ := List.length_eq_three.mp (fixed_length 3 milli)
  rw [months, days, hours, minutes, seconds, millis]
  simp [readIso]

theorem readIso_isoText (instant : ℤ) (inside : |instant| ≤ MAX_TIME) : readIso (isoText instant) = instant := by
  obtain ⟨month, day⟩ := valid_small _ (ofDay_valid (dayOf instant))
  have bounds : (instant % DAY_MS).toNat < 86400000 := by
    simp only [DAY_MS]
    omega
  rw [isoText, dayText, timeText, readIso_places, readYear_yearText _ (year_bounds instant inside),
    value_fixed 2 _ month, value_fixed 2 _ day, value_fixed 2 _ (by omega), value_fixed 2 _ (by omega),
    value_fixed 2 _ (by omega), value_fixed 3 _ (by omega), toDay_ofDay]
  simp only [dayOf, DAY_MS]
  omega

end Droplet.IsoText
