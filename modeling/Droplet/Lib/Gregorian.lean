import Mathlib

/-! The proleptic Gregorian calendar: day numbers counted from 1970-01-01, and the
year, month and day they stand for. Both directions compute, and each undoes the
other on the dates that exist. -/

namespace Gregorian

structure Date where
  year : ℤ
  month : ℕ
  day : ℕ
  deriving DecidableEq

def isLeap (year : ℤ) : Bool :=
  year % 4 = 0 ∧ (year % 100 ≠ 0 ∨ year % 400 = 0)

def leapDay (leap : Bool) : ℤ := if leap then 1 else 0

def daysBeforeYear (year : ℤ) : ℤ :=
  365 * (year - 1970) + (year - 1969) / 4 - (year - 1901) / 100 + (year - 1601) / 400

def daysBeforeMonth (leap : Bool) : ℕ → ℤ
  | 0 => 0
  | 1 => 0
  | 2 => 31
  | 3 => 59 + leapDay leap
  | 4 => 90 + leapDay leap
  | 5 => 120 + leapDay leap
  | 6 => 151 + leapDay leap
  | 7 => 181 + leapDay leap
  | 8 => 212 + leapDay leap
  | 9 => 243 + leapDay leap
  | 10 => 273 + leapDay leap
  | 11 => 304 + leapDay leap
  | 12 => 334 + leapDay leap
  | _ => 365 + leapDay leap

def toDay (date : Date) : ℤ :=
  daysBeforeYear date.year + daysBeforeMonth (isLeap date.year) date.month + date.day - 1

/-- The year a day number falls in. The mean length of a year gives it up to one. -/
def yearOf (n : ℤ) : ℤ :=
  let guess := 1970 + n * 400 / 146097
  if daysBeforeYear (guess + 1) ≤ n then guess + 1
  else if n < daysBeforeYear guess then guess - 1
  else guess

/-- The first of the `fuel + 1` months from `month` on that ends after day `k` of the year. -/
def monthFrom (leap : Bool) (k : ℤ) : ℕ → ℕ → ℕ
  | 0, month => month
  | fuel + 1, month =>
    if k < daysBeforeMonth leap (month + 1) then month else monthFrom leap k fuel (month + 1)

def monthOf (leap : Bool) (k : ℤ) : ℕ := monthFrom leap k 11 1

def ofDay (n : ℤ) : Date :=
  let year := yearOf n
  let k := n - daysBeforeYear year
  let month := monthOf (isLeap year) k
  ⟨year, month, (k - daysBeforeMonth (isLeap year) month + 1).toNat⟩

def Valid (date : Date) : Prop :=
  1 ≤ date.month ∧ date.month ≤ 12 ∧ 1 ≤ date.day ∧
    daysBeforeMonth (isLeap date.year) date.month + date.day ≤
      daysBeforeMonth (isLeap date.year) (date.month + 1)

instance (date : Date) : Decidable (Valid date) :=
  inferInstanceAs (Decidable (_ ∧ _ ∧ _ ∧ _))

variable (leap : Bool)

theorem leapDay_bounds : 0 ≤ leapDay leap ∧ leapDay leap ≤ 1 := by
  cases leap <;> simp [leapDay]

theorem daysBeforeYear_succ (year : ℤ) :
    daysBeforeYear (year + 1) = daysBeforeYear year + 365 + leapDay (isLeap year) := by
  simp only [daysBeforeYear, leapDay, isLeap, decide_eq_true_eq]
  split_ifs with leap <;> omega

theorem daysBeforeYear_strictMono : StrictMono daysBeforeYear := by
  apply strictMono_int_of_lt_succ
  intro year
  have bounds := leapDay_bounds (isLeap year)
  rw [daysBeforeYear_succ]
  omega

theorem yearOf_spec (n : ℤ) : daysBeforeYear (yearOf n) ≤ n ∧ n < daysBeforeYear (yearOf n + 1) := by
  unfold yearOf
  simp only
  set q := n * 400 / 146097 with hq
  have estimate : 146097 * q ≤ n * 400 ∧ n * 400 < 146097 * q + 146097 := by omega
  have low : daysBeforeYear (1970 + q - 1) ≤ n := by
    simp only [daysBeforeYear]
    omega
  have high : n < daysBeforeYear (1970 + q + 1 + 1) := by
    simp only [daysBeforeYear]
    omega
  split_ifs with above below
  · exact ⟨above, high⟩
  · exact ⟨low, by simpa using below⟩
  · exact ⟨by omega, by omega⟩

theorem yearOf_unique (n year : ℤ) (low : daysBeforeYear year ≤ n)
    (high : n < daysBeforeYear (year + 1)) : yearOf n = year := by
  have spec := yearOf_spec n
  have above := daysBeforeYear_strictMono.lt_iff_lt.mp (lt_of_le_of_lt spec.1 high)
  have below := daysBeforeYear_strictMono.lt_iff_lt.mp (lt_of_le_of_lt low spec.2)
  omega

theorem monthFrom_spec (k : ℤ) (fuel month : ℕ) (low : daysBeforeMonth leap month ≤ k)
    (high : k < daysBeforeMonth leap (month + fuel + 1)) :
    month ≤ monthFrom leap k fuel month ∧ monthFrom leap k fuel month ≤ month + fuel ∧
      daysBeforeMonth leap (monthFrom leap k fuel month) ≤ k ∧
      k < daysBeforeMonth leap (monthFrom leap k fuel month + 1) := by
  induction fuel generalizing month with
  | zero => exact ⟨le_rfl, le_rfl, low, high⟩
  | succ fuel ih =>
    simp only [monthFrom]
    split
    · next here => exact ⟨le_rfl, by omega, low, here⟩
    · next later =>
      have shift : month + 1 + fuel + 1 = month + (fuel + 1) + 1 := by omega
      obtain ⟨above, below, from_, to_⟩ := ih (month + 1) (by omega) (by rwa [shift])
      exact ⟨by omega, by omega, from_, to_⟩

theorem monthOf_spec (k : ℤ) (low : 0 ≤ k) (high : k < 365 + leapDay leap) :
    1 ≤ monthOf leap k ∧ monthOf leap k ≤ 12 ∧
      daysBeforeMonth leap (monthOf leap k) ≤ k ∧
      k < daysBeforeMonth leap (monthOf leap k + 1) :=
  monthFrom_spec leap k 11 1 low high

theorem daysBeforeMonth_le_succ (month : ℕ) : daysBeforeMonth leap month ≤ daysBeforeMonth leap (month + 1) := by
  have bounds := leapDay_bounds leap
  rcases month with _ | _ | _ | _ | _ | _ | _ | _ | _ | _ | _ | _ | _ | month <;>
    simp only [daysBeforeMonth] <;> omega

theorem daysBeforeMonth_mono : Monotone (daysBeforeMonth leap) :=
  monotone_nat_of_le_succ (daysBeforeMonth_le_succ leap)

theorem daysBeforeMonth_bounds (month : ℕ) :
    0 ≤ daysBeforeMonth leap month ∧ daysBeforeMonth leap month ≤ 365 + leapDay leap := by
  have bounds := leapDay_bounds leap
  unfold daysBeforeMonth
  split <;> omega

theorem toDay_ofDay (n : ℤ) : toDay (ofDay n) = n := by
  have year := yearOf_spec n
  rw [daysBeforeYear_succ] at year
  have month := monthOf_spec (isLeap (yearOf n)) (n - daysBeforeYear (yearOf n)) (by omega) (by omega)
  simp only [toDay, ofDay]
  omega

theorem ofDay_valid (n : ℤ) : Valid (ofDay n) := by
  have year := yearOf_spec n
  rw [daysBeforeYear_succ] at year
  have month := monthOf_spec (isLeap (yearOf n)) (n - daysBeforeYear (yearOf n)) (by omega) (by omega)
  simp only [Valid, ofDay]
  refine ⟨month.1, month.2.1, by omega, by omega⟩

theorem toDay_bounds (date : Date) (valid : Valid date) :
    daysBeforeYear date.year ≤ toDay date ∧ toDay date < daysBeforeYear (date.year + 1) := by
  obtain ⟨_, _, day, month⟩ := valid
  have before := daysBeforeMonth_bounds (isLeap date.year) date.month
  have after := daysBeforeMonth_bounds (isLeap date.year) (date.month + 1)
  rw [daysBeforeYear_succ]
  simp only [toDay]
  omega

theorem month_unique (k : ℤ) (first second : ℕ) (firstLow : daysBeforeMonth leap first ≤ k)
    (firstHigh : k < daysBeforeMonth leap (first + 1)) (secondLow : daysBeforeMonth leap second ≤ k)
    (secondHigh : k < daysBeforeMonth leap (second + 1)) : first = second := by
  rcases lt_trichotomy first second with less | equal | more
  · have order := daysBeforeMonth_mono leap (show first + 1 ≤ second by omega)
    omega
  · exact equal
  · have order := daysBeforeMonth_mono leap (show second + 1 ≤ first by omega)
    omega

theorem ofDay_toDay (date : Date) (valid : Valid date) : ofDay (toDay date) = date := by
  obtain ⟨low, high⟩ := toDay_bounds date valid
  have year : yearOf (toDay date) = date.year := yearOf_unique _ _ low high
  rw [daysBeforeYear_succ] at high
  have spec := monthOf_spec (isLeap date.year) (toDay date - daysBeforeYear date.year) (by omega) (by omega)
  have month : monthOf (isLeap date.year) (toDay date - daysBeforeYear date.year) = date.month := by
    obtain ⟨_, _, day, inMonth⟩ := valid
    apply month_unique (isLeap date.year) (toDay date - daysBeforeYear date.year) _ _ spec.2.2.1 spec.2.2.2
    · simp only [toDay]
      omega
    · simp only [toDay]
      omega
  cases date with
  | mk y m d =>
    simp only at year month
    simp only [ofDay, year, month, Date.mk.injEq, true_and]
    simp only [toDay]
    omega

/-- The digits of a date as one number: the order in which its text sorts. -/
def code (date : Date) : ℤ := date.year * 10000 + date.month * 100 + date.day

theorem daysInMonth_le (month : ℕ) (low : 1 ≤ month) (high : month ≤ 12) :
    daysBeforeMonth leap (month + 1) ≤ daysBeforeMonth leap month + 31 := by
  have bounds := leapDay_bounds leap
  interval_cases month <;> simp only [daysBeforeMonth] <;> omega

theorem code_lt_of_toDay_lt (first second : Date) (firstValid : Valid first)
    (secondValid : Valid second) (less : toDay first < toDay second) : code first < code second := by
  have firstYear := toDay_bounds first firstValid
  have secondYear := toDay_bounds second secondValid
  obtain ⟨fm1, fm12, fd1, fd⟩ := firstValid
  obtain ⟨sm1, sm12, sd1, sd⟩ := secondValid
  have firstDays := daysInMonth_le (isLeap first.year) first.month fm1 fm12
  have secondDays := daysInMonth_le (isLeap second.year) second.month sm1 sm12
  have year : first.year ≤ second.year := by
    have order := daysBeforeYear_strictMono.lt_iff_lt.mp
      (lt_of_le_of_lt firstYear.1 (less.trans secondYear.2))
    omega
  simp only [code]
  rcases lt_or_eq_of_le year with earlier | same
  · omega
  · simp only [toDay, same] at less fd sd firstDays
    have month : first.month ≤ second.month := by
      by_contra later
      have order := daysBeforeMonth_mono (isLeap second.year) (show second.month + 1 ≤ first.month by omega)
      omega
    rcases lt_or_eq_of_le month with earlier | equal
    · omega
    · rw [equal] at less
      omega

theorem code_lt_iff (first second : Date) (firstValid : Valid first)
    (secondValid : Valid second) : code first < code second ↔ toDay first < toDay second := by
  constructor
  · intro less
    rcases lt_trichotomy (toDay first) (toDay second) with before | equal | after
    · exact before
    · have same : first = second := by
        rw [← ofDay_toDay first firstValid, ← ofDay_toDay second secondValid, equal]
      subst same
      exact absurd less (lt_irrefl _)
    · exact absurd less (not_lt.mpr
        (le_of_lt (code_lt_of_toDay_lt second first secondValid firstValid after)))
  · exact code_lt_of_toDay_lt first second firstValid secondValid

end Gregorian
