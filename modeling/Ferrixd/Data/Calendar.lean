import Mathlib.Tactic.IntervalCases

/-! # The Gregorian calendar

Dates of the proleptic Gregorian calendar from year 0 on, numbered by counting the days of years and months. -/

namespace Ferrixd

def leapYear (year : Nat) : Prop :=
  year % 4 = 0 ∧ (year % 100 ≠ 0 ∨ year % 400 = 0)

instance (year : Nat) : Decidable (leapYear year) :=
  inferInstanceAs (Decidable (_ ∧ _))

def yearLength (year : Nat) : Nat :=
  if leapYear year then 366 else 365

def monthLength (year month : Nat) : Nat :=
  match month with
  | 2 => if leapYear year then 29 else 28
  | 4 | 6 | 9 | 11 => 30
  | _ => 31

def daysBeforeYear : Nat → Nat
  | 0 => 0
  | year + 1 => daysBeforeYear year + yearLength year

/-- The days of a year before one of its months; January is 1. -/
def daysBeforeMonth (year : Nat) : Nat → Nat
  | 0 => 0
  | 1 => 0
  | month + 2 => daysBeforeMonth year (month + 1) + monthLength year (month + 1)

structure Date where
  year : Nat
  month : Nat
  day : Nat
  inYear : 1 ≤ month ∧ month ≤ 12
  inMonth : 1 ≤ day ∧ day ≤ monthLength year month

/-- The days before a day of a month, from the first day of year 0 on. A day beyond the month's last counts on into
the next month. -/
def ordinal (year month day : Nat) : Nat :=
  daysBeforeYear year + daysBeforeMonth year month + (day - 1)

def Date.ordinal (date : Date) : Nat :=
  Ferrixd.ordinal date.year date.month date.day

def Date.Before (a b : Date) : Prop :=
  a.year < b.year ∨ a.year = b.year ∧ (a.month < b.month ∨ a.month = b.month ∧ a.day < b.day)

/-! ## Lengths -/

theorem monthLength_bounds (year month : Nat) : 28 ≤ monthLength year month ∧ monthLength year month ≤ 31 := by
  rw [monthLength.eq_def]
  split
  · split <;> omega
  all_goals omega

theorem daysBeforeMonth_mono {year a b : Nat} (before : a ≤ b) : daysBeforeMonth year a ≤ daysBeforeMonth year b := by
  induction before with
  | refl => exact le_refl _
  | @step b _ ih =>
    cases b with
    | zero => exact ih
    | succ b =>
      rw [daysBeforeMonth]
      omega

/-- The months of a year are the whole year. -/
theorem daysBeforeMonth_year (year : Nat) : daysBeforeMonth year 13 = yearLength year := by
  simp only [daysBeforeMonth, monthLength, yearLength]
  split <;> omega

/-- Every fourth year but three in four hundred is one day longer. -/
theorem daysBeforeYear_succ (year : Nat) :
    daysBeforeYear (year + 1) = 365 * year + year / 4 - year / 100 + year / 400 + 366 := by
  induction year with
  | zero => rfl
  | succ year ih =>
    rw [daysBeforeYear, ih, yearLength]
    split
    · rename_i leap
      rw [leapYear] at leap
      omega
    · rename_i plain
      rw [leapYear] at plain
      omega

theorem daysBeforeYear_mono {a b : Nat} (before : a ≤ b) : daysBeforeYear a ≤ daysBeforeYear b := by
  induction before with
  | refl => exact le_refl _
  | step _ ih => exact Nat.le_add_right_of_le ih

/-! ## Order -/

namespace Date

theorem ordinal_lt_month (date : Date) :
    date.ordinal < daysBeforeYear date.year + daysBeforeMonth date.year (date.month + 1) := by
  obtain ⟨year, month, day, inYear, inMonth⟩ := date
  cases month with
  | zero => omega
  | succ month =>
    simp only [ordinal, Ferrixd.ordinal, daysBeforeMonth] at inMonth ⊢
    omega

theorem ordinal_lt_year (date : Date) : date.ordinal < daysBeforeYear (date.year + 1) := by
  have within := date.ordinal_lt_month
  have months := @daysBeforeMonth_mono date.year (date.month + 1) 13 (Nat.succ_le_succ date.inYear.2)
  rw [daysBeforeMonth_year] at months
  rw [daysBeforeYear]
  omega

theorem le_ordinal (date : Date) :
    daysBeforeYear date.year + daysBeforeMonth date.year date.month ≤ date.ordinal :=
  Nat.le_add_right _ _

/-- A later date has the greater number. -/
theorem Before.ordinal_lt {a b : Date} (before : a.Before b) : a.ordinal < b.ordinal := by
  rcases before with earlier | ⟨sameYear, earlier | ⟨sameMonth, earlier⟩⟩
  · calc
      a.ordinal < daysBeforeYear (a.year + 1) := a.ordinal_lt_year
      _ ≤ daysBeforeYear b.year := daysBeforeYear_mono earlier
      _ ≤ b.ordinal := Nat.le_trans (Nat.le_add_right _ _) b.le_ordinal
  · have months := @daysBeforeMonth_mono a.year (a.month + 1) b.month earlier
    have upper := a.ordinal_lt_month
    have lower := b.le_ordinal
    rw [← sameYear] at lower
    omega
  · have first := a.inMonth.1
    rw [ordinal, ordinal, Ferrixd.ordinal, Ferrixd.ordinal, sameYear, sameMonth]
    omega

theorem trichotomy (a b : Date) :
    a.Before b ∨ (a.year = b.year ∧ a.month = b.month ∧ a.day = b.day) ∨ b.Before a := by
  rw [Before, Before]
  omega

theorem before_of_ordinal_lt {a b : Date} (less : a.ordinal < b.ordinal) : a.Before b := by
  rcases trichotomy a b with before | ⟨year, month, day⟩ | after
  · exact before
  · rw [ordinal, ordinal, year, month, day] at less
    exact absurd less (lt_irrefl _)
  · exact absurd (less.trans after.ordinal_lt) (lt_irrefl _)

end Date

end Ferrixd
