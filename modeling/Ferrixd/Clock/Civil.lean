import Ferrixd.Clock
import Ferrixd.Data.Calendar

/-! # Dates and day numbers

The two calendar conversions number the days of the Gregorian calendar in the same way, from the first day of 1970. -/

namespace Ferrixd

/-! ## From a date to its number -/

/-- The number of the first day of 1970. -/
def unixEpoch : Nat := 719528

/-- From March on, the months before a month are the five month cycle of the conversion. -/
theorem daysBeforeMonth_march {year month : Nat} (march : 3 ≤ month) (december : month ≤ 12) :
    daysBeforeMonth year month + 365 = (153 * (month - 3) + 2) / 5 + 59 + yearLength year := by
  have twelve : month = 3 ∨ month = 4 ∨ month = 5 ∨ month = 6 ∨ month = 7 ∨ month = 8 ∨ month = 9 ∨ month = 10 ∨
      month = 11 ∨ month = 12 := by omega
  rcases twelve with rfl | rfl | rfl | rfl | rfl | rfl | rfl | rfl | rfl | rfl
  all_goals
    simp only [daysBeforeMonth, monthLength, yearLength]
    split <;> rfl

/-- The conversion counts the days of the calendar. -/
theorem daysFromCivil_eq {year month day : Nat} (inYear : 1 ≤ month ∧ month ≤ 12) (positive : 1 ≤ day) :
    daysFromCivil year month day = (ordinal year month day : Int) - unixEpoch := by
  simp only [daysFromCivil, ordinal, unixEpoch]
  by_cases march : 3 ≤ month
  · have months := @daysBeforeMonth_march year month march inYear.2
    have years := daysBeforeYear_succ year
    rw [daysBeforeYear] at years
    have notEarly : ¬(month : Int) ≤ 2 := by omega
    have late : (month : Int) > 2 := by omega
    have natural : (year : Int) ≥ 0 := by omega
    rw [if_neg notEarly, if_pos late, if_pos natural, Int.tdiv_eq_ediv_of_nonneg natural]
    omega
  · have early : (month : Int) ≤ 2 := by omega
    have notLate : ¬(month : Int) > 2 := by omega
    have months : daysBeforeMonth year month = 31 * (month - 1) := by
      have two : month = 1 ∨ month = 2 := by omega
      rcases two with rfl | rfl <;> rfl
    rw [if_pos early, if_neg notLate, months]
    cases year with
    | zero =>
      -- the year that counts is the one before year 0
      have cycle : ((((0 : Nat) : Int) - 1 - 399).tdiv 400) = -1 := by decide
      rw [if_neg (by decide), cycle, daysBeforeYear]
      omega
    | succ year =>
      have natural : ((year + 1 : Nat) : Int) - 1 ≥ 0 := by omega
      rw [if_pos natural, Int.tdiv_eq_ediv_of_nonneg natural, daysBeforeYear_succ]
      omega

/-! ## From a number to its date -/

/-- A day of a 400 year cycle that begins in March: its century, leap cycle, year and day. Only a year that ends in a
leap day has a day 365. -/
theorem cycle_day {doe : Nat} (within : doe < 146097) :
    ∃ century leaps year day, doe = 36524 * century + 1461 * leaps + 365 * year + day ∧
      century < 4 ∧ leaps < 25 ∧ year < 4 ∧ day ≤ 365 ∧ (day = 365 → year = 3 ∧ (leaps < 24 ∨ century = 3)) := by
  -- the last day of a cycle and of four years is the one beyond the divisions
  refine ⟨min (doe / 36524) 3, (doe - 36524 * min (doe / 36524) 3) / 1461,
    min ((doe - 36524 * min (doe / 36524) 3) % 1461 / 365) 3,
    (doe - 36524 * min (doe / 36524) 3) % 1461 - 365 * min ((doe - 36524 * min (doe / 36524) 3) % 1461 / 365) 3, ?_⟩
  generalize century : min (doe / 36524) 3 = c
  have centuryLe : 36524 * c ≤ doe := by omega
  have inCentury : doe - 36524 * c < 36524 + (if c = 3 then 1 else 0) := by
    split <;> omega
  generalize rest : doe - 36524 * c = r
  have small : c ≤ 3 := by omega
  generalize year : min (r % 1461 / 365) 3 = y
  split at inCentury <;> omega

/-- The conversion finds the year of a day of the cycle. -/
theorem cycle_year {doe century leaps year day : Nat}
    (split : doe = 36524 * century + 1461 * leaps + 365 * year + day)
    (bounds : century < 4 ∧ leaps < 25 ∧ year < 4 ∧ day ≤ 365)
    (last : day = 365 → year = 3 ∧ (leaps < 24 ∨ century = 3)) :
    (doe - doe / 1460 + doe / 36524 - doe / 146096) / 365 = 100 * century + 4 * leaps + year := by
  obtain ⟨centuries, cycles, years, days⟩ := bounds
  by_cases final : doe = 146096
  · rw [final]
    omega
  · have hundreds : doe / 36524 = century := by omega
    have whole : doe / 146096 = 0 := by omega
    -- one day too many is taken off only where the days have grown beyond it
    have fours : (doe / 1460 = 25 * century + leaps ∧ 24 * century + leaps + 365 * year + day < 1460) ∨
        (doe / 1460 = 25 * century + leaps + 1 ∧ 1460 ≤ 24 * century + leaps + 365 * year + day) := by
      omega
    rw [hundreds, whole]
    rcases fours with ⟨quotient, _⟩ | ⟨quotient, _⟩
    · rw [quotient]
      omega
    · rw [quotient]
      omega

/-- The day of a year that begins in March, as a date. -/
theorem march_day {year doy mp : Nat} (month : mp = (5 * doy + 2) / 153) (within : doy ≤ 365)
    (last : doy = 365 → leapYear (year + 1)) :
    ∃ date : Date, date.year = year + (if mp < 10 then 0 else 1) ∧ date.month = (if mp < 10 then mp + 3 else mp - 9) ∧
      date.day = doy - (153 * mp + 2) / 5 + 1 ∧ date.ordinal + 306 = daysBeforeYear (year + 1) + doy := by
  have small : mp ≤ 11 := by omega
  have started : (153 * mp + 2) / 5 ≤ doy := by omega
  -- January and February belong to the year before, counted from March
  by_cases march : mp < 10
  · rw [if_pos march, if_pos march]
    have inMonth : doy - (153 * mp + 2) / 5 + 1 ≤ monthLength year (mp + 3) := by
      clear last
      interval_cases mp <;> simp only [monthLength] <;> omega
    refine ⟨⟨year, mp + 3, doy - (153 * mp + 2) / 5 + 1, by omega, by omega, inMonth⟩, rfl, rfl, rfl, ?_⟩
    have months := @daysBeforeMonth_march year (mp + 3) (by omega) (by omega)
    rw [Nat.add_sub_cancel] at months
    simp only [Date.ordinal, ordinal, daysBeforeYear]
    omega
  · rw [if_neg march, if_neg march]
    have late : mp = 10 ∨ mp = 11 := by omega
    have inMonth : doy - (153 * mp + 2) / 5 + 1 ≤ monthLength (year + 1) (mp - 9) := by
      rcases late with rfl | rfl
      · simp only [monthLength]
        omega
      · simp only [monthLength]
        by_cases leap : leapYear (year + 1)
        · rw [if_pos leap]
          omega
        · have short : doy ≠ 365 := fun full => leap (last full)
          rw [if_neg leap]
          omega
    refine ⟨⟨year + 1, mp - 9, doy - (153 * mp + 2) / 5 + 1, by omega, by omega, inMonth⟩, rfl, rfl, rfl, ?_⟩
    have months : daysBeforeMonth (year + 1) (mp - 9) = 31 * (mp - 10) := by
      rcases late with rfl | rfl <;> rfl
    simp only [Date.ordinal, ordinal, months]
    omega

/-- The conversion over the natural numbers, by its cycle, the year of the cycle and the day of that year. -/
theorem civilFromDays_cycle {days era doe yoe doy : Nat} (cycle : days + 719468 = 146097 * era + doe)
    (within : doe < 146097) (inYear : doy ≤ 365) (year : (doe - doe / 1460 + doe / 36524 - doe / 146096) / 365 = yoe)
    (rest : doe + yoe / 100 = 365 * yoe + yoe / 4 + doy) :
    civilFromDays days =
      (((yoe + era * 400 + (if (5 * doy + 2) / 153 < 10 then 0 else 1) : Nat) : Int),
        ((if (5 * doy + 2) / 153 < 10 then (5 * doy + 2) / 153 + 3 else (5 * doy + 2) / 153 - 9 : Nat) : Int),
        ((doy - (153 * ((5 * doy + 2) / 153) + 2) / 5 + 1 : Nat) : Int)) := by
  have eraEq : ((days : Int) + 719468) / 146097 = era := by
    clear year rest
    omega
  have doeEq : (days : Int) + 719468 - era * 146097 = doe := by
    clear year rest
    omega
  have yoeEq : ((doe : Int) - doe / 1460 + doe / 36524 - doe / 146096) / 365 = yoe := by
    clear rest cycle eraEq doeEq
    omega
  have doyEq : (doe : Int) - (365 * yoe + (yoe : Int) / 4 - (yoe : Int) / 100) = doy := by
    clear year cycle within eraEq doeEq yoeEq
    omega
  clear year rest cycle within
  -- from here on only the month and the day of it are at stake
  generalize month : (5 * doy + 2) / 153 = mp
  have mpEq : (5 * (doy : Int) + 2) / 153 = mp := by omega
  have started : (153 * mp + 2) / 5 ≤ doy := by omega
  simp only [civilFromDays, eraEq, doeEq, yoeEq, doyEq, mpEq]
  clear eraEq doeEq yoeEq doyEq mpEq
  by_cases early : mp < 10
  · have earlyInt : (mp : Int) < 10 := by omega
    have march : ¬(mp : Int) + 3 ≤ 2 := by omega
    rw [if_pos earlyInt, if_pos early, if_pos early, if_neg march]
    refine Prod.ext ?_ (Prod.ext ?_ ?_)
    · push_cast
      omega
    · push_cast
      omega
    · dsimp only
      omega
  · have lateInt : ¬(mp : Int) < 10 := by omega
    have small : mp ≤ 11 := by omega
    have january : (mp : Int) - 9 ≤ 2 := by omega
    rw [if_neg lateInt, if_neg early, if_neg early, if_pos january]
    refine Prod.ext ?_ (Prod.ext ?_ ?_)
    · push_cast
      omega
    · dsimp only
      omega
    · dsimp only
      omega

/-- The conversion gives a date of the calendar, and the one with that number. -/
theorem civilFromDays_date (days : Nat) :
    ∃ date : Date, civilFromDays days = ((date.year : Int), (date.month : Int), (date.day : Int)) ∧
      date.ordinal = days + unixEpoch := by
  have cycle := (Nat.div_add_mod (days + 719468) 146097).symm
  have inCycle := Nat.mod_lt (days + 719468) (show 146097 > 0 by omega)
  generalize (days + 719468) / 146097 = era at cycle
  generalize (days + 719468) % 146097 = doe at cycle inCycle
  obtain ⟨century, leaps, annual, doy, parts, centuries, cycles, years, within, last⟩ := cycle_day inCycle
  have found := cycle_year parts ⟨centuries, cycles, years, within⟩ last
  have fours : (100 * century + 4 * leaps + annual) / 4 = 25 * century + leaps := by
    clear found
    omega
  have hundreds : (100 * century + 4 * leaps + annual) / 100 = century := by
    clear found fours
    omega
  -- a year counted from March ends with the leap day of the next one
  have leap : doy = 365 → leapYear (100 * century + 4 * leaps + annual + era * 400 + 1) := by
    intro full
    obtain ⟨fourth, notCentury⟩ := last full
    rw [leapYear]
    clear found fours hundreds parts cycle inCycle
    omega
  obtain ⟨date, year, month, day, number⟩ := march_day rfl within leap
  refine ⟨date, ?_, ?_⟩
  · have rest : doe + (100 * century + 4 * leaps + annual) / 100 =
        365 * (100 * century + 4 * leaps + annual) + (100 * century + 4 * leaps + annual) / 4 + doy := by
      rw [fours, hundreds]
      clear found number
      omega
    rw [civilFromDays_cycle cycle inCycle within found rest, year, month, day]
  · have allFours : (100 * century + 4 * leaps + annual + era * 400) / 4 = 25 * century + leaps + 100 * era := by
      clear found number
      omega
    have allHundreds : (100 * century + 4 * leaps + annual + era * 400) / 100 = century + 4 * era := by
      clear found number
      omega
    have allCycles : (100 * century + 4 * leaps + annual + era * 400) / 400 = era := by
      clear found number
      omega
    rw [daysBeforeYear_succ, allFours, allHundreds, allCycles] at number
    rw [unixEpoch]
    clear found allFours allHundreds allCycles fours hundreds
    omega

/-- Every day since the epoch is a valid date, and the number of that date is the day. -/
theorem daysFromCivil_civilFromDays (days : Nat) :
    daysFromCivil (civilFromDays days).1 (civilFromDays days).2.1 (civilFromDays days).2.2 = days := by
  obtain ⟨date, found, number⟩ := civilFromDays_date days
  rw [found]
  dsimp only
  rw [daysFromCivil_eq date.inYear date.inMonth.1]
  rw [Date.ordinal] at number
  omega

end Ferrixd
