import Mathlib.Order.Monotone.Basic
import Mathlib.Tactic.SplitIfs
import WebHost.Time.Civil

/-!
# Every day has one date

A day is found again from its date. Within a cycle the first day of a year counted from March is
`365 * y + y / 4 - y / 100`, and the first day of a month is `(153 * m + 2) / 5`. Both grow by less
than the divisions that invert them assume, so the divisions fall into the right year and month; for
the year this is seen by writing the day in centuries, spans of four years and days.
-/

set_option autoImplicit false

namespace WebHost

namespace CivilDate

/-- The first day, in its cycle, of a year counted from March. -/
def startOfYear (year : Nat) : Nat := 365 * year + year / 4 - year / 100

/-- The first day, in its year, of a month counted from March. -/
def startOfMonth (month : Nat) : Nat := (153 * month + 2) / 5

/-- Later years start later. -/
theorem startOfYear_mono : Monotone startOfYear := by
  apply monotone_nat_of_le_succ
  intro year
  unfold startOfYear
  omega

/-- The date of a day of a month, both counted from zero, in a year counted from March. -/
def fromMarch (cycle : Int) (year month day : Nat) : CivilDate :=
  ⟨cycle * 400 + year + (if month < 10 then 0 else 1), if month < 10 then month + 3 else month - 9,
    day + 1⟩

/-- A day of a cycle but the last one, by the centuries, the spans of four years and the days before
it. -/
theorem exists_centuries {n : Nat} (h : n < 146096) :
    ∃ c k d, c ≤ 3 ∧ k ≤ 24 ∧ d ≤ 1460 ∧ 1461 * k + d < 36524 ∧ n = 36524 * c + 1461 * k + d := by
  refine ⟨n / 36524, n % 36524 / 1461, n % 36524 % 1461, ?_, ?_, ?_, ?_, ?_⟩ <;> omega

/-- A day of a cycle lies in the year that the division finds for it. -/
theorem day_in_year {n year : Nat} (h : n < 146097)
    (hyear : year = (n - n / 1460 + n / 36524 - n / 146096) / 365) :
    year ≤ 399 ∧ startOfYear year ≤ n ∧ n - startOfYear year ≤ 365 := by
  unfold startOfYear
  rcases Nat.lt_or_eq_of_le (Nat.le_of_lt_succ h) with hn | rfl
  · obtain ⟨c, k, d, hc, hk, hd, hcentury, hsum⟩ := exists_centuries hn
    have hcenturies : n / 36524 = c := by omega
    have hcycle : n / 146096 = 0 := by omega
    rw [hcenturies, hcycle] at hyear
    -- the leap days before the day are counted in spans of 1460 days, one short of four years
    by_cases hlate : 1460 ≤ 24 * c + k + d
    · have hspans : n / 1460 = 25 * c + k + 1 := by omega
      have hsplit : year = 100 * c + 4 * k + (d - 1) / 365 := by omega
      have hfour : year / 4 = 25 * c + k := by omega
      have hhundred : year / 100 = c := by omega
      omega
    · have hspans : n / 1460 = 25 * c + k := by omega
      have hsplit : year = 100 * c + 4 * k + d / 365 := by omega
      have hfour : year / 4 = 25 * c + k := by omega
      have hhundred : year / 100 = c := by omega
      omega
  · omega

/-- A day of a year lies in the month that the division finds for it. -/
theorem day_in_month {n month : Nat} (h : n ≤ 365) (hmonth : month = (5 * n + 2) / 153) :
    month ≤ 11 ∧ startOfMonth month ≤ n ∧ n - startOfMonth month ≤ 30 := by
  unfold startOfMonth
  omega

/-- The months before March belong to the next year of the calendar. -/
theorem fromMarch_eq {month : Nat} (h : month ≤ 11) (cycle : Int) (year day : Nat) :
    fromMarch cycle year month day =
      let inCalendar := if month < 10 then month + 3 else month - 9
      ⟨cycle * 400 + year + (if inCalendar ≤ 2 then 1 else 0), inCalendar, day + 1⟩ := by
  by_cases hm : month < 10
  · have hlate : ¬ month + 3 ≤ 2 := by omega
    simp only [fromMarch, if_pos hm, if_neg hlate]
  · have hearly : month - 9 ≤ 2 := by omega
    simp only [fromMarch, if_neg hm, if_pos hearly]

/-- A day by its cycle, year, month and day of the month. -/
theorem exists_fromMarch (days : Int) :
    ∃ (cycle : Int) (year month day : Nat), year ≤ 399 ∧ month ≤ 11 ∧ day ≤ 30 ∧
      ofDays days = fromMarch cycle year month day ∧
      days = cycle * 146097 + (startOfYear year + startOfMonth month + day : Nat) - 719468 := by
  have hcycle : ((days + 719468) % 146097).toNat < 146097 := by omega
  obtain ⟨hyear, hstart, hlength⟩ := day_in_year hcycle rfl
  obtain ⟨hmonth, hfirst, hlast⟩ := day_in_month hlength rfl
  refine ⟨(days + 719468) / 146097, _, _, _, hyear, hmonth, hlast, ?_, ?_⟩
  · exact (fromMarch_eq hmonth _ _ _).symm
  · omega

/-- The day of a date is the sum of what was counted before it. -/
theorem toDays_fromMarch {year month : Nat} (hyear : year ≤ 399) (hmonth : month ≤ 11) (cycle : Int)
    (day : Nat) :
    (fromMarch cycle year month day).toDays =
      cycle * 146097 + (startOfYear year + startOfMonth month + day : Nat) - 719468 := by
  have hfour : year / 100 ≤ year / 4 := by omega
  have hcycle : (cycle * 400 + (year : Int)) / 400 = cycle := by omega
  have hin : ((cycle * 400 + (year : Int)) % 400).toNat = year := by omega
  by_cases hm : month < 10
  · have hlate : ¬ month + 3 ≤ 2 := by omega
    have hback : 2 < month + 3 := by omega
    have hshift : cycle * 400 + (year : Int) + 0 = cycle * 400 + year := by omega
    simp only [fromMarch, toDays, startOfYear, startOfMonth, if_pos hm, if_neg hlate, if_pos hback,
      hshift, hcycle, hin, Nat.add_sub_cancel]
    omega
  · have hearly : month - 9 ≤ 2 := by omega
    have hback : ¬ 2 < month - 9 := by omega
    have hshift : cycle * 400 + (year : Int) + 1 - 1 = cycle * 400 + year := by omega
    have hmonth : month - 9 + 9 = month := by omega
    simp only [fromMarch, toDays, startOfYear, startOfMonth, if_neg hm, if_pos hearly, if_neg hback,
      hshift, hcycle, hin, hmonth]
    omega

/-- The date of a day leads back to the day. -/
theorem toDays_ofDays (days : Int) : (ofDays days).toDays = days := by
  obtain ⟨cycle, year, month, day, hyear, hmonth, -, hdate, hdays⟩ := exists_fromMarch days
  rw [hdate, toDays_fromMarch hyear hmonth, ← hdays]

/-- A day lies in one of twelve months. -/
theorem month_ofDays (days : Int) : 1 ≤ (ofDays days).month ∧ (ofDays days).month ≤ 12 := by
  obtain ⟨cycle, year, month, day, -, hmonth, -, hdate, -⟩ := exists_fromMarch days
  rw [hdate, fromMarch]
  dsimp only
  split_ifs <;> omega

/-- A day is one of at most 31. -/
theorem day_ofDays (days : Int) : 1 ≤ (ofDays days).day ∧ (ofDays days).day ≤ 31 := by
  obtain ⟨cycle, year, month, day, -, -, hday, hdate, -⟩ := exists_fromMarch days
  rw [hdate, fromMarch]
  dsimp only
  omega

/-- The days of the years 1970 to 9999. -/
theorem year_ofDays {days : Int} (hsince : 0 ≤ days) (huntil : days < 2932897) :
    1970 ≤ (ofDays days).year ∧ (ofDays days).year ≤ 9999 := by
  obtain ⟨cycle, year, month, day, hyear, hmonth, hday, hdate, hdays⟩ := exists_fromMarch days
  -- 1970 begins in the year 369 of the fourth cycle, 9999 ends in the year 399 of the last one
  have hbefore : year ≤ 368 → startOfYear year ≤ 134409 := by
    intro hle
    exact startOfYear_mono hle
  have hfirst : year ≤ 369 → startOfYear year ≤ 134774 := by
    intro hle
    exact startOfYear_mono hle
  have hbound : startOfYear year ≤ 145731 := startOfYear_mono hyear
  have hlast : 399 ≤ year → 145731 ≤ startOfYear year := by
    intro hle
    exact startOfYear_mono hle
  rw [hdate, fromMarch]
  dsimp only
  unfold startOfMonth at hdays
  have hsince : 4 ≤ cycle := by omega
  have huntil : cycle ≤ 24 := by omega
  split_ifs with hm
  · omega
  · omega

/-- A week has seven days. -/
theorem weekday_lt (days : Int) : weekday days < 7 := by
  unfold weekday
  omega

end CivilDate

namespace DateTime

/-- The date and time of a count of seconds lead back to it. -/
theorem toSeconds_ofSeconds (seconds : Int) : (ofSeconds seconds).toSeconds = seconds := by
  have hdays : (ofSeconds seconds).date.toDays = seconds / 86400 :=
    CivilDate.toDays_ofDays (seconds / 86400)
  rw [toSeconds, hdays]
  simp only [ofSeconds]
  omega

/-- A day has 24 hours. -/
theorem hour_ofSeconds (seconds : Int) : (ofSeconds seconds).hour < 24 := by
  simp only [ofSeconds]
  omega

/-- An hour has 60 minutes. -/
theorem minute_ofSeconds (seconds : Int) : (ofSeconds seconds).minute < 60 := by
  simp only [ofSeconds]
  omega

/-- A minute has 60 seconds. -/
theorem second_ofSeconds (seconds : Int) : (ofSeconds seconds).second < 60 := by
  simp only [ofSeconds]
  omega

end DateTime

end WebHost
