import LiveBook.Time.Calendar

/-!
# Days and dates

The date of a day leads back to that day: `LiveBook.Time.Date.toDays_ofDays`. Both directions count
in cycles of 400 years, and within a cycle in years that begin in March.
-/

namespace LiveBook.Time

theorem daysInMonth_le (year : Int) (month : Nat) : daysInMonth year month ≤ 31 := by
  unfold daysInMonth
  split <;> (try split) <;> decide

/-- The year of a day in its cycle of 400 years. -/
def yearOfEra (day : Int) : Int := (day - day / 1460 + day / 36524 - day / 146096) / 365

/-- The days of a cycle before a year. -/
def daysBefore (year : Int) : Int := 365 * year + year / 4 - year / 100

variable {day : Int}

theorem yearOfEra_bounds (h : 0 ≤ day) (h' : day < 146097) :
    0 ≤ yearOfEra day ∧ yearOfEra day < 400 := by
  unfold yearOfEra
  omega

/-- **The year of a day** has begun, and it has not been over for a day. -/
theorem daysBefore_yearOfEra (h : 0 ≤ day) (h' : day < 146097) :
    daysBefore (yearOfEra day) ≤ day ∧ day ≤ daysBefore (yearOfEra day) + 365 := by
  have hyear : yearOfEra day = (day - day / 1460 + day / 36524 - day / 146096) / 365 := rfl
  generalize yearOfEra day = year at hyear ⊢
  unfold daysBefore
  have century : day / 36524 = 0 ∨ day / 36524 = 1 ∨ day / 36524 = 2 ∨ day / 36524 = 3 ∨
      day / 36524 = 4 := by omega
  -- four years have 1460 days or one more
  have low : day / 1461 ≤ year / 4 := by omega
  have high : year / 4 ≤ day / 1460 := by omega
  rcases century with hc | hc | hc | hc | hc
  all_goals exact ⟨by omega, by omega⟩

namespace Date

/-- The date of a day, step by step. -/
theorem ofDays_eq (days : Int) : ∃ era day year month : Int, days + 719468 = era * 146097 + day ∧
    0 ≤ day ∧ day < 146097 ∧ year = yearOfEra day ∧
    month = (5 * (day - daysBefore year) + 2) / 153 ∧
    ofDays days =
      let month' := if month < 10 then month + 3 else month - 9
      ⟨year + era * 400 + (if month' ≤ 2 then 1 else 0), month'.toNat,
        (day - daysBefore year - (153 * month + 2) / 5 + 1).toNat⟩ := by
  refine ⟨(days + 719468) / 146097, (days + 719468) % 146097, _, _, by omega, by omega, by omega,
    rfl, rfl, ?_⟩
  have hday : days + 719468 - (days + 719468) / 146097 * 146097 = (days + 719468) % 146097 := by
    omega
  simp only [ofDays, Int.fdiv_eq_ediv_of_nonneg _ (show (0 : Int) ≤ 146097 by decide),
    Int.fdiv_eq_ediv_of_nonneg _ (show (0 : Int) ≤ 1460 by decide),
    Int.fdiv_eq_ediv_of_nonneg _ (show (0 : Int) ≤ 36524 by decide),
    Int.fdiv_eq_ediv_of_nonneg _ (show (0 : Int) ≤ 146096 by decide),
    Int.fdiv_eq_ediv_of_nonneg _ (show (0 : Int) ≤ 365 by decide),
    Int.fdiv_eq_ediv_of_nonneg _ (show (0 : Int) ≤ 153 by decide),
    Int.fdiv_eq_ediv_of_nonneg _ (show (0 : Int) ≤ 100 by decide),
    Int.fdiv_eq_ediv_of_nonneg _ (show (0 : Int) ≤ 5 by decide),
    Int.fdiv_eq_ediv_of_nonneg _ (show (0 : Int) ≤ 4 by decide), hday]
  rfl

/-- The day of a date, where the month is counted from March. -/
theorem toDays_march {era year month day : Int} (hyear : 0 ≤ year ∧ year < 400)
    (hmonth : 0 ≤ month ∧ month < 12) (hday : 1 ≤ day) :
    let month' := if month < 10 then month + 3 else month - 9
    toDays ⟨year + era * 400 + (if month' ≤ 2 then 1 else 0), month'.toNat, day.toNat⟩ =
      era * 146097 + (daysBefore year + (153 * month + 2) / 5 + (day - 1)) - 719468 := by
  intro month'
  have hmonth' : ((month'.toNat : Int) + 9) % 12 = month ∧ (month'.toNat ≤ 2 ↔ month' ≤ 2) := by
    simp only [month']
    split <;> omega
  have hcycle : (year + era * 400) / 400 = era := by omega
  have hcivil : (if month'.toNat ≤ 2 then year + era * 400 + (if month' ≤ 2 then 1 else 0) - 1
      else year + era * 400 + (if month' ≤ 2 then 1 else 0)) = year + era * 400 := by
    simp only [hmonth'.2]
    split <;> omega
  simp only [toDays, hcivil, hmonth'.1, hcycle,
    Int.fdiv_eq_ediv_of_nonneg _ (show (0 : Int) ≤ 400 by decide),
    Int.fdiv_eq_ediv_of_nonneg _ (show (0 : Int) ≤ 100 by decide),
    Int.fdiv_eq_ediv_of_nonneg _ (show (0 : Int) ≤ 5 by decide),
    Int.fdiv_eq_ediv_of_nonneg _ (show (0 : Int) ≤ 4 by decide), daysBefore,
    Int.toNat_of_nonneg (show 0 ≤ day by omega)]
  omega

/-- **The date of a day leads back to it.** -/
theorem toDays_ofDays (days : Int) : (ofDays days).toDays = days := by
  obtain ⟨era, day, year, month, hdays, h, h', rfl, hmonth, heq⟩ := ofDays_eq days
  obtain ⟨hbefore, hbefore'⟩ := daysBefore_yearOfEra h h'
  rw [heq, toDays_march (yearOfEra_bounds h h') (by omega) (by omega)]
  omega

end Date

end LiveBook.Time
