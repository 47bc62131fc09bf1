import Footage.Calendar.Date
import Mathlib.Data.Int.Order.Basic
import Mathlib.Order.Monotone.Basic
import Mathlib.Tactic.IntervalCases

/-! Dates as day numbers and as year, month and day. An era of four centuries has a
fixed number of days, and within it the year is a quotient, once leap days are taken out. What is
left grows with the day, so that it suffices to look at the first and the last day of each year. -/

namespace Footage

namespace Date

/-! ### Years of an era -/

/-- The first day of a year within an era. Years begin in March here, so that they end with the leap
day. -/
def yearStart (y : ℤ) : ℤ := 365 * y + y / 4 - y / 100

/-- A day of an era, less the leap days before it. -/
def withoutLeapDays (day : ℤ) : ℤ := day - day / 1460 + day / 36524 - day / 146096

theorem withoutLeapDays_mono {a b : ℤ} (hab : a ≤ b) : withoutLeapDays a ≤ withoutLeapDays b := by
  refine monotone_int_of_le_succ (fun day => ?_) hab
  unfold withoutLeapDays
  omega

theorem le_withoutLeapDays_yearStart {y : ℤ} (h : 0 ≤ y) (h' : y ≤ 399) :
    y * 365 ≤ withoutLeapDays (yearStart y) := by
  have hall : ∀ y : Fin 400, (y : ℤ) * 365 ≤ withoutLeapDays (yearStart y) := by decide +kernel
  have hy := hall ⟨y.toNat, by omega⟩
  rwa [Int.toNat_of_nonneg h] at hy

/-- The last day of a year that is not the last of its era. -/
theorem withoutLeapDays_yearEnd_lt {y : ℤ} (h : 0 < y) (h' : y ≤ 399) :
    withoutLeapDays (yearStart y - 1) < y * 365 := by
  have hall : ∀ y : Fin 400, 0 < (y : ℕ) → withoutLeapDays (yearStart y - 1) < (y : ℤ) * 365 := by
    decide +kernel
  have hy := hall ⟨y.toNat, by omega⟩ (by simp only; omega)
  rwa [Int.toNat_of_nonneg h.le] at hy

/-- The year of a day of an era. -/
def yearOfEra (day : ℤ) : ℤ := withoutLeapDays day / 365

theorem yearOfEra_bounds {day : ℤ} (h : 0 ≤ day) (h' : day ≤ 146096) :
    0 ≤ yearOfEra day ∧ yearOfEra day ≤ 399 := by
  have hlow : withoutLeapDays 0 ≤ withoutLeapDays day := withoutLeapDays_mono h
  have hhigh : withoutLeapDays day ≤ withoutLeapDays 146096 := withoutLeapDays_mono h'
  have hzero : withoutLeapDays 0 = 0 := by decide
  have hlast : withoutLeapDays 146096 = 145999 := by decide
  unfold yearOfEra
  omega

/-- A day of an era is of the year that has started by then and whose next one has not. -/
theorem yearOfEra_eq_iff {day y : ℤ} (h : 0 ≤ day) (h' : day ≤ 146096) (hy : 0 ≤ y)
    (hy' : y ≤ 399) :
    yearOfEra day = y ↔ yearStart y ≤ day ∧ (y < 399 → day < yearStart (y + 1)) := by
  constructor
  · rintro rfl
    constructor
    · by_contra hlt
      by_cases hzero : yearOfEra day = 0
      · rw [hzero] at hlt
        exact hlt h
      · have hmono : withoutLeapDays day ≤ withoutLeapDays (yearStart (yearOfEra day) - 1) :=
          withoutLeapDays_mono (by omega)
        have hend := withoutLeapDays_yearEnd_lt (y := yearOfEra day) (by omega) hy'
        unfold yearOfEra at hend hmono
        omega
    · intro hlast
      by_contra hle
      have hmono : withoutLeapDays (yearStart (yearOfEra day + 1)) ≤ withoutLeapDays day :=
        withoutLeapDays_mono (by omega)
      have hstart := le_withoutLeapDays_yearStart (y := yearOfEra day + 1) (by omega) (by omega)
      unfold yearOfEra at hstart hmono
      omega
  · rintro ⟨hstart, hend⟩
    have hlow := (le_withoutLeapDays_yearStart hy hy').trans (withoutLeapDays_mono hstart)
    have hhigh : withoutLeapDays day < (y + 1) * 365 := by
      by_cases hlast : y < 399
      · have hmono : withoutLeapDays day ≤ withoutLeapDays (yearStart (y + 1) - 1) :=
          withoutLeapDays_mono (by have := hend hlast; omega)
        exact hmono.trans_lt (withoutLeapDays_yearEnd_lt (by omega) (by omega))
      · have hmono := withoutLeapDays_mono h'
        have hera : withoutLeapDays 146096 = 145999 := by decide
        omega
    unfold yearOfEra
    omega

/-- The day of a year that a day of an era is. -/
theorem dayOfYear_bounds {day : ℤ} (h : 0 ≤ day) (h' : day ≤ 146096) :
    yearStart (yearOfEra day) ≤ day ∧ day ≤ yearStart (yearOfEra day) + 365 := by
  obtain ⟨hlow, hhigh⟩ := yearOfEra_bounds h h'
  obtain ⟨hstart, hend⟩ := (yearOfEra_eq_iff h h' hlow hhigh).1 rfl
  refine ⟨hstart, ?_⟩
  generalize yearOfEra day = y at *
  unfold yearStart at *
  omega

/-! ### Days of a year -/

/-- The day number of a day of a year that begins in March. -/
def ofMarch (year dayOfYear : ℤ) : Date :=
  ⟨year / 400 * 146097 + (yearStart (year % 400) + dayOfYear) - 719468⟩

/-- Years that begin in March have 365 days, and one more if they end in a leap year. -/
structure IsDayOfYear (year dayOfYear : ℤ) : Prop where
  nonneg : 0 ≤ dayOfYear
  le : dayOfYear ≤ 365
  leap : dayOfYear = 365 → Civil.isLeap (year + 1) = true

theorem IsDayOfYear.lt {year day : ℤ} (h : IsDayOfYear year day) :
    yearStart (year % 400) + day ≤ 146096 ∧
      (year % 400 < 399 → yearStart (year % 400) + day < yearStart (year % 400 + 1)) := by
  have hnonneg := h.nonneg
  have hle := h.le
  have hleap := h.leap
  simp only [Civil.isLeap, Bool.and_eq_true, Bool.or_eq_true, decide_eq_true_eq] at hleap
  unfold yearStart
  omega

end Date

namespace Civil

/-- The year that a date is in, and its day in that year, when years begin in March. -/
def marchYear (c : Civil) : ℤ := if c.month ≤ 2 then c.year - 1 else c.year

def marchDay (c : Civil) : ℤ :=
  (153 * (if c.month ≤ 2 then (c.month : ℤ) + 9 else c.month - 3) + 2) / 5 + c.day - 1

/-- The month and day of a day of a year that begins in March. Thirty days and a fraction of three
fifths to a month give months of 31 and 30 days in the right order. -/
def ofMarch (year dayOfYear : ℤ) : Civil :=
  let fromMarch := (5 * dayOfYear + 2) / 153
  let month := if fromMarch < 10 then fromMarch + 3 else fromMarch - 9
  ⟨if month ≤ 2 then year + 1 else year, month.toNat,
    (dayOfYear - (153 * fromMarch + 2) / 5 + 1).toNat⟩

theorem ofMarch_spring {year day : ℤ} (h : (5 * day + 2) / 153 < 10) (h' : 0 ≤ day) :
    ofMarch year day = ⟨year, ((5 * day + 2) / 153 + 3).toNat,
      (day - (153 * ((5 * day + 2) / 153) + 2) / 5 + 1).toNat⟩ := by
  have hlarge : ¬ (5 * day + 2) / 153 + 3 ≤ 2 := by omega
  simp only [ofMarch, if_pos h, if_neg hlarge]

theorem ofMarch_winter {year day : ℤ} (h : 10 ≤ (5 * day + 2) / 153) (h' : day ≤ 365) :
    ofMarch year day = ⟨year + 1, ((5 * day + 2) / 153 - 9).toNat,
      (day - (153 * ((5 * day + 2) / 153) + 2) / 5 + 1).toNat⟩ := by
  have hsmall : (5 * day + 2) / 153 - 9 ≤ 2 := by omega
  simp only [ofMarch, if_neg (not_lt.2 h), if_pos hsmall]

theorem march_ofMarch (year : ℤ) {day : ℤ} (h : 0 ≤ day) (h' : day ≤ 365) :
    (ofMarch year day).marchYear = year ∧ (ofMarch year day).marchDay = day := by
  by_cases hspring : (5 * day + 2) / 153 < 10
  · have hmonth : ¬ ((5 * day + 2) / 153 + 3).toNat ≤ 2 := by omega
    rw [ofMarch_spring hspring h]
    simp only [marchYear, marchDay, if_neg hmonth, true_and]
    omega
  · have hmonth : ((5 * day + 2) / 153 - 9).toNat ≤ 2 := by omega
    rw [ofMarch_winter (not_lt.1 hspring) h']
    simp only [marchYear, marchDay, if_pos hmonth]
    omega

theorem ofMarch_march {c : Civil} (h : c.isReal = true) :
    ofMarch c.marchYear c.marchDay = c ∧ Date.IsDayOfYear c.marchYear c.marchDay := by
  rcases c with ⟨year, month, day⟩
  simp only [isReal, Bool.and_eq_true, decide_eq_true_eq] at h
  obtain ⟨⟨⟨⟨-, hlow⟩, hhigh⟩, hday⟩, hlength⟩ := h
  by_cases hspring : month ≤ 2
  · have hlength' : day ≤ 31 ∧ (month = 2 → day ≤ 29 ∧ (day = 29 → isLeap year = true)) := by
      unfold monthLength at hlength
      split_ifs at hlength <;> grind
    have hmarch : marchYear ⟨year, month, day⟩ = year - 1 ∧
        marchDay ⟨year, month, day⟩ = (153 * (month + 9) + 2) / 5 + day - 1 := by
      simp only [marchYear, marchDay, if_pos hspring, and_self]
    rw [hmarch.1, hmarch.2]
    refine ⟨?_, ⟨by omega, by omega, fun hlast => ?_⟩⟩
    · have hfromMarch : (5 * ((153 * ((month : ℤ) + 9) + 2) / 5 + day - 1) + 2) / 153 =
          month + 9 := by
        interval_cases month <;> omega
      rw [ofMarch_winter (by omega) (by omega), hfromMarch, mk.injEq]
      omega
    · rw [sub_add_cancel]
      exact (hlength'.2 (by omega)).2 (by omega)
  · have hlength' : day ≤ 31 ∧ (month = 4 ∨ month = 6 ∨ month = 9 ∨ month = 11 → day ≤ 30) := by
      unfold monthLength at hlength
      split_ifs at hlength <;> omega
    have hmarch : marchYear ⟨year, month, day⟩ = year ∧
        marchDay ⟨year, month, day⟩ = (153 * (month - 3) + 2) / 5 + day - 1 := by
      simp only [marchYear, marchDay, if_neg hspring, and_self]
    rw [hmarch.1, hmarch.2]
    refine ⟨?_, ⟨by omega, by omega, fun hlast => by omega⟩⟩
    have hfromMarch : (5 * ((153 * ((month : ℤ) - 3) + 2) / 5 + day - 1) + 2) / 153 =
        month - 3 := by
      interval_cases month <;> omega
    rw [ofMarch_spring (by omega) (by omega), hfromMarch, mk.injEq]
    omega

end Civil

namespace Date

/-! ### Year, month and day -/

theorem ofCivil_eq (c : Civil) : ofCivil c = ofMarch c.marchYear c.marchDay := by
  have hday : (ofCivil c).day = c.marchYear / 400 * 146097 +
      (c.marchYear % 400 * 365 + c.marchYear % 400 / 4 - c.marchYear % 400 / 100 + c.marchDay) -
      719468 := rfl
  refine congrArg Date.mk (hday.trans ?_)
  unfold yearStart
  omega

/-- A date is that of a day of a year. -/
theorem exists_ofMarch (d : Date) : ∃ year day : ℤ, 0 ≤ day ∧ day ≤ 365 ∧ d = ofMarch year day ∧
    d.civil = Civil.ofMarch year day := by
  have hday : 0 ≤ (d.day + 719468) % 146097 ∧ (d.day + 719468) % 146097 ≤ 146096 := by omega
  obtain ⟨hlow, hhigh⟩ := yearOfEra_bounds hday.1 hday.2
  obtain ⟨hstart, hend⟩ := dayOfYear_bounds hday.1 hday.2
  refine ⟨yearOfEra ((d.day + 719468) % 146097) + (d.day + 719468) / 146097 * 400,
    (d.day + 719468) % 146097 - yearStart (yearOfEra ((d.day + 719468) % 146097)), by omega,
    by omega, ?_, rfl⟩
  generalize yearOfEra ((d.day + 719468) % 146097) = y at *
  have hyear : (y + (d.day + 719468) / 146097 * 400) % 400 = y := by omega
  have hera : (y + (d.day + 719468) / 146097 * 400) / 400 = (d.day + 719468) / 146097 := by omega
  rw [ofMarch, hyear, hera]
  exact congrArg Date.mk (by omega : d.day = _)

/-- Every date is that of its year, month and day. -/
theorem ofCivil_civil (d : Date) : ofCivil d.civil = d := by
  obtain ⟨year, day, hlow, hhigh, hd, hcivil⟩ := d.exists_ofMarch
  obtain ⟨hyear, hday⟩ := Civil.march_ofMarch year hlow hhigh
  rw [hcivil, ofCivil_eq, hyear, hday, hd]

theorem civil_ofMarch {year day : ℤ} (h : IsDayOfYear year day) :
    (ofMarch year day).civil = Civil.ofMarch year day := by
  obtain ⟨hlast, hend⟩ := h.lt
  have hstart : 0 ≤ yearStart (year % 400) := by unfold yearStart; omega
  have hnonneg := h.nonneg
  have hcivil : (ofMarch year day).civil =
      Civil.ofMarch
        (yearOfEra (((ofMarch year day).day + 719468) % 146097) +
          ((ofMarch year day).day + 719468) / 146097 * 400)
        (((ofMarch year day).day + 719468) % 146097 -
          yearStart (yearOfEra (((ofMarch year day).day + 719468) % 146097))) := rfl
  have hday : (ofMarch year day).day + 719468 =
      year / 400 * 146097 + (yearStart (year % 400) + day) := by
    simp only [ofMarch]
    omega
  have hera : (year / 400 * 146097 + (yearStart (year % 400) + day)) % 146097 =
      yearStart (year % 400) + day := by omega
  have hera' : (year / 400 * 146097 + (yearStart (year % 400) + day)) / 146097 = year / 400 := by
    omega
  have hyear : yearOfEra (yearStart (year % 400) + day) = year % 400 :=
    (yearOfEra_eq_iff (by omega) hlast (by omega) (by omega)).2 ⟨by omega, hend⟩
  rw [hcivil, hday, hera, hera', hyear, add_sub_cancel_left]
  congr 1
  omega

/-- The date of a year, month and day has them. -/
theorem civil_ofCivil {c : Civil} (h : c.isReal = true) : (ofCivil c).civil = c := by
  obtain ⟨hc, hday⟩ := Civil.ofMarch_march h
  rw [ofCivil_eq, civil_ofMarch hday, hc]

end Date

end Footage
