import WeekGrid.Proofs.Civil.Week

/-!
The extent of the calendar. Every day number from 1 up to that of 31 December 9999 is the number of a date, so
a day is missing from the week of a date only if it lies after that day.
-/
namespace WeekGrid

open Civil

namespace Date

theorem div_eq_pred_div {year : Nat} (h : 0 < year) (n : Nat) :
    year / n = (year - 1) / n + if year % n = 0 then 1 else 0 := by
  obtain ⟨past, rfl⟩ : ∃ past, year = past + 1 := ⟨year - 1, by omega⟩
  rw [Nat.add_sub_cancel, Nat.succ_div]
  simp only [Nat.dvd_iff_mod_eq_zero]

def daysInYear (year : Nat) : Nat := if isLeap year then 366 else 365

theorem le_daysInYear (year : Nat) : 365 ≤ daysInYear year := by
  unfold daysInYear
  split <;> decide

theorem daysBeforeYear_succ {year : Nat} (h : 0 < year) :
    daysBeforeYear (year + 1) = daysBeforeYear year + daysInYear year := by
  have hfour := div_eq_pred_div h 4
  have hcentury := div_eq_pred_div h 100
  have hcycle := div_eq_pred_div h 400
  simp only [daysBeforeYear, Nat.add_sub_cancel, daysInYear, isLeap]
  by_cases h4 : year % 4 = 0
  · by_cases h100 : year % 100 = 0
    · by_cases h400 : year % 400 = 0
      · simp [h4, h100, h400] at hfour hcentury hcycle ⊢
        omega
      · simp [h4, h100, h400] at hfour hcentury hcycle ⊢
        omega
    · have h400 : ¬ year % 400 = 0 := by omega
      simp [h4, h100, h400] at hfour hcentury hcycle ⊢
      omega
  · have h100 : ¬ year % 100 = 0 := by omega
    have h400 : ¬ year % 400 = 0 := by omega
    simp [h4, h100, h400] at hfour hcentury hcycle ⊢
    omega

theorem daysBeforeYear_mono {year later : Nat} (hpos : 0 < year) (h : year ≤ later) :
    daysBeforeYear year ≤ daysBeforeYear later := by
  induction h with
  | refl => exact Nat.le_refl _
  | @step later hle ih =>
    rw [daysBeforeYear_succ (Nat.lt_of_lt_of_le hpos hle)]
    exact Nat.le_trans ih (Nat.le_add_right _ _)

theorem le_daysBeforeYear_succ_yearOf {number : Nat} (h : 0 < number) :
    number ≤ daysBeforeYear (yearOf number + 1) := by
  have hpos : 0 < yearOf number := Nat.succ_pos _
  rw [daysBeforeYear_succ hpos]
  have hlast : (number - 1) % 146097 < 146097 := Nat.mod_lt _ (by decide)
  simp only [yearOf]
  generalize hcycles : (number - 1) / 146097 = cycles
  generalize hinCycle : (number - 1) % 146097 = inCycle at hlast
  generalize hcenturies : min 3 (inCycle / 36524) = centuries
  generalize hinCentury : inCycle - centuries * 36524 = inCentury
  generalize hfours : inCentury / 1461 = fours
  generalize hinFour : inCentury % 1461 = inFour
  generalize hyears : min 3 (inFour / 365) = years
  have hnumber : number = 146097 * cycles + 36524 * centuries + 1461 * fours + inFour + 1 := by omega
  have hbounds : centuries ≤ 3 ∧ fours ≤ 24 ∧ years ≤ 3 ∧ inFour ≤ 365 * years + 365 := by omega
  have hshort : inFour = 365 * years + 365 → years = 3 ∧ (fours = 24 → centuries = 3) := by omega
  rw [daysBeforeYear_cycles _ _ _ _ hbounds.1 hbounds.2.1 hbounds.2.2.1]
  by_cases hleap : inFour = 365 * years + 365
  · obtain ⟨rfl, hcentury⟩ := hshort hleap
    have hdays : daysInYear (400 * cycles + 100 * centuries + 4 * fours + 3 + 1) = 366 := by
      refine if_pos ?_
      simp only [isLeap, Bool.and_eq_true, Bool.or_eq_true, bne_iff_ne, beq_iff_eq]
      omega
    omega
  · have hdays := le_daysInYear (400 * cycles + 100 * centuries + 4 * fours + years + 1)
    omega

theorem sum_monthLengths (year : Nat) : (monthLengths year).foldr (· + ·) 0 = daysInYear year := by
  unfold monthLengths daysInYear
  cases isLeap year <;> rfl

theorem monthAndDay_within {lengths : List Nat} (month : Nat) {day : Nat} (hpos : 1 ≤ day)
    (hday : day ≤ lengths.foldr (· + ·) 0) :
    ∃ i, (monthAndDay lengths month day).1 = month + i ∧ 1 ≤ (monthAndDay lengths month day).2 ∧
      (monthAndDay lengths month day).2 ≤ lengths.getD i 0 := by
  induction lengths generalizing month day with
  | nil => exact absurd (Nat.le_trans hpos hday) (by decide)
  | cons length rest ih =>
    rw [monthAndDay]
    by_cases hlength : day ≤ length
    · rw [if_pos hlength]
      exact ⟨0, rfl, hpos, hlength⟩
    · rw [if_neg hlength]
      rw [List.foldr_cons] at hday
      have hleft : 1 ≤ day - length := by omega
      obtain ⟨i, hmonth, hfirst, hlast⟩ := ih (month + 1) hleft (by omega)
      exact ⟨i + 1, by omega, hfirst, hlast⟩

/-- How many days the calendar has. -/
def lastNumber : Nat := 3652059

theorem exists_ofDayNumber? {number : Nat} (hpos : 0 < number) (hlast : number ≤ lastNumber) :
    ∃ d, ofDayNumber? number = some d := by
  have hyear : yearOf number ≤ 9999 := by
    refine Nat.le_of_not_lt fun hlate => ?_
    have hmono := daysBeforeYear_mono (by decide) hlate
    have hbefore := daysBeforeYear_yearOf_lt hpos
    have hten : daysBeforeYear 10000 = lastNumber := by decide
    rw [Nat.succ_eq_add_one, hten] at hmono
    omega
  have hafter := daysBeforeYear_yearOf_lt hpos
  have hwithin := le_daysBeforeYear_succ_yearOf hpos
  have hyearPos : 0 < yearOf number := Nat.succ_pos _
  rw [daysBeforeYear_succ hyearPos, ← sum_monthLengths] at hwithin
  have hfirst : 1 ≤ number - daysBeforeYear (yearOf number) := by omega
  have hdays : number - daysBeforeYear (yearOf number) ≤ (monthLengths (yearOf number)).foldr (· + ·) 0 := by
    omega
  obtain ⟨i, hmonth, hday, hlength⟩ := monthAndDay_within 1 hfirst hdays
  generalize hreached : monthAndDay (monthLengths (yearOf number)) 1
    (number - daysBeforeYear (yearOf number)) = reached at hmonth hday hlength
  have hmonthLength : reached.2 ≤ monthLength (yearOf number) reached.1 := by
    rw [hmonth, monthLength, if_neg (by omega), Nat.add_sub_cancel_left]
    exact hlength
  refine ⟨⟨yearOf number, reached.1, reached.2, hyearPos, hyear, hday, hmonthLength⟩, ?_⟩
  simp only [ofDayNumber?, hreached, make?]
  exact dif_pos ⟨hyearPos, hyear, hday, hmonthLength⟩

theorem take_add_getD_le (lengths : List Nat) (i : Nat) :
    (lengths.take i).foldr (· + ·) 0 + lengths.getD i 0 ≤ lengths.foldr (· + ·) 0 := by
  induction lengths generalizing i with
  | nil => simp
  | cons length rest ih =>
    cases i with
    | zero => simp
    | succ i =>
      have hrest := ih i
      simp only [List.take_succ_cons, List.foldr_cons, List.getD_cons_succ]
      omega

theorem dayNumber_le_lastNumber (d : Date) : d.dayNumber ≤ lastNumber := by
  obtain ⟨year, month, day, hpos, hyear, hday, hlength⟩ := d
  have hmonths := take_add_getD_le (monthLengths year) (month - 1)
  have hnext := daysBeforeYear_succ hpos
  have hmono : daysBeforeYear (year + 1) ≤ daysBeforeYear (9999 + 1) :=
    daysBeforeYear_mono (Nat.succ_pos year) (Nat.succ_le_succ hyear)
  have hlast : daysBeforeYear (9999 + 1) = lastNumber := by decide
  have hmonth : day ≤ (monthLengths year).getD (month - 1) 0 := by
    unfold monthLength at hlength
    split at hlength <;> omega
  rw [sum_monthLengths] at hmonths
  simp only [dayNumber, dayOfYear, daysBeforeMonth]
  omega

theorem ofDayNumber?_eq_none_iff {number : Nat} (hpos : 0 < number) :
    ofDayNumber? number = none ↔ lastNumber < number := by
  constructor
  · intro hnone
    refine Nat.lt_of_not_le fun hle => ?_
    obtain ⟨d, hd⟩ := exists_ofDayNumber? hpos hle
    rw [hnone] at hd
    cases hd
  · intro hbeyond
    cases hd : ofDayNumber? number with
    | none => rfl
    | some d =>
      have hnumber := dayNumber_of_ofDayNumber? hpos hd
      have hle := d.dayNumber_le_lastNumber
      omega

/-- The number of a day of the week that a date lies in, also where the calendar ends before that day. -/
def numberInWeek (d : Date) (weekday : Nat) : Nat := d.dayNumber + weekday - d.isoWeekday

theorem numberInWeek_eq (d : Date) (weekday : Nat) :
    d.numberInWeek weekday = 7 * ((d.dayNumber - 1) / 7) + weekday := by
  have hpos := d.dayNumber_pos
  unfold numberInWeek isoWeekday
  omega

theorem ofIsoWeek?_eq_none_iff (d : Date) {weekday : Nat} (hfirst : 1 ≤ weekday) :
    ofIsoWeek? d.isoYear d.isoWeek weekday = none ↔ lastNumber < d.numberInWeek weekday := by
  rw [d.ofIsoWeek?_eq hfirst, ← d.numberInWeek_eq]
  exact ofDayNumber?_eq_none_iff (by rw [numberInWeek_eq]; omega)

theorem dayNumber_of_ofIsoWeek? {d e : Date} {weekday : Nat} (hfirst : 1 ≤ weekday)
    (h : ofIsoWeek? d.isoYear d.isoWeek weekday = some e) : e.dayNumber = d.numberInWeek weekday := by
  rw [d.ofIsoWeek?_eq hfirst, ← d.numberInWeek_eq] at h
  exact dayNumber_of_ofDayNumber? (by rw [numberInWeek_eq]; omega) h

theorem numberInWeek_near (d : Date) {weekday : Nat} (hfirst : 1 ≤ weekday) (hlast : weekday ≤ 7) :
    d.numberInWeek weekday < d.dayNumber + 7 ∧ d.dayNumber < d.numberInWeek weekday + 7 := by
  have hpos := d.dayNumber_pos
  rw [numberInWeek_eq]
  omega

def last : Date := ⟨9999, 12, 31, by decide⟩

theorem dayNumber_last : last.dayNumber = lastNumber := by decide

def lastMonday : Date := ⟨9999, 12, 27, by decide⟩

/-- From Monday to Saturday, the only day that can be missing from the week of a date is the Saturday of the
week in which the calendar ends on a Friday. -/
theorem last_of_ofIsoWeek?_eq_none {d : Date} {weekday : Nat} (hfirst : 1 ≤ weekday) (hlast : weekday ≤ 6)
    (h : ofIsoWeek? d.isoYear d.isoWeek weekday = none) :
    lastMonday.dayNumber ≤ d.dayNumber ∧ weekday = 6 := by
  rw [d.ofIsoWeek?_eq_none_iff hfirst, numberInWeek_eq] at h
  have hpos := d.dayNumber_pos
  have hle := d.dayNumber_le_lastNumber
  have hmonday : lastMonday.dayNumber = 3652055 := by decide
  unfold lastNumber at h hle
  omega

end Date
end WeekGrid
