import WeekGrid.Civil.Date

/-!
Weeks and day numbers. A day number is the number of the date that is made of it, and the day of a week that
is looked up by year, number and weekday is in that week.
-/
namespace WeekGrid

open Civil

namespace Date

theorem daysBeforeYear_cycles (n c f y : Nat) (hc : c ≤ 3) (hf : f ≤ 24) (hy : y ≤ 3) :
    daysBeforeYear (400 * n + 100 * c + 4 * f + y + 1) = 146097 * n + 36524 * c + 1461 * f + 365 * y := by
  have hfour : (400 * n + 100 * c + 4 * f + y) / 4 = 100 * n + 25 * c + f := by omega
  have hcentury : (400 * n + 100 * c + 4 * f + y) / 100 = 4 * n + c := by omega
  have hcycle : (400 * n + 100 * c + 4 * f + y) / 400 = n := by omega
  simp only [daysBeforeYear, Nat.add_sub_cancel, hfour, hcentury, hcycle]
  omega

theorem daysBeforeYear_yearOf_lt {number : Nat} (h : 0 < number) :
    daysBeforeYear (yearOf number) < number := by
  have hlast : (number - 1) % 146097 < 146097 := Nat.mod_lt _ (by decide)
  simp only [yearOf]
  generalize hinCycle : (number - 1) % 146097 = inCycle at hlast
  generalize hcenturies : min 3 (inCycle / 36524) = centuries
  generalize hinCentury : inCycle - centuries * 36524 = inCentury
  have hcentury : centuries ≤ 3 ∧ 36524 * centuries ≤ inCycle ∧ inCentury ≤ 36524 := by omega
  rw [daysBeforeYear_cycles _ _ _ _ hcentury.1 (by omega) (by omega)]
  omega

/-- The days that are passed over by going through the months are those before the month that is reached. -/
theorem monthAndDay_spec (lengths : List Nat) (month day : Nat) :
    month ≤ (monthAndDay lengths month day).1 ∧
      ((lengths.take ((monthAndDay lengths month day).1 - month)).foldr (· + ·) 0) +
        (monthAndDay lengths month day).2 = day := by
  induction lengths generalizing month day with
  | nil => simp [monthAndDay]
  | cons length rest ih =>
    rw [monthAndDay]
    by_cases hday : day ≤ length
    · simp [if_pos hday]
    · rw [if_neg hday]
      obtain ⟨hle, hsum⟩ := ih (month + 1) (day - length)
      generalize monthAndDay rest (month + 1) (day - length) = reached at hle hsum
      have hstep : reached.1 - month = (reached.1 - (month + 1)) + 1 := by omega
      rw [hstep, List.take_succ_cons, List.foldr_cons]
      omega

theorem dayNumber_of_ofDayNumber? {number : Nat} {d : Date} (hpos : 0 < number)
    (h : ofDayNumber? number = some d) : d.dayNumber = number := by
  have hyear := daysBeforeYear_yearOf_lt hpos
  obtain ⟨hmonth, hday⟩ := monthAndDay_spec (monthLengths (yearOf number)) 1
    (number - daysBeforeYear (yearOf number))
  simp only [ofDayNumber?, make?] at h
  split at h
  · cases h
    simp only [dayNumber, dayOfYear, daysBeforeMonth]
    omega
  · cases h

theorem dayNumber_pos (d : Date) : 0 < d.dayNumber := by
  have hday : 1 ≤ d.day := d.isDate.2.2.1
  unfold dayNumber dayOfYear
  omega

theorem thursdayNumber_eq (d : Date) : d.thursdayNumber = 7 * ((d.dayNumber - 1) / 7) + 4 := by
  have hpos := d.dayNumber_pos
  unfold thursdayNumber isoWeekday
  omega

theorem ofIsoWeek?_eq (d : Date) {weekday : Nat} (h : 1 ≤ weekday) :
    ofIsoWeek? d.isoYear d.isoWeek weekday = ofDayNumber? (7 * ((d.dayNumber - 1) / 7) + weekday) := by
  have hthursday := d.thursdayNumber_eq
  have hyear : daysBeforeYear d.isoYear < d.thursdayNumber := daysBeforeYear_yearOf_lt (by omega)
  have hweek : d.isoWeek = (d.thursdayNumber - daysBeforeYear d.isoYear - 1) / 7 + 1 := rfl
  simp only [ofIsoWeek?]
  congr 1
  omega

/-- Two dates in one week: it belongs to one year, and has one number there. -/
structure SameWeek (d e : Date) : Prop where
  isoYear : d.isoYear = e.isoYear
  isoWeek : d.isoWeek = e.isoWeek

theorem sameWeek_of_ofIsoWeek? {d e : Date} {weekday : Nat} (hfirst : 1 ≤ weekday) (hlast : weekday ≤ 7)
    (h : ofIsoWeek? d.isoYear d.isoWeek weekday = some e) : e.SameWeek d ∧ e.isoWeekday = weekday := by
  rw [d.ofIsoWeek?_eq hfirst] at h
  have hnumber : e.dayNumber = 7 * ((d.dayNumber - 1) / 7) + weekday := dayNumber_of_ofDayNumber? (by omega) h
  have hsame : e.thursdayNumber = d.thursdayNumber := by
    rw [thursdayNumber_eq, thursdayNumber_eq, hnumber]
    omega
  refine ⟨⟨by unfold isoYear; rw [hsame], by unfold isoWeek isoYear; rw [hsame]⟩, ?_⟩
  unfold isoWeekday
  omega

end Date
end WeekGrid
