import Mathlib.Algebra.Group.Nat.Defs
import Mathlib.Data.List.GetD
import WeekGrid.Civil.DateTime

/-!
What the written form of a time tells. The digits of each part are padded to a fixed width, so the date and
the time of day can be read off again. The offset behind them says less than the zone: in the winters from
1911 on, Paris was for decades where universal time is.
-/
namespace WeekGrid

theorem ofDigitChars_paddedDigits (width n : Nat) : Nat.ofDigitChars 10 (paddedDigits width n) 0 = n := by
  simp [paddedDigits, Nat.ofDigitChars_append, Nat.ofDigitChars_replicate_zero, Nat.ofDigitChars_ten_toDigits]

theorem length_paddedDigits {width n : Nat} (hwidth : 0 < width) (h : n < 10 ^ width) :
    (paddedDigits width n).length = width := by
  have hdigits := (Nat.length_toDigits_le_iff (by decide) hwidth).2 h
  simp only [paddedDigits, List.length_append, List.length_replicate]
  omega

theorem paddedDigits_append_inj {width n m : Nat} {rest rest' : List Char} (hwidth : 0 < width)
    (hn : n < 10 ^ width) (hm : m < 10 ^ width)
    (h : paddedDigits width n ++ rest = paddedDigits width m ++ rest') : n = m ∧ rest = rest' := by
  have hlength : (paddedDigits width n).length = (paddedDigits width m).length := by
    rw [length_paddedDigits hwidth hn, length_paddedDigits hwidth hm]
  obtain ⟨hdigits, hrest⟩ := List.append_inj h hlength
  refine ⟨?_, hrest⟩
  rw [← ofDigitChars_paddedDigits width n, hdigits, ofDigitChars_paddedDigits]

namespace Date

theorem month_pos (d : Date) : 1 ≤ d.month := by
  obtain ⟨-, -, hday, hlast⟩ := d.isDate
  refine Nat.pos_of_ne_zero fun hzero => ?_
  rw [Civil.monthLength, if_pos hzero] at hlast
  omega

theorem month_le (d : Date) : d.month ≤ 12 := by
  obtain ⟨-, -, hday, hlast⟩ := d.isDate
  refine Nat.le_of_not_lt fun hmonth => ?_
  have hnone : Civil.monthLength d.year d.month = 0 := by
    rw [Civil.monthLength, if_neg (by omega), List.getD_eq_default]
    simp only [Civil.monthLengths, List.length_cons, List.length_nil]
    omega
  omega

theorem day_le (d : Date) : d.day ≤ 31 := by
  have hlengths : ∀ length ∈ Civil.monthLengths d.year, length ≤ 31 := by
    intro length hlength
    simp only [Civil.monthLengths, List.mem_cons, List.not_mem_nil, or_false] at hlength
    split at hlength <;> omega
  refine Nat.le_trans d.isDate.2.2.2 ?_
  unfold Civil.monthLength
  split
  · exact Nat.zero_le _
  · by_cases hlt : d.month - 1 < (Civil.monthLengths d.year).length
    · rw [List.getD_eq_getElem _ _ hlt]
      exact hlengths _ (List.getElem_mem hlt)
    · rw [List.getD_eq_default _ _ (Nat.le_of_not_lt hlt)]
      exact Nat.zero_le _

theorem parts_lt (d : Date) : d.day < 10 ^ 2 ∧ d.month < 10 ^ 2 ∧ d.year < 10 ^ 4 :=
  ⟨Nat.lt_of_le_of_lt d.day_le (by decide), Nat.lt_of_le_of_lt d.month_le (by decide),
    Nat.lt_succ_of_le d.isDate.2.1⟩

/-- A date can be told from what is written behind it. -/
theorem dashed_append_inj {d e : Date} {rest rest' : List Char}
    (h : d.dashed.toList ++ rest = e.dashed.toList ++ rest') : d = e ∧ rest = rest' := by
  obtain ⟨hdDay, hdMonth, hdYear⟩ := d.parts_lt
  obtain ⟨heDay, heMonth, heYear⟩ := e.parts_lt
  simp only [dashed, String.toList_ofList, List.append_assoc, List.cons_append] at h
  obtain ⟨hyear, h⟩ := paddedDigits_append_inj (by decide) hdYear heYear h
  obtain ⟨hmonth, h⟩ := paddedDigits_append_inj (by decide) hdMonth heMonth (List.cons.inj h).2
  obtain ⟨hday, hrest⟩ := paddedDigits_append_inj (by decide) hdDay heDay (List.cons.inj h).2
  obtain ⟨year, month, day, isDate⟩ := d
  subst hyear hmonth hday
  exact ⟨rfl, hrest⟩

end Date

namespace DateTime

/-- A time on the clock in Paris. -/
structure InParis (t : DateTime) : Prop where
  hour : t.hour < 24
  minute : t.minute < 60
  zone : t.zone = some .paris

theorem inParis_midnight (date : Date) : (midnight date (some .paris)).InParis :=
  ⟨Nat.zero_lt_succ 23, Nat.zero_lt_succ 59, rfl⟩

theorem clock_eq_of_write {separator : Char} {t u : DateTime} (htHour : t.hour < 24) (huHour : u.hour < 24)
    (htMinute : t.minute < 60) (huMinute : u.minute < 60) (h : t.write separator = u.write separator) :
    t.date = u.date ∧ t.hour = u.hour ∧ t.minute = u.minute := by
  have h := congrArg String.toList h
  simp only [write, String.toList_append, String.toList_ofList, List.cons_append, List.append_assoc] at h
  obtain ⟨hdate, h⟩ := Date.dashed_append_inj h
  obtain ⟨hhour, h⟩ := paddedDigits_append_inj (by decide) (by omega) (by omega) (List.cons.inj h).2
  obtain ⟨hminute, -⟩ := paddedDigits_append_inj (by decide) (by omega) (by omega) (List.cons.inj h).2
  exact ⟨hdate, hhour, hminute⟩

theorem InParis.eq_of_write {separator : Char} {t u : DateTime} (ht : t.InParis) (hu : u.InParis)
    (h : t.write separator = u.write separator) : t = u := by
  obtain ⟨hdate, hhour, hminute⟩ := clock_eq_of_write ht.hour hu.hour ht.minute hu.minute h
  have hzone : t.zone = u.zone := ht.zone.trans hu.zone.symm
  cases t
  cases u
  subst hdate hhour hminute hzone
  rfl

end DateTime
end WeekGrid
