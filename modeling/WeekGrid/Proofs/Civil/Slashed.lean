import Mathlib.Data.List.Basic
import Mathlib.Data.List.Induction
import WeekGrid.Civil.Reading
import WeekGrid.Proofs.Civil.Written
import WeekGrid.Text.Front

/-!
Dates with slashes. Where the digits of a text `dd/mm/yyyy` are those of ASCII, reading the text as a date is the
inverse of writing a date with all its zeros; only a text that no date is written as is not read.
-/
namespace WeekGrid

namespace Text

def asciiDigits : List Char := ['0', '1', '2', '3', '4', '5', '6', '7', '8', '9']

theorem mem_asciiDigits_of_range {c : Char} (hfirst : '0' ≤ c) (hlast : c ≤ '9') : c ∈ asciiDigits := by
  have hall : ∀ n < 58, 48 ≤ n → Char.ofNat n ∈ asciiDigits := by decide
  have hmem := hall c.toNat (Nat.lt_succ_of_le hlast) hfirst
  rwa [Char.ofNat_toNat] at hmem

theorem mem_asciiDigits {c : Char} (hdigit : isDigit c) (hascii : c.toNat < 128) : c ∈ asciiDigits := by
  have hrange : '0' ≤ c ∧ c ≤ '9' := by
    refine Decidable.byContradiction fun hnot => ?_
    rw [isDigit, digitValue?, if_pos hascii, if_neg hnot] at hdigit
    cases hdigit
  exact mem_asciiDigits_of_range hrange.1 hrange.2

theorem range_of_mem_asciiDigits {c : Char} (h : c ∈ asciiDigits) :
    48 ≤ c.toNat ∧ c.toNat ≤ 57 ∧ digitValue? c = some (c.toNat - 48) := by
  have hall : (asciiDigits.all fun c => 48 ≤ c.toNat ∧ c.toNat ≤ 57 ∧ digitValue? c = some (c.toNat - 48)) = true := by
    decide
  exact of_decide_eq_true (List.all_eq_true.1 hall c h)

theorem isDigit_of_mem_asciiDigits {c : Char} (h : c ∈ asciiDigits) : isDigit c := by
  rw [isDigit, (range_of_mem_asciiDigits h).2.2]
  rfl

theorem all_isDigit_of_subset {cs : List Char} (h : cs ⊆ asciiDigits) : cs.all isDigit :=
  List.all_eq_true.2 fun _ hc => isDigit_of_mem_asciiDigits (h hc)

theorem digitsValue_append_singleton (cs : List Char) (c : Char) :
    digitsValue (cs ++ [c]) = 10 * digitsValue cs + (digitValue? c).getD 0 := by
  simp [digitsValue]

theorem eq_of_digitsValue_eq {as bs : List Char} (has : as ⊆ asciiDigits) (hbs : bs ⊆ asciiDigits)
    (hlength : as.length = bs.length) (h : digitsValue as = digitsValue bs) : as = bs := by
  induction as using List.reverseRecOn generalizing bs with
  | nil => exact (List.eq_nil_of_length_eq_zero hlength.symm).symm
  | append_singleton as a ih =>
    cases bs using List.reverseRecOn with
    | nil => simp at hlength
    | append_singleton bs b =>
      obtain ⟨has, ha⟩ := List.append_subset.1 has
      obtain ⟨hbs, hb⟩ := List.append_subset.1 hbs
      obtain ⟨haFirst, haLast, haValue⟩ := range_of_mem_asciiDigits (ha (List.mem_singleton_self a))
      obtain ⟨hbFirst, hbLast, hbValue⟩ := range_of_mem_asciiDigits (hb (List.mem_singleton_self b))
      rw [digitsValue_append_singleton, digitsValue_append_singleton, haValue, hbValue, Option.getD_some,
        Option.getD_some] at h
      have hab : a = b := Char.toNat_inj.1 (by omega)
      rw [ih has hbs (by simpa using hlength) (by omega), hab]

end Text

open Text

theorem toDigits_subset (n : Nat) : Nat.toDigits 10 n ⊆ asciiDigits := by
  intro c hc
  have hdigit := Nat.isDigit_of_mem_toDigits (by decide) (by decide) hc
  have hrange : 48 ≤ c.val ∧ c.val ≤ 57 := by simpa [Char.isDigit] using hdigit
  exact mem_asciiDigits_of_range hrange.1 hrange.2

theorem paddedDigits_subset (width n : Nat) : paddedDigits width n ⊆ asciiDigits := by
  intro c hc
  rcases List.mem_append.1 hc with hzero | hdigit
  · rw [List.eq_of_mem_replicate hzero]
    decide
  · exact toDigits_subset n hdigit

theorem digitsValue_eq {cs : List Char} (hcs : cs ⊆ asciiDigits) : digitsValue cs = Nat.ofDigitChars 10 cs 0 := by
  rw [digitsValue, Nat.ofDigitChars_eq_foldl]
  refine List.foldl_ext _ _ _ fun n c hc => ?_
  rw [(range_of_mem_asciiDigits (hcs hc)).2.2]
  rfl

theorem digitsValue_paddedDigits (width n : Nat) : digitsValue (paddedDigits width n) = n := by
  rw [digitsValue_eq (paddedDigits_subset width n), ofDigitChars_paddedDigits]

theorem eq_paddedDigits_iff {cs : List Char} {width n : Nat} (hcs : cs ⊆ asciiDigits) (hlength : cs.length = width)
    (hwidth : 0 < width) (hn : n < 10 ^ width) : cs = paddedDigits width n ↔ digitsValue cs = n := by
  constructor
  · intro h
    rw [h, digitsValue_paddedDigits]
  · intro h
    refine eq_of_digitsValue_eq hcs (paddedDigits_subset width n) ?_ ?_
    · rw [hlength, length_paddedDigits hwidth hn]
    · rw [h, digitsValue_paddedDigits]

namespace Civil

theorem twoDigits_append (tens : Char) (ones : Char → Bool) (a b : Char) (rest : List Char) :
    twoDigits tens ones (a :: b :: rest) = (twoDigits tens ones [a, b]).map fun r => (r.1, r.2 ++ rest) := by
  simp only [twoDigits]
  split <;> rfl

theorem oneDigit_append (accept : Char → Bool) (a b : Char) (rest : List Char) :
    oneDigit accept (a :: b :: rest) = (oneDigit accept [a, b]).map fun r => (r.1, r.2 ++ rest) := by
  simp only [oneDigit]
  split <;> rfl

/-- A part that reads a number between two limits from two digits, or else leaves the second of them. -/
structure ReadsWithin (part : Part) (low high : Nat) : Prop where
  append : ∀ a b rest, part.readings (a :: b :: rest) = (part.readings [a, b]).map fun r => (r.1, r.2 ++ rest)
  readings : ∀ a ∈ asciiDigits, ∀ b ∈ asciiDigits, part.readings [a, b] =
    (if low ≤ digitsValue [a, b] ∧ digitsValue [a, b] ≤ high then [(digitsValue [a, b], [])] else []) ++
      (part.readings [a, b]).filter fun r => r.2 = [b]

theorem readsWithin_day : ReadsWithin .day 1 31 where
  append := by
    intro a b rest
    simp only [Part.readings, twoDigits_append _ _ a b rest, oneDigit_append _ a b rest, List.map_append]
  readings := by
    intro a ha b hb
    obtain ⟨x, rfl⟩ := List.get_of_mem ha
    obtain ⟨y, rfl⟩ := List.get_of_mem hb
    revert x y
    decide

theorem readsWithin_month : ReadsWithin .month 1 12 where
  append := by
    intro a b rest
    simp only [Part.readings, twoDigits_append _ _ a b rest, oneDigit_append _ a b rest, List.map_append]
  readings := by
    intro a ha b hb
    obtain ⟨x, rfl⟩ := List.get_of_mem ha
    obtain ⟨y, rfl⟩ := List.get_of_mem hb
    revert x y
    decide

/-- Where the next part cannot begin with a digit, a number is read from both its digits or not at all. -/
theorem ReadsWithin.readings_cons {part next : Part} {low high : Nat} (h : ReadsWithin part low high)
    (parts : List Part) {a b : Char} (ha : a ∈ asciiDigits) (hb : b ∈ asciiDigits) {rest : List Char}
    (hstop : next.readings (b :: rest) = []) :
    Civil.readings (part :: next :: parts) (a :: b :: rest) =
      if low ≤ digitsValue [a, b] ∧ digitsValue [a, b] ≤ high then
        (Civil.readings (next :: parts) rest).map fun r => (digitsValue [a, b] :: r.1, r.2)
      else [] := by
  have hsingle : ∀ r ∈ (part.readings [a, b]).filter fun r => r.2 = [b],
      ((Civil.readings (next :: parts) (r.2 ++ rest)).map fun s => (r.1 :: s.1, s.2)) = [] := by
    intro r hr
    have hleft : r.2 = [b] := of_decide_eq_true (List.mem_filter.1 hr).2
    rw [hleft, Civil.readings, List.singleton_append, hstop]
    rfl
  rw [Civil.readings, h.append, List.flatMap_map, h.readings a ha b hb, List.flatMap_append,
    List.flatMap_eq_nil_iff.2 hsingle, List.append_nil]
  split <;> simp

theorem readings_mark_stop {c b : Char} (hc : isDigit c = false) (hb : isDigit b) (rest : List Char) :
    (Part.mark c).readings (b :: rest) = [] := by
  refine if_neg ?_
  rintro rfl
  exact absurd hb (by rw [hc]; decide)

theorem readings_mark (c : Char) (parts : List Part) (rest : List Char) :
    readings (.mark c :: parts) (c :: rest) = (readings parts rest).map fun r => (0 :: r.1, r.2) := by
  simp [readings, Part.readings]

theorem ReadsWithin.readings_mark {part : Part} {low high : Nat} (h : ReadsWithin part low high) {c : Char}
    (hc : isDigit c = false) (parts : List Part) {a b : Char} (ha : a ∈ asciiDigits) (hb : b ∈ asciiDigits)
    (rest : List Char) :
    Civil.readings (part :: .mark c :: parts) (a :: b :: c :: rest) =
      if low ≤ digitsValue [a, b] ∧ digitsValue [a, b] ≤ high then
        (Civil.readings parts rest).map fun r => (digitsValue [a, b] :: 0 :: r.1, r.2)
      else [] := by
  rw [h.readings_cons parts ha hb (readings_mark_stop hc (isDigit_of_mem_asciiDigits hb) _), Civil.readings_mark,
    List.map_map]
  rfl

theorem readings_year {year : List Char} (hyear : year.all isDigit) (hlength : year.length = 4) (parts : List Part)
    (rest : List Char) :
    readings (.year :: parts) (year ++ rest) = (readings parts rest).map fun r => (digitsValue year :: r.1, r.2) := by
  have htake : (year ++ rest).take 4 = year := by rw [← hlength, List.take_left]
  have hdrop : (year ++ rest).drop 4 = rest := by rw [← hlength, List.drop_left]
  simp [readings, Part.readings, yearReading, htake, hdrop, hlength, hyear]

end Civil

namespace Date

/-- The text `dd/mm/yyyy`, the year with four digits too. -/
def slashedPadded (d : Date) : List Char :=
  paddedDigits 2 d.day ++ '/' :: paddedDigits 2 d.month ++ '/' :: paddedDigits 4 d.year

theorem make?_eq_some_iff {year month day : Nat} {d : Date} :
    make? year month day = some d ↔ year = d.year ∧ month = d.month ∧ day = d.day := by
  unfold make?
  constructor
  · intro h
    split at h
    · cases h
      exact ⟨rfl, rfl, rfl⟩
    · cases h
  · rintro ⟨rfl, rfl, rfl⟩
    rw [dif_pos d.isDate]

end Date

namespace Civil

theorem hasShape_date_iff {text : List Char} :
    hasShape "dd/dd/dddd".toList text ↔ ∃ day month year : List Char, text = day ++ '/' :: (month ++ '/' :: year) ∧
      (day.length = 2 ∧ month.length = 2 ∧ year.length = 4) ∧
      day.all isDigit ∧ month.all isDigit ∧ year.all isDigit := by
  have hpattern : "dd/dd/dddd".toList = List.replicate 2 'd' ++ '/' :: (List.replicate 2 'd' ++
      '/' :: (List.replicate 4 'd' ++ [])) := by decide
  rw [hpattern]
  constructor
  · intro h
    obtain ⟨day, _, rfl, hday, hdays, h⟩ := hasShape_digits_iff.1 h
    obtain ⟨_, rfl, h⟩ := (hasShape_mark_iff (by decide)).1 h
    obtain ⟨month, _, rfl, hmonth, hmonths, h⟩ := hasShape_digits_iff.1 h
    obtain ⟨_, rfl, h⟩ := (hasShape_mark_iff (by decide)).1 h
    obtain ⟨year, rest, rfl, hyear, hyears, h⟩ := hasShape_digits_iff.1 h
    obtain rfl : rest = [] := List.eq_nil_of_length_eq_zero (length_of_hasShape h)
    exact ⟨day, month, year, by simp, ⟨hday, hmonth, hyear⟩, hdays, hmonths, hyears⟩
  · rintro ⟨day, month, year, rfl, ⟨hday, hmonth, hyear⟩, hdays, hmonths, hyears⟩
    refine hasShape_digits_iff.2 ⟨day, _, rfl, hday, hdays, (hasShape_mark_iff (by decide)).2 ⟨_, rfl, ?_⟩⟩
    refine hasShape_digits_iff.2 ⟨month, _, rfl, hmonth, hmonths, (hasShape_mark_iff (by decide)).2 ⟨_, rfl, ?_⟩⟩
    exact hasShape_digits_iff.2 ⟨year, [], (List.append_nil _).symm, hyear, hyears, rfl⟩

theorem readSlashed?_digits {day month year : List Char} (hday : day ⊆ asciiDigits) (hmonth : month ⊆ asciiDigits)
    (hyear : year ⊆ asciiDigits) (hlength : day.length = 2 ∧ month.length = 2 ∧ year.length = 4) :
    readSlashed? (day ++ '/' :: (month ++ '/' :: year)) =
      Date.make? (digitsValue year) (digitsValue month) (digitsValue day) := by
  obtain ⟨a, b, rfl⟩ := List.length_eq_two.1 hlength.1
  obtain ⟨c, e, rfl⟩ := List.length_eq_two.1 hlength.2.1
  have hyears := readings_year (all_isDigit_of_subset hyear) hlength.2.2 [] []
  rw [List.append_nil] at hyears
  have hread : readings [.day, .mark '/', .month, .mark '/', .year] ([a, b] ++ '/' :: ([c, e] ++ '/' :: year)) =
      if 1 ≤ digitsValue [a, b] ∧ digitsValue [a, b] ≤ 31 then
        if 1 ≤ digitsValue [c, e] ∧ digitsValue [c, e] ≤ 12 then
          [([digitsValue [a, b], 0, digitsValue [c, e], 0, digitsValue year], [])]
        else []
      else [] := by
    simp only [List.cons_append, List.nil_append]
    rw [readsWithin_day.readings_mark (by decide) _ (hday (by simp)) (hday (by simp)),
      readsWithin_month.readings_mark (by decide) _ (hmonth (by simp)) (hmonth (by simp)), hyears]
    split <;> [split <;> rfl; rfl]
  have hrange : ∀ {d : Date}, Date.make? (digitsValue year) (digitsValue [c, e]) (digitsValue [a, b]) = some d →
      (1 ≤ digitsValue [a, b] ∧ digitsValue [a, b] ≤ 31) ∧ 1 ≤ digitsValue [c, e] ∧ digitsValue [c, e] ≤ 12 := by
    intro d hd
    obtain ⟨-, hmonth, hday⟩ := Date.make?_eq_some_iff.1 hd
    rw [hday, hmonth]
    exact ⟨⟨d.isDate.2.2.1, d.day_le⟩, d.month_pos, d.month_le⟩
  rw [readSlashed?, readWhole?, hread]
  cases hd : Date.make? (digitsValue year) (digitsValue [c, e]) (digitsValue [a, b]) with
  | some d =>
    obtain ⟨hday, hmonth⟩ := hrange hd
    rw [if_pos hday, if_pos hmonth]
    exact hd
  | none =>
    by_cases hday : 1 ≤ digitsValue [a, b] ∧ digitsValue [a, b] ≤ 31
    · by_cases hmonth : 1 ≤ digitsValue [c, e] ∧ digitsValue [c, e] ≤ 12
      · rw [if_pos hday, if_pos hmonth]
        exact hd
      · rw [if_pos hday, if_neg hmonth]
        rfl
    · rw [if_neg hday]
      rfl

end Civil

namespace Date

theorem length_parts (d : Date) : (paddedDigits 2 d.day).length = 2 ∧ (paddedDigits 2 d.month).length = 2 ∧
    (paddedDigits 4 d.year).length = 4 := by
  obtain ⟨hday, hmonth, hyear⟩ := d.parts_lt
  exact ⟨length_paddedDigits (by decide) hday, length_paddedDigits (by decide) hmonth,
    length_paddedDigits (by decide) hyear⟩

theorem hasShape_slashedPadded (d : Date) : hasShape "dd/dd/dddd".toList d.slashedPadded := by
  have hall : ∀ width n, (paddedDigits width n).all isDigit := fun width n =>
    all_isDigit_of_subset (paddedDigits_subset width n)
  exact Civil.hasShape_date_iff.2 ⟨_, _, _, by simp [slashedPadded], d.length_parts, hall _ _, hall _ _, hall _ _⟩

theorem eq_slashedPadded_iff {day month year : List Char} (hday : day ⊆ asciiDigits) (hmonth : month ⊆ asciiDigits)
    (hyear : year ⊆ asciiDigits) (hlength : day.length = 2 ∧ month.length = 2 ∧ year.length = 4) {d : Date} :
    day ++ '/' :: (month ++ '/' :: year) = d.slashedPadded ↔
      digitsValue year = d.year ∧ digitsValue month = d.month ∧ digitsValue day = d.day := by
  obtain ⟨hdays, hmonths, hyears⟩ := d.length_parts
  obtain ⟨hdayLt, hmonthLt, hyearLt⟩ := d.parts_lt
  rw [← eq_paddedDigits_iff hday hlength.1 (by decide) hdayLt,
    ← eq_paddedDigits_iff hmonth hlength.2.1 (by decide) hmonthLt,
    ← eq_paddedDigits_iff hyear hlength.2.2 (by decide) hyearLt]
  simp only [slashedPadded, List.append_assoc, List.cons_append]
  constructor
  · intro h
    obtain ⟨hday, h⟩ := List.append_inj h (hlength.1.trans hdays.symm)
    obtain ⟨hmonth, h⟩ := List.append_inj (List.cons.inj h).2 (hlength.2.1.trans hmonths.symm)
    exact ⟨(List.cons.inj h).2, hmonth, hday⟩
  · rintro ⟨rfl, rfl, rfl⟩
    rfl

end Date

theorem Civil.readSlashed?_slashedPadded (d : Date) : readSlashed? d.slashedPadded = some d := by
  simp only [Date.slashedPadded, List.append_assoc, List.cons_append]
  rw [readSlashed?_digits (paddedDigits_subset 2 d.day) (paddedDigits_subset 2 d.month)
    (paddedDigits_subset 4 d.year) d.length_parts]
  simp only [digitsValue_paddedDigits]
  exact Date.make?_eq_some_iff.2 ⟨rfl, rfl, rfl⟩

/-- A text of the right shape, with its digits in ASCII, is read as a date exactly if the date is written so. -/
theorem Civil.readSlashed?_eq_some_iff {text : List Char} (hshape : hasShape "dd/dd/dddd".toList text)
    (hascii : ∀ c ∈ text, isDigit c → c.toNat < 128) {d : Date} :
    readSlashed? text = some d ↔ text = d.slashedPadded := by
  obtain ⟨day, month, year, rfl, hlength, hdays, hmonths, hyears⟩ := hasShape_date_iff.1 hshape
  have hsubset : ∀ {cs : List Char}, cs ⊆ day ++ '/' :: (month ++ '/' :: year) → cs.all isDigit →
      cs ⊆ asciiDigits := by
    intro cs hcs hall c hc
    have hdigit := List.all_eq_true.1 hall c hc
    exact mem_asciiDigits hdigit (hascii c (hcs hc) hdigit)
  have hday := hsubset (by intro c hc; simp [hc]) hdays
  have hmonth := hsubset (by intro c hc; simp [hc]) hmonths
  have hyear := hsubset (by intro c hc; simp [hc]) hyears
  rw [readSlashed?_digits hday hmonth hyear hlength, Date.make?_eq_some_iff,
    Date.eq_slashedPadded_iff hday hmonth hyear hlength]

theorem Civil.readSlashed?_eq_none_iff {text : List Char} (hshape : hasShape "dd/dd/dddd".toList text)
    (hascii : ∀ c ∈ text, isDigit c → c.toNat < 128) :
    readSlashed? text = none ↔ ∀ d : Date, text ≠ d.slashedPadded := by
  simp only [Option.eq_none_iff_forall_ne_some, ne_eq, readSlashed?_eq_some_iff hshape hascii]

end WeekGrid
