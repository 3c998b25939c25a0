import WeekGrid.Proofs.Civil.Slashed

/-!
Time stamps. What a text `yyyy-mm-dd hh:mm` is read as is the time that its digits give. Where they are those of ASCII,
reading is the inverse of writing a time with all its zeros; only a text that no time is written as is not read.
-/
namespace WeekGrid

open Text

namespace DateTime

def stamped (t : DateTime) : List Char :=
  paddedDigits 4 t.date.year ++ '-' :: (paddedDigits 2 t.date.month ++ '-' :: (paddedDigits 2 t.date.day ++
    ' ' :: (paddedDigits 2 t.hour ++ ':' :: paddedDigits 2 t.minute)))

structure IsPlain (t : DateTime) : Prop where
  hour : t.hour ≤ 23
  minute : t.minute ≤ 59
  zone : t.zone = none

end DateTime

namespace Civil

theorem readsWithin_hour : ReadsWithin .hour 0 23 where
  append := by
    intro a b rest
    simp only [Part.readings, twoDigits_append _ _ a b rest, oneDigit_append _ a b rest, List.map_append]
  readings := by
    intro a ha b hb
    obtain ⟨x, rfl⟩ := List.get_of_mem ha
    obtain ⟨y, rfl⟩ := List.get_of_mem hb
    revert x y
    decide

theorem readWhole?_minute {a b : Char} (ha : a ∈ asciiDigits) (hb : b ∈ asciiDigits) :
    readWhole? [.minute] [a, b] = if digitsValue [a, b] ≤ 59 then some [digitsValue [a, b]] else none := by
  obtain ⟨x, rfl⟩ := List.get_of_mem ha
  obtain ⟨y, rfl⟩ := List.get_of_mem hb
  revert x y
  decide

theorem not_blank_of_isDigit {c : Char} (h : isDigit c) : isBlank c = false := by
  rw [Bool.eq_false_iff]
  intro hblank
  have hall : ∀ n ∈ [9, 10, 11, 12, 13, 28, 29, 30, 31, 32, 0x85, 0xA0, 0x1680, 0x2000, 0x2001, 0x2002, 0x2003, 0x2004,
      0x2005, 0x2006, 0x2007, 0x2008, 0x2009, 0x200A, 0x2028, 0x2029, 0x202F, 0x205F, 0x3000],
      isDigit (Char.ofNat n) = false := by decide
  have hnot := hall c.toNat (by
    simp [isBlank] at hblank
    simp only [List.mem_cons, List.not_mem_nil, or_false]
    omega)
  rw [Char.ofNat_toNat, h] at hnot
  cases hnot

theorem readings_blank (parts : List Part) {a : Char} (ha : isDigit a) (rest : List Char) :
    readings (.blanks :: parts) (' ' :: a :: rest) = (readings parts (a :: rest)).map fun r => (0 :: r.1, r.2) := by
  have hspace : isBlank ' ' = true := by decide
  simp [readings, Part.readings, blankRuns, hspace, not_blank_of_isDigit ha]

theorem readings_blank_stop {b : Char} (hb : isDigit b) (rest : List Char) :
    Part.blanks.readings (b :: rest) = [] := by
  simp [Part.readings, blankRuns, not_blank_of_isDigit hb]

theorem readWhole?_of_readings {parts parts' : List Part} {text text' : List Char} {first : List Nat}
    (h : readings parts text = (readings parts' text').map fun r => (first ++ r.1, r.2)) :
    readWhole? parts text = (readWhole? parts' text').map (first ++ ·) := by
  rw [readWhole?, readWhole?, h, List.head?_map]
  cases (readings parts' text').head? with
  | none => rfl
  | some r =>
    obtain ⟨values, left⟩ := r
    cases left <;> rfl

theorem readWhole?_of_readings_eq_nil {parts : List Part} {text : List Char} (h : readings parts text = []) :
    readWhole? parts text = none := by
  rw [readWhole?, h]
  rfl

/-- The parts of a time stamp. -/
structure StampParts where
  year : List Char
  month : List Char
  day : List Char
  hour : List Char
  minute : List Char

namespace StampParts

def text (p : StampParts) : List Char :=
  p.year ++ '-' :: (p.month ++ '-' :: (p.day ++ ' ' :: (p.hour ++ ':' :: p.minute)))

/-- All parts are runs of digits of their length. -/
structure Shaped (p : StampParts) : Prop where
  lengths : p.year.length = 4 ∧ p.month.length = 2 ∧ p.day.length = 2 ∧ p.hour.length = 2 ∧ p.minute.length = 2
  digits : p.year.all isDigit ∧ p.month.all isDigit ∧ p.day.all isDigit ∧ p.hour.all isDigit ∧ p.minute.all isDigit

end StampParts

theorem hasShape_stamp_iff {text : List Char} :
    hasShape "dddd-dd-dd dd:dd".toList text ↔ ∃ p : StampParts, text = p.text ∧ p.Shaped := by
  have hpattern : "dddd-dd-dd dd:dd".toList = List.replicate 4 'd' ++ '-' :: (List.replicate 2 'd' ++ '-' ::
      (List.replicate 2 'd' ++ ' ' :: (List.replicate 2 'd' ++ ':' :: (List.replicate 2 'd' ++ [])))) := by decide
  rw [hpattern]
  constructor
  · intro h
    obtain ⟨year, _, rfl, hyear, hyears, h⟩ := hasShape_digits_iff.1 h
    obtain ⟨_, rfl, h⟩ := (hasShape_mark_iff (by decide)).1 h
    obtain ⟨month, _, rfl, hmonth, hmonths, h⟩ := hasShape_digits_iff.1 h
    obtain ⟨_, rfl, h⟩ := (hasShape_mark_iff (by decide)).1 h
    obtain ⟨day, _, rfl, hday, hdays, h⟩ := hasShape_digits_iff.1 h
    obtain ⟨_, rfl, h⟩ := (hasShape_mark_iff (by decide)).1 h
    obtain ⟨hour, _, rfl, hhour, hhours, h⟩ := hasShape_digits_iff.1 h
    obtain ⟨_, rfl, h⟩ := (hasShape_mark_iff (by decide)).1 h
    obtain ⟨minute, rest, rfl, hminute, hminutes, h⟩ := hasShape_digits_iff.1 h
    obtain rfl : rest = [] := List.eq_nil_of_length_eq_zero (length_of_hasShape h)
    exact ⟨⟨year, month, day, hour, minute⟩, by simp [StampParts.text],
      ⟨hyear, hmonth, hday, hhour, hminute⟩, hyears, hmonths, hdays, hhours, hminutes⟩
  · rintro ⟨p, rfl, ⟨hyear, hmonth, hday, hhour, hminute⟩, hyears, hmonths, hdays, hhours, hminutes⟩
    refine hasShape_digits_iff.2 ⟨p.year, _, rfl, hyear, hyears, (hasShape_mark_iff (by decide)).2 ⟨_, rfl, ?_⟩⟩
    refine hasShape_digits_iff.2 ⟨p.month, _, rfl, hmonth, hmonths, (hasShape_mark_iff (by decide)).2 ⟨_, rfl, ?_⟩⟩
    refine hasShape_digits_iff.2 ⟨p.day, _, rfl, hday, hdays, (hasShape_mark_iff (by decide)).2 ⟨_, rfl, ?_⟩⟩
    refine hasShape_digits_iff.2 ⟨p.hour, _, rfl, hhour, hhours, (hasShape_mark_iff (by decide)).2 ⟨_, rfl, ?_⟩⟩
    exact hasShape_digits_iff.2 ⟨p.minute, [], (List.append_nil _).symm, hminute, hminutes, rfl⟩

section Scripts

variable {a b : Char} {rest : List Char} {r : Nat × List Char}

theorem of_mem_twoDigits {tens : Char} {ones : Char → Bool} (h : r ∈ twoDigits tens ones (a :: b :: rest)) :
    r = (digitsValue [a, b], rest) := by
  rw [twoDigits] at h
  split at h
  · simpa [digitsValue] using h
  · cases h

theorem of_mem_oneDigit {accept : Char → Bool} (h : r ∈ oneDigit accept (a :: rest)) : r = (digitsValue [a], rest) := by
  rw [oneDigit] at h
  split at h
  · simpa [digitsValue] using h
  · cases h

/-- A number is read from two characters, or the second of them is left. -/
theorem Part.of_mem_readings {part : Part} (hpart : part ∈ [Part.day, .month, .hour, .minute])
    (h : r ∈ part.readings (a :: b :: rest)) : r = (digitsValue [a, b], rest) ∨ r.2 = b :: rest := by
  have htwo : ∀ {tens ones}, r ∈ twoDigits tens ones (a :: b :: rest) →
      r = (digitsValue [a, b], rest) ∨ r.2 = b :: rest := fun hmem => .inl (of_mem_twoDigits hmem)
  have hone : ∀ {accept}, r ∈ oneDigit accept (a :: b :: rest) →
      r = (digitsValue [a, b], rest) ∨ r.2 = b :: rest := fun hmem => .inr (by rw [of_mem_oneDigit hmem])
  simp only [List.mem_cons, List.not_mem_nil, or_false] at hpart
  obtain rfl | rfl | rfl | rfl := hpart <;>
    simp only [Part.readings, List.mem_append, List.mem_flatMap, or_assoc] at h
  · obtain h | h | h | h | h | h := h
    exacts [htwo h, htwo h, htwo h, htwo h, hone h, htwo h]
  · obtain h | h | h := h
    exacts [htwo h, htwo h, hone h]
  · obtain h | h | h | h := h
    exacts [htwo h, htwo h, htwo h, hone h]
  · obtain ⟨tens, -, h⟩ | h := h
    exacts [htwo h, hone h]

theorem of_mem_readings_cons {part next : Part} {parts : List Part}
    (hpart : part ∈ [Part.day, .month, .hour, .minute]) (hstop : next.readings (b :: rest) = [])
    {r : List Nat × List Char} (h : r ∈ readings (part :: next :: parts) (a :: b :: rest)) :
    ∃ more ∈ readings (next :: parts) rest, r = (digitsValue [a, b] :: more.1, more.2) := by
  rw [readings] at h
  obtain ⟨first, hfirst, h⟩ := List.mem_flatMap.1 h
  obtain ⟨more, hmore, rfl⟩ := List.mem_map.1 h
  obtain rfl | hleft := Part.of_mem_readings hpart hfirst
  · exact ⟨more, hmore, rfl⟩
  · rw [hleft, readings, hstop] at hmore
    cases hmore

theorem mem_readings_of_readWhole? {parts : List Part} {text : List Char} {values : List Nat}
    (h : readWhole? parts text = some values) : (values, []) ∈ readings parts text := by
  rw [readWhole?] at h
  split at h
  · next hhead =>
    cases h
    exact List.mem_of_head? hhead
  · cases h

/-- The numbers of a time are those that the digits of the parts stand for. -/
structure StampParts.Gives (p : StampParts) (t : DateTime) : Prop where
  year : digitsValue p.year = t.date.year
  month : digitsValue p.month = t.date.month
  day : digitsValue p.day = t.date.day
  hour : digitsValue p.hour = t.hour
  minute : digitsValue p.minute = t.minute
  zone : t.zone = none

theorem StampParts.values_of_mem_readings {p : StampParts} (hshaped : p.Shaped) {values : List Nat}
    (h : (values, []) ∈ readings [.year, .mark '-', .month, .mark '-', .day, .blanks, .hour, .mark ':', .minute]
      p.text) :
    values = [digitsValue p.year, 0, digitsValue p.month, 0, digitsValue p.day, 0, digitsValue p.hour, 0,
      digitsValue p.minute] := by
  obtain ⟨year, month, day, hour, minute⟩ := p
  obtain ⟨hyear, hmonth, hday, hhour, hminute⟩ := hshaped.lengths
  obtain ⟨hyears, hmonths, hdays, hhours, -⟩ := hshaped.digits
  obtain ⟨a, b, rfl⟩ := List.length_eq_two.1 hmonth
  obtain ⟨c, d, rfl⟩ := List.length_eq_two.1 hday
  obtain ⟨e, f, rfl⟩ := List.length_eq_two.1 hhour
  obtain ⟨k, l, rfl⟩ := List.length_eq_two.1 hminute
  simp only [List.all_cons, List.all_nil, Bool.and_true, Bool.and_eq_true] at hmonths hdays hhours
  simp only [StampParts.text, List.cons_append, List.nil_append] at h
  rw [readings_year hyears hyear, readings_mark, List.map_map] at h
  obtain ⟨r, hmonth, heq⟩ := List.mem_map.1 h
  obtain ⟨r, hmark, rfl⟩ := of_mem_readings_cons (by decide) (readings_mark_stop (by decide) hmonths.2 _) hmonth
  rw [readings_mark] at hmark
  obtain ⟨r, hday, rfl⟩ := List.mem_map.1 hmark
  obtain ⟨r, hblank, rfl⟩ := of_mem_readings_cons (by decide) (readings_blank_stop hdays.2 _) hday
  rw [readings_blank _ hhours.1] at hblank
  obtain ⟨r, hhour, rfl⟩ := List.mem_map.1 hblank
  obtain ⟨r, hcolon, rfl⟩ := of_mem_readings_cons (by decide) (readings_mark_stop (by decide) hhours.2 _) hhour
  rw [readings_mark] at hcolon
  obtain ⟨r, hminute, rfl⟩ := List.mem_map.1 hcolon
  rw [readings] at hminute
  obtain ⟨last, hlast, hend⟩ := List.mem_flatMap.1 hminute
  obtain rfl : r = ([last.1], last.2) := by simpa [readings] using hend
  obtain ⟨rfl, hleft⟩ := Prod.mk.inj heq
  obtain rfl | hone := Part.of_mem_readings (by decide) hlast
  · rfl
  · exact absurd (hone.symm.trans hleft) (List.cons_ne_nil _ _)

/-- In any script, what a time stamp is read as is the time that its digits give. -/
theorem StampParts.gives_of_readStamp? {p : StampParts} (hshaped : p.Shaped) {t : DateTime}
    (h : readStamp? p.text = some t) : p.Gives t := by
  rw [readStamp?] at h
  split at h
  · next hwhole =>
    have hvalues := p.values_of_mem_readings hshaped (mem_readings_of_readWhole? hwhole)
    simp only [List.cons.injEq, and_true] at hvalues
    obtain ⟨rfl, -, rfl, -, rfl, -, rfl, -, rfl⟩ := hvalues
    obtain ⟨date, hdate, rfl⟩ := Option.map_eq_some_iff.1 h
    obtain ⟨hyear, hmonth, hday⟩ := Date.make?_eq_some_iff.1 hdate
    exact ⟨hyear, hmonth, hday, rfl, rfl, rfl⟩
  · cases h

end Scripts

structure StampParts.IsAscii (p : StampParts) : Prop where
  year : p.year ⊆ asciiDigits
  month : p.month ⊆ asciiDigits
  day : p.day ⊆ asciiDigits
  hour : p.hour ⊆ asciiDigits
  minute : p.minute ⊆ asciiDigits

theorem readStamp?_text {p : StampParts} (hshaped : p.Shaped) (hascii : p.IsAscii) :
    readStamp? p.text = if digitsValue p.hour ≤ 23 ∧ digitsValue p.minute ≤ 59 then
      (Date.make? (digitsValue p.year) (digitsValue p.month) (digitsValue p.day)).map fun date =>
        ⟨date, digitsValue p.hour, digitsValue p.minute, none⟩
      else none := by
  obtain ⟨year, month, day, hour, minute⟩ := p
  obtain ⟨hyears, hmonths, hdays, hhours, hminutes⟩ := hascii
  obtain ⟨hyear, hmonth, hday, hhour, hminute⟩ := hshaped.lengths
  obtain ⟨a, b, rfl⟩ := List.length_eq_two.1 hmonth
  obtain ⟨c, d, rfl⟩ := List.length_eq_two.1 hday
  obtain ⟨e, f, rfl⟩ := List.length_eq_two.1 hhour
  obtain ⟨g, h, rfl⟩ := List.length_eq_two.1 hminute
  simp only [List.cons_subset, List.nil_subset, and_true] at hmonths hdays hhours hminutes
  -- With every part of full width there is one reading up to the minute; only the minute can be cut short.
  have hread : readings [.year, .mark '-', .month, .mark '-', .day, .blanks, .hour, .mark ':', .minute]
      (StampParts.text ⟨year, [a, b], [c, d], [e, f], [g, h]⟩) =
      if (1 ≤ digitsValue [a, b] ∧ digitsValue [a, b] ≤ 12) ∧ (1 ≤ digitsValue [c, d] ∧ digitsValue [c, d] ≤ 31) ∧
          digitsValue [e, f] ≤ 23 then
        (readings [.minute] [g, h]).map fun r =>
          ([digitsValue year, 0, digitsValue [a, b], 0, digitsValue [c, d], 0, digitsValue [e, f], 0] ++ r.1, r.2)
      else [] := by
    simp only [StampParts.text, List.cons_append, List.nil_append]
    rw [readings_year (all_isDigit_of_subset hyears) hyear, readings_mark,
      readsWithin_month.readings_mark (by decide) _ hmonths.1 hmonths.2,
      readsWithin_day.readings_cons _ hdays.1 hdays.2 (readings_blank_stop (isDigit_of_mem_asciiDigits hdays.2) _),
      readings_blank _ (isDigit_of_mem_asciiDigits hhours.1),
      readsWithin_hour.readings_mark (by decide) _ hhours.1 hhours.2]
    by_cases hmonth : 1 ≤ digitsValue [a, b] ∧ digitsValue [a, b] ≤ 12 <;>
      by_cases hday : 1 ≤ digitsValue [c, d] ∧ digitsValue [c, d] ≤ 31 <;>
      by_cases hhour : digitsValue [e, f] ≤ 23 <;> simp [hmonth, hday, hhour]
  rw [readStamp?]
  by_cases hin : (1 ≤ digitsValue [a, b] ∧ digitsValue [a, b] ≤ 12) ∧
      (1 ≤ digitsValue [c, d] ∧ digitsValue [c, d] ≤ 31) ∧ digitsValue [e, f] ≤ 23
  · rw [if_pos hin] at hread
    rw [readWhole?_of_readings hread, readWhole?_minute hminutes.1 hminutes.2]
    by_cases hlast : digitsValue [g, h] ≤ 59
    · rw [if_pos hlast, if_pos ⟨hin.2.2, hlast⟩]
      rfl
    · rw [if_neg hlast, if_neg fun htime => hlast htime.2]
      rfl
  · rw [if_neg hin] at hread
    rw [readWhole?_of_readings_eq_nil hread]
    by_cases htime : digitsValue [e, f] ≤ 23 ∧ digitsValue [g, h] ≤ 59
    · rw [if_pos htime]
      cases hdate : Date.make? (digitsValue year) (digitsValue [a, b]) (digitsValue [c, d]) with
      | none => rfl
      | some date =>
        obtain ⟨-, hmonth, hday⟩ := Date.make?_eq_some_iff.1 hdate
        refine absurd ⟨?_, ?_, htime.1⟩ hin
        · rw [hmonth]
          exact ⟨date.month_pos, date.month_le⟩
        · rw [hday]
          exact ⟨date.isDate.2.2.1, date.day_le⟩
    · rw [if_neg htime]

theorem StampParts.text_eq_stamped_iff {p : StampParts} (hshaped : p.Shaped) (hascii : p.IsAscii) {t : DateTime}
    (ht : t.IsPlain) : p.text = t.stamped ↔ p.Gives t := by
  obtain ⟨hyear, hmonth, hday, hhour, hminute⟩ := hshaped.lengths
  obtain ⟨hdayLt, hmonthLt, hyearLt⟩ := t.date.parts_lt
  have hhourLt : t.hour < 10 ^ 2 := Nat.lt_of_le_of_lt ht.hour (by decide)
  have hminuteLt : t.minute < 10 ^ 2 := Nat.lt_of_le_of_lt ht.minute (by decide)
  have hlength : ∀ {n}, n < 10 ^ 2 → (paddedDigits 2 n).length = 2 := length_paddedDigits (by decide)
  have hyears := eq_paddedDigits_iff hascii.year hyear (by decide) hyearLt
  have hmonths := eq_paddedDigits_iff hascii.month hmonth (by decide) hmonthLt
  have hdays := eq_paddedDigits_iff hascii.day hday (by decide) hdayLt
  have hhours := eq_paddedDigits_iff hascii.hour hhour (by decide) hhourLt
  have hminutes := eq_paddedDigits_iff hascii.minute hminute (by decide) hminuteLt
  constructor
  · intro h
    obtain ⟨heqYear, h⟩ := List.append_inj h (hyear.trans (length_paddedDigits (by decide) hyearLt).symm)
    obtain ⟨heqMonth, h⟩ := List.append_inj (List.cons.inj h).2 (hmonth.trans (hlength hmonthLt).symm)
    obtain ⟨heqDay, h⟩ := List.append_inj (List.cons.inj h).2 (hday.trans (hlength hdayLt).symm)
    obtain ⟨heqHour, h⟩ := List.append_inj (List.cons.inj h).2 (hhour.trans (hlength hhourLt).symm)
    exact ⟨hyears.1 heqYear, hmonths.1 heqMonth, hdays.1 heqDay, hhours.1 heqHour,
      hminutes.1 (List.cons.inj h).2, ht.zone⟩
  · intro h
    rw [StampParts.text, DateTime.stamped, hyears.2 h.year, hmonths.2 h.month, hdays.2 h.day, hhours.2 h.hour,
      hminutes.2 h.minute]

/-- A text of the right shape, with its digits in ASCII, is read as a time exactly if the time is written so. -/
theorem readStamp?_eq_some_iff {text : List Char} (hshape : hasShape "dddd-dd-dd dd:dd".toList text)
    (hascii : ∀ c ∈ text, isDigit c → c.toNat < 128) {t : DateTime} :
    readStamp? text = some t ↔ t.IsPlain ∧ text = t.stamped := by
  obtain ⟨p, rfl, hshaped⟩ := hasShape_stamp_iff.1 hshape
  have hsubset : ∀ {cs : List Char}, cs ⊆ p.text → cs.all isDigit → cs ⊆ asciiDigits := by
    intro cs hcs hall c hc
    have hdigit := List.all_eq_true.1 hall c hc
    exact mem_asciiDigits hdigit (hascii c (hcs hc) hdigit)
  obtain ⟨hyears, hmonths, hdays, hhours, hminutes⟩ := hshaped.digits
  have hdigits : p.IsAscii :=
    ⟨hsubset (by intro c hc; simp [StampParts.text, hc]) hyears,
      hsubset (by intro c hc; simp [StampParts.text, hc]) hmonths,
      hsubset (by intro c hc; simp [StampParts.text, hc]) hdays,
      hsubset (by intro c hc; simp [StampParts.text, hc]) hhours,
      hsubset (by intro c hc; simp [StampParts.text, hc]) hminutes⟩
  have hread := readStamp?_text hshaped hdigits
  constructor
  · intro h
    rw [h] at hread
    split at hread
    · next htime =>
      obtain ⟨date, -, rfl⟩ := Option.map_eq_some_iff.1 hread.symm
      have hplain : (⟨date, digitsValue p.hour, digitsValue p.minute, none⟩ : DateTime).IsPlain :=
        ⟨htime.1, htime.2, rfl⟩
      exact ⟨hplain, (p.text_eq_stamped_iff hshaped hdigits hplain).2 (p.gives_of_readStamp? hshaped h)⟩
    · cases hread
  · rintro ⟨hplain, htext⟩
    have hgives := (p.text_eq_stamped_iff hshaped hdigits hplain).1 htext
    have hdate := Date.make?_eq_some_iff.2 ⟨hgives.year, hgives.month, hgives.day⟩
    obtain ⟨date, hour, minute, zone⟩ := t
    obtain ⟨hhour, hminute, rfl⟩ := hplain
    rw [hread, hgives.hour, hgives.minute, if_pos ⟨hhour, hminute⟩, hdate]
    rfl

theorem readStamp?_eq_none_iff {text : List Char} (hshape : hasShape "dddd-dd-dd dd:dd".toList text)
    (hascii : ∀ c ∈ text, isDigit c → c.toNat < 128) :
    readStamp? text = none ↔ ∀ t : DateTime, t.IsPlain → text ≠ t.stamped := by
  simp only [Option.eq_none_iff_forall_ne_some, ne_eq, readStamp?_eq_some_iff hshape hascii, not_and]

end Civil
end WeekGrid
