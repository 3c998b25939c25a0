import WeekGrid.Text.Digits

/-!
Taking a word or a run of digits off the front of a text.
-/
namespace WeekGrid.Text

def afterWord? (word : String) (cs : List Char) : Option (List Char) :=
  if word.toList.isPrefixOf cs then some (cs.drop word.toList.length) else none

theorem afterWord?_eq_some_iff {word : String} {cs rest : List Char} :
    afterWord? word cs = some rest ↔ cs = word.toList ++ rest := by
  unfold afterWord?
  constructor
  · intro h
    split at h
    · next hprefix =>
      obtain ⟨tail, rfl⟩ := List.isPrefixOf_iff_prefix.1 hprefix
      rw [List.drop_left] at h
      rw [Option.some.inj h]
    · cases h
  · rintro rfl
    rw [if_pos (List.isPrefixOf_iff_prefix.2 (List.prefix_append _ _)), List.drop_left]

/-- The longest run of digits at the front, at least one, and what follows it. -/
def takeDigits? (cs : List Char) : Option (List Char × List Char) :=
  let digits := cs.takeWhile isDigit
  if digits = [] then none else some (digits, cs.dropWhile isDigit)

theorem takeDigits?_eq_some_iff {cs digits rest : List Char} :
    takeDigits? cs = some (digits, rest) ↔
      cs = digits ++ rest ∧ digits ≠ [] ∧ digits.all isDigit ∧ ∀ c ∈ rest.head?, isDigit c = false := by
  unfold takeDigits?
  dsimp only
  constructor
  · intro h
    split at h
    · cases h
    · next hne =>
      cases h
      refine ⟨List.takeWhile_append_dropWhile.symm, hne, List.all_takeWhile, ?_⟩
      intro c hc
      have hnot := List.head?_dropWhile_not isDigit cs
      rw [Option.mem_def.1 hc] at hnot
      simpa using hnot
  · rintro ⟨rfl, hne, hdigits, hrest⟩
    have hall : ∀ c ∈ digits, isDigit c = true := List.all_eq_true.1 hdigits
    have htake : (digits ++ rest).takeWhile isDigit = digits := by
      rw [List.takeWhile_append_of_pos hall]
      cases rest with
      | nil => simp
      | cons c rest => simp [hrest c rfl]
    have hdrop : (digits ++ rest).dropWhile isDigit = rest := by
      rw [List.dropWhile_append_of_pos hall]
      cases rest with
      | nil => rfl
      | cons c rest => simp [hrest c rfl]
    rw [htake, hdrop, if_neg hne]

/-- Whether a text has the shape of a pattern, in which `d` stands for a digit and every other character
for itself. -/
def hasShape : List Char → List Char → Bool
  | [], [] => true
  | p :: ps, c :: cs => (if p = 'd' then isDigit c else c == p) && hasShape ps cs
  | _, _ => false

theorem length_of_hasShape {pattern cs : List Char} (h : hasShape pattern cs) : cs.length = pattern.length := by
  induction pattern generalizing cs with
  | nil =>
    cases cs with
    | nil => rfl
    | cons c cs => cases h
  | cons p ps ih =>
    cases cs with
    | nil => cases h
    | cons c cs => rw [List.length_cons, List.length_cons, ih (Bool.and_eq_true_iff.1 h).2]

theorem hasShape_mark_iff {p : Char} (hp : p ≠ 'd') {pattern cs : List Char} :
    hasShape (p :: pattern) cs ↔ ∃ rest, cs = p :: rest ∧ hasShape pattern rest := by
  cases cs with
  | nil => simp [hasShape]
  | cons c cs => simp [hasShape, hp, and_assoc]

theorem hasShape_digits_iff {n : Nat} {pattern cs : List Char} :
    hasShape (List.replicate n 'd' ++ pattern) cs ↔
      ∃ digits rest, cs = digits ++ rest ∧ digits.length = n ∧ digits.all isDigit ∧ hasShape pattern rest := by
  induction n generalizing cs with
  | zero =>
    constructor
    · exact fun h => ⟨[], cs, rfl, rfl, rfl, h⟩
    · rintro ⟨digits, rest, rfl, hnone, -, h⟩
      rw [List.eq_nil_of_length_eq_zero hnone]
      exact h
  | succ n ih =>
    constructor
    · intro h
      cases cs with
      | nil => cases h
      | cons c cs =>
        obtain ⟨hc, hcs⟩ := Bool.and_eq_true_iff.1 h
        obtain ⟨digits, rest, rfl, rfl, hdigits, hrest⟩ := ih.1 hcs
        exact ⟨c :: digits, rest, rfl, rfl, Bool.and_eq_true_iff.2 ⟨hc, hdigits⟩, hrest⟩
    · rintro ⟨_ | ⟨c, digits⟩, rest, rfl, hlength, hdigits, hrest⟩
      · cases hlength
      · obtain ⟨hc, hdigits⟩ := Bool.and_eq_true_iff.1 hdigits
        exact Bool.and_eq_true_iff.2 ⟨hc, ih.2 ⟨digits, rest, rfl, Nat.succ.inj hlength, hdigits, hrest⟩⟩

def takeShape? (pattern : String) (cs : List Char) : Option (List Char × List Char) :=
  let n := pattern.toList.length
  if hasShape pattern.toList (cs.take n) then some (cs.take n, cs.drop n) else none

theorem takeShape?_eq_some_iff {pattern : String} {cs text rest : List Char} :
    takeShape? pattern cs = some (text, rest) ↔ cs = text ++ rest ∧ hasShape pattern.toList text := by
  unfold takeShape?
  dsimp only
  constructor
  · intro h
    split at h
    · next hshape =>
      cases h
      exact ⟨(List.take_append_drop _ _).symm, hshape⟩
    · cases h
  · rintro ⟨rfl, hshape⟩
    rw [← length_of_hasShape hshape, List.take_left, List.drop_left, if_pos hshape]

end WeekGrid.Text
