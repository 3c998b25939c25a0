/-!
White space of every script, and the two operations that lean on it: trimming both ends, and cutting a
text into words. Words hold no white space and are never empty.
-/
namespace WeekGrid.Text

/-- The white-space characters; a zero-width space or a byte order mark is none. -/
def isBlank (c : Char) : Bool :=
  let n := c.toNat
  (9 ≤ n && n ≤ 13) || (28 ≤ n && n ≤ 32) || n == 0x85 || n == 0xA0 || n == 0x1680 ||
    (0x2000 ≤ n && n ≤ 0x200A) || n == 0x2028 || n == 0x2029 || n == 0x202F || n == 0x205F ||
    n == 0x3000

def strip (cs : List Char) : List Char :=
  ((cs.dropWhile isBlank).reverse.dropWhile isBlank).reverse

@[simp] theorem strip_nil : strip [] = [] := rfl

/-- The longest runs without white space; the second list is the run being read. -/
def wordsFrom : List Char → List Char → List (List Char)
  | [], [] => []
  | [], word => [word]
  | c :: cs, word =>
    if isBlank c then
      if word = [] then wordsFrom cs [] else word :: wordsFrom cs []
    else wordsFrom cs (word ++ [c])

def words (cs : List Char) : List (List Char) := wordsFrom cs []

theorem wordsFrom_ne_nil {w word : List Char} {cs : List Char} (h : w ∈ wordsFrom cs word) :
    w ≠ [] := by
  induction cs generalizing word with
  | nil => cases word <;> simp_all [wordsFrom]
  | cons c cs ih =>
    unfold wordsFrom at h
    split at h
    · split at h
      · exact ih h
      · rcases List.mem_cons.1 h with rfl | h
        · assumption
        · exact ih h
    · exact ih h

theorem wordsFrom_not_blank {w word : List Char} {cs : List Char} (hword : ∀ c ∈ word, isBlank c = false)
    (h : w ∈ wordsFrom cs word) : ∀ c ∈ w, isBlank c = false := by
  induction cs generalizing word with
  | nil => cases word <;> simp_all [wordsFrom]
  | cons c cs ih =>
    unfold wordsFrom at h
    split at h
    · split at h
      · exact ih (by simp) h
      · rcases List.mem_cons.1 h with rfl | h
        · exact hword
        · exact ih (by simp) h
    · refine ih ?_ h
      intro x hx
      rcases List.mem_append.1 hx with hx | hx
      · exact hword x hx
      · simp_all

theorem ne_nil_of_mem_words {w cs : List Char} (h : w ∈ words cs) : w ≠ [] := wordsFrom_ne_nil h

theorem not_blank_of_mem_words {w cs : List Char} (h : w ∈ words cs) :
    ∀ c ∈ w, isBlank c = false := wordsFrom_not_blank (by simp) h

theorem wordsFrom_eq_nil_iff {cs word : List Char} :
    wordsFrom cs word = [] ↔ word = [] ∧ ∀ c ∈ cs, isBlank c = true := by
  induction cs generalizing word with
  | nil => cases word <;> simp [wordsFrom]
  | cons c cs ih =>
    unfold wordsFrom
    split
    · next hblank =>
      split
      · next hword => simp [ih, hword, hblank]
      · next hword => simp [hword]
    · next hblank => simp [ih, hblank]

theorem words_eq_nil_iff {cs : List Char} : words cs = [] ↔ ∀ c ∈ cs, isBlank c = true := by
  rw [words, wordsFrom_eq_nil_iff]
  exact and_iff_right rfl

theorem not_blank_of_strip_ne_nil {cs : List Char} (h : strip cs ≠ []) : ¬ ∀ c ∈ strip cs, isBlank c = true := by
  rw [strip, ne_eq, List.reverse_eq_nil_iff] at h
  intro hblank
  cases hback : (cs.dropWhile isBlank).reverse.dropWhile isBlank with
  | nil => exact h hback
  | cons c rest =>
    have hnot := List.head?_dropWhile_not isBlank (cs.dropWhile isBlank).reverse
    rw [hback] at hnot
    have hc : isBlank c = true := hblank c (by rw [strip, hback]; simp)
    simp [hc] at hnot

def trimmed (s : String) : String := String.ofList (strip s.toList)

end WeekGrid.Text
