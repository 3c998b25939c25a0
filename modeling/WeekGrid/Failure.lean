import WeekGrid.Text.Quoted

/-!
What can go wrong. A `Refusal` says that a document is not a readable timetable; the command line
reports it in one line. A `Fault` is any other failure: of a number, a date, a file or an answer from
the network.
-/
namespace WeekGrid

inductive Refusal where
  | documentOpen (source reason : String)
  | missingFirstPage
  | scanFailed (reason : String)
  | headerBoxNotFound
  | headerTextsNotFound
  | headerTextUnparseable (text : String)
  | unknownCourseCode (code : String)
  deriving DecidableEq, Repr

namespace Refusal

def message : Refusal → String
  | documentOpen source reason =>
    "cannot open PDF document: " ++ source ++ (if reason = "" then "" else " (" ++ reason ++ ")")
  | missingFirstPage => "PDF document has no first page"
  | scanFailed reason => "content stream scan failed: " ++ reason
  | headerBoxNotFound => "header rectangle not found"
  | headerTextsNotFound => "no text inside the header rectangle"
  | headerTextUnparseable text => "unparseable header text: " ++ Text.quoted text
  | unknownCourseCode code => "course code not in reference table: " ++ Text.quoted code

end Refusal

inductive Fault where
  /-- An infinite number has no integer, and a double has no room for a huge integer or power. -/
  | outOfRange
  /-- Not a number has no integer. -/
  | notANumber
  | divisionByZero
  /-- A run of digits too long to be read as an integer. -/
  | tooManyDigits
  | notADate
  /-- A day outside the years 1 to 9999. -/
  | yearOutOfRange
  | unknownYearOfStudy
  | emptySeparator
  /-- An octal escape in a page's string that is no byte. -/
  | octalOutOfRange
  /-- An inline image's filter that has no first element. -/
  | filterNotIndexable
  | filterEmpty
  | filterWithoutFirst
  /-- A description of white space alone has no first word. -/
  | descriptionWithoutWord
  | missingMediaBox
  | malformedJson
  | malformedUtf8
  | notACourseTable (file : String)
  | fileNotFound (file : String)
  | noRoute (url : String)
  | badStatus (status : Nat) (reason url : String)
  deriving DecidableEq, Repr

namespace Fault

/-- The wording of the faults that have one. -/
def message? : Fault → Option String
  | notACourseTable file =>
    some (file ++ ": expected a JSON object of code -> course name strings")
  | noRoute url => some ("no route to " ++ url)
  | badStatus status reason url =>
    some (toString status ++ (if status < 500 then " Client" else " Server") ++ " Error: " ++ reason ++
      " for url: " ++ url)
  | _ => none

end Fault

inductive Failure where
  | refused (refusal : Refusal)
  | faulted (fault : Fault)
  deriving DecidableEq, Repr

instance : Coe Refusal Failure := ⟨.refused⟩
instance : Coe Fault Failure := ⟨.faulted⟩

namespace Outcome

variable {ε δ α β : Type}

theorem bind_eq_ok_iff {x : Except ε α} {f : α → Except ε β} {b : β} :
    (x >>= f) = .ok b ↔ ∃ a, x = .ok a ∧ f a = .ok b := by
  cases x with
  | error e => simp [bind, Except.bind]
  | ok a => simp [bind, Except.bind]

theorem map_eq_ok_iff {x : Except ε α} {f : α → β} {b : β} :
    x.map f = .ok b ↔ ∃ a, x = .ok a ∧ f a = b := by
  cases x with
  | error e => simp [Except.map]
  | ok a => simp [Except.map]

theorem mapError_eq_ok_iff {x : Except ε α} {f : ε → δ} {a : α} :
    x.mapError f = .ok a ↔ x = .ok a := by
  cases x with
  | error e => constructor <;> rintro ⟨⟩
  | ok b => exact ⟨fun h => congrArg _ (Except.ok.inj h), fun h => congrArg _ (Except.ok.inj h)⟩

theorem mem_of_mapM_eq_ok {f : α → Except ε β} {items : List α} {results : List β}
    (h : items.mapM f = .ok results) (result : β) :
    result ∈ results ↔ ∃ item ∈ items, f item = .ok result := by
  induction items generalizing results with
  | nil =>
    cases h
    simp
  | cons item items ih =>
    rw [List.mapM_cons] at h
    obtain ⟨first, hfirst, h⟩ := bind_eq_ok_iff.1 h
    obtain ⟨more, hmore, h⟩ := bind_eq_ok_iff.1 h
    cases h
    simp [ih hmore, hfirst, eq_comm]

theorem exists_of_mapM_eq_ok {f : α → Except ε β} {items : List α} {results : List β}
    (h : items.mapM f = .ok results) : ∀ item ∈ items, ∃ result, f item = .ok result := by
  induction items generalizing results with
  | nil => simp
  | cons item items ih =>
    rw [List.mapM_cons] at h
    obtain ⟨first, hfirst, h⟩ := bind_eq_ok_iff.1 h
    obtain ⟨more, hmore, -⟩ := bind_eq_ok_iff.1 h
    exact List.forall_mem_cons.2 ⟨⟨first, hfirst⟩, ih hmore⟩

end Outcome
end WeekGrid
