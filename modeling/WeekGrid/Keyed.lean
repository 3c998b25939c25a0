/-!
Values under keys, in the order in which the keys were first put. What counts as the same key is a
parameter, so that numbers can be compared as numbers. A value put under a known key replaces the old one
and leaves the key as it was first written.
-/
namespace WeekGrid.Keyed

variable {κ α : Type}

def put (same : κ → κ → Bool) (key : κ) (value : α) : List (κ × α) → List (κ × α)
  | [] => [(key, value)]
  | (k, v) :: rest => if same k key then (k, value) :: rest else (k, v) :: put same key value rest

def get? (same : κ → κ → Bool) (key : κ) : List (κ × α) → Option α
  | [] => none
  | (k, v) :: rest => if same k key then some v else get? same key rest

/-- The table of pairs, the later ones overwriting the earlier. -/
def ofPairs (same : κ → κ → Bool) (pairs : List (κ × α)) : List (κ × α) :=
  pairs.foldl (fun table (key, value) => put same key value table) []

@[simp] theorem get?_nil (same : κ → κ → Bool) (key : κ) : get? same key ([] : List (κ × α)) = none := rfl

/-- A test that keys pass for each other; a key need not pass for itself. -/
structure IsTest (same : κ → κ → Bool) : Prop where
  symm {a b : κ} : same a b = true → same b a = true
  trans {a b c : κ} : same a b = true → same b c = true → same a c = true

theorem get?_put {same : κ → κ → Bool} (test : IsTest same) (key other : κ) (value : α) (table : List (κ × α)) :
    get? same other (put same key value table) =
      if same key other then some value else get? same other table := by
  induction table with
  | nil => rfl
  | cons pair rest ih =>
    obtain ⟨k, v⟩ := pair
    by_cases hk : same k key = true
    · rw [put, if_pos hk]
      by_cases hother : same key other = true
      · simp [get?, test.trans hk hother, hother]
      · have hko : ¬ same k other = true := fun h => hother (test.trans (test.symm hk) h)
        simp [get?, hko, hother]
    · rw [put, if_neg hk, get?, get?, ih]
      by_cases hother : same key other = true
      · have hko : ¬ same k other = true := fun h => hk (test.trans h (test.symm hother))
        simp [hko, hother]
      · simp [hother]

end WeekGrid.Keyed
