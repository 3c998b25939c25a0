import WeekGrid.Keyed

/-!
What a table of overwritten pairs holds: under each key the value of the last pair whose key passes for it.
-/
namespace WeekGrid.Keyed

variable {κ α β : Type} {same : κ → κ → Bool}

theorem get?_ofPairs (test : IsTest same) (key : κ) (pairs : List (κ × α)) :
    get? same key (ofPairs same pairs) =
      pairs.reverse.findSome? fun (k, v) => if same k key then some v else none := by
  have hfold : ∀ table : List (κ × α),
      get? same key (pairs.foldl (fun table (k, v) => put same k v table) table) =
        (pairs.reverse.findSome? fun (k, v) => if same k key then some v else none).or
          (get? same key table) := by
    induction pairs with
    | nil => intro table; rfl
    | cons pair rest ih =>
      intro table
      rw [List.foldl_cons, ih, get?_put test, List.reverse_cons, List.findSome?_append]
      cases rest.reverse.findSome? fun (k, v) => if same k key then some v else none with
      | some v => rfl
      | none => by_cases h : same pair.1 key = true <;> simp [h]
  have h := hfold []
  rw [get?_nil, Option.or_none] at h
  exact h

def valueAt? (same : κ → κ → Bool) (f : β → Option (κ × α)) (key : κ) (item : β) : Option α :=
  match f item with
  | some (k, v) => if same k key then some v else none
  | none => none

theorem valueAt?_eq_some_iff {f : β → Option (κ × α)} {key : κ} {item : β} {v : α} :
    valueAt? same f key item = some v ↔ ∃ k, f item = some (k, v) ∧ same k key = true := by
  constructor
  · intro h
    rw [valueAt?] at h
    split at h
    · next k w hitem =>
      split at h
      · next hkey =>
        cases h
        exact ⟨k, hitem, hkey⟩
      · cases h
    · cases h
  · rintro ⟨k, hitem, hkey⟩
    simp [valueAt?, hitem, hkey]

theorem get?_ofPairs_filterMap (test : IsTest same) (key : κ) (f : β → Option (κ × α)) (items : List β) :
    get? same key (ofPairs same (items.filterMap f)) = items.reverse.findSome? (valueAt? same f key) := by
  rw [get?_ofPairs test, ← List.filterMap_reverse]
  induction items.reverse with
  | nil => rfl
  | cons item rest ih =>
    cases h : f item with
    | none => rw [List.filterMap_cons_none h, ih, List.findSome?_cons, valueAt?, h]
    | some pair =>
      rw [List.filterMap_cons_some h, List.findSome?_cons, List.findSome?_cons, ih, valueAt?, h]

/-- The value under a key is that of the last item which has one for it. -/
theorem get?_ofPairs_filterMap_eq_some_iff (test : IsTest same) {key : κ} {value : α}
    {f : β → Option (κ × α)} {items : List β} :
    get? same key (ofPairs same (items.filterMap f)) = some value ↔
      ∃ before item after, items = before ++ item :: after ∧ valueAt? same f key item = some value ∧
        ∀ later ∈ after, valueAt? same f key later = none := by
  rw [get?_ofPairs_filterMap test, List.findSome?_eq_some_iff]
  constructor
  · rintro ⟨before, item, after, hitems, hvalue, hnone⟩
    refine ⟨after.reverse, item, before.reverse, ?_, hvalue, fun later h => hnone later (List.mem_reverse.1 h)⟩
    rw [← List.reverse_reverse items, hitems]
    simp
  · rintro ⟨before, item, after, rfl, hvalue, hnone⟩
    refine ⟨after.reverse, item, before.reverse, by simp, hvalue, fun later h => ?_⟩
    exact hnone later (List.mem_reverse.1 h)

theorem get?_ofPairs_eq_none_iff (test : IsTest same) {key : κ} {pairs : List (κ × α)} :
    get? same key (ofPairs same pairs) = none ↔ ∀ k v, (k, v) ∈ pairs → same k key = false := by
  rw [get?_ofPairs test, List.findSome?_eq_none_iff]
  simp

theorem mem_of_get?_ofPairs (test : IsTest same) {key : κ} {value : α} {pairs : List (κ × α)}
    (h : get? same key (ofPairs same pairs) = some value) :
    ∃ k, (k, value) ∈ pairs ∧ same k key = true := by
  rw [get?_ofPairs test] at h
  obtain ⟨⟨k, v⟩, hmem, hvalue⟩ := List.exists_of_findSome?_eq_some h
  by_cases hk : same k key = true
  · simp only [if_pos hk] at hvalue
    cases hvalue
    exact ⟨k, List.mem_reverse.1 hmem, hk⟩
  · simp only [if_neg hk] at hvalue
    cases hvalue

theorem get?_congr (test : IsTest same) {key other : κ} (h : same key other = true) (table : List (κ × α)) :
    get? same key table = get? same other table := by
  induction table with
  | nil => rfl
  | cons pair rest ih =>
    have hpass : same pair.1 key = true ↔ same pair.1 other = true :=
      ⟨fun hkey => test.trans hkey h, fun hother => test.trans hother (test.symm h)⟩
    rw [get?, get?, ih]
    simp only [hpass]

theorem mem_of_get? {key : κ} {value : α} {table : List (κ × α)} (h : get? same key table = some value) :
    ∃ k, (k, value) ∈ table ∧ same k key = true := by
  induction table with
  | nil => cases h
  | cons pair rest ih =>
    obtain ⟨k, v⟩ := pair
    rw [get?] at h
    by_cases hk : same k key = true
    · rw [if_pos hk] at h
      cases h
      exact ⟨k, List.mem_cons_self, hk⟩
    · rw [if_neg hk] at h
      obtain ⟨k', hmem, hk'⟩ := ih h
      exact ⟨k', List.mem_cons_of_mem _ hmem, hk'⟩

/-- A key in a table stays as it is, or is the one just put. -/
theorem key_mem_put {k key : κ} {v value : α} {table : List (κ × α)}
    (h : (k, v) ∈ put same key value table) : k = key ∨ ∃ v', (k, v') ∈ table := by
  induction table with
  | nil =>
    cases List.mem_singleton.1 h
    exact Or.inl rfl
  | cons pair rest ih =>
    obtain ⟨first, w⟩ := pair
    rw [put] at h
    split at h
    · rcases List.mem_cons.1 h with heq | h
      · cases heq
        exact Or.inr ⟨w, List.mem_cons_self⟩
      · exact Or.inr ⟨v, List.mem_cons_of_mem _ h⟩
    · rcases List.mem_cons.1 h with heq | h
      · cases heq
        exact Or.inr ⟨v, List.mem_cons_self⟩
      · rcases ih h with rfl | ⟨v', hmem⟩
        · exact Or.inl rfl
        · exact Or.inr ⟨v', List.mem_cons_of_mem _ hmem⟩

theorem key_mem_ofPairs {k : κ} {v : α} {pairs : List (κ × α)} (h : (k, v) ∈ ofPairs same pairs) :
    ∃ v', (k, v') ∈ pairs := by
  have hfold : ∀ table : List (κ × α),
      (k, v) ∈ pairs.foldl (fun table (key, value) => put same key value table) table →
        (∃ v', (k, v') ∈ pairs) ∨ ∃ v', (k, v') ∈ table := by
    clear h
    induction pairs generalizing v with
    | nil => exact fun table h => Or.inr ⟨v, h⟩
    | cons pair rest ih =>
      intro table h
      rcases ih _ h with ⟨v', hmem⟩ | ⟨v', hmem⟩
      · exact Or.inl ⟨v', List.mem_cons_of_mem _ hmem⟩
      · rcases key_mem_put hmem with rfl | hmem
        · exact Or.inl ⟨pair.2, List.mem_cons_self⟩
        · exact Or.inr hmem
  rcases hfold [] h with hmem | ⟨v', hmem⟩
  · exact hmem
  · cases hmem

theorem pairwise_put {key : κ} {value : α} {table : List (κ × α)}
    (h : table.Pairwise fun e f => same e.1 f.1 = false) :
    (put same key value table).Pairwise fun e f => same e.1 f.1 = false := by
  induction table with
  | nil => exact List.pairwise_singleton _ _
  | cons pair rest ih =>
    obtain ⟨k, v⟩ := pair
    obtain ⟨hfirst, hrest⟩ := List.pairwise_cons.1 h
    rw [put]
    split
    · exact List.pairwise_cons.2 ⟨hfirst, hrest⟩
    · next hother =>
      refine List.pairwise_cons.2 ⟨fun f hf => ?_, ih hrest⟩
      rcases key_mem_put hf with heq | ⟨v', hmem⟩
      · rw [heq]
        exact Bool.eq_false_iff.2 hother
      · exact hfirst (f.1, v') hmem

theorem pairwise_ofPairs (pairs : List (κ × α)) :
    (ofPairs same pairs).Pairwise fun e f => same e.1 f.1 = false := by
  have hfold : ∀ table : List (κ × α), table.Pairwise (fun e f => same e.1 f.1 = false) →
      (pairs.foldl (fun table (key, value) => put same key value table) table).Pairwise
        fun e f => same e.1 f.1 = false := by
    induction pairs with
    | nil => exact fun table h => h
    | cons pair rest ih => exact fun table h => ih _ (pairwise_put h)
  exact hfold [] .nil

/-- A table beside the writes it comes from, each with its place in their order: a key is there if some write passes
for it, the value is that of the last such write, and there are no two entries for one key. -/
structure LastWins {ι : Type} (same : κ → κ → Bool) (table : List (κ × α)) (Writes : ι → κ → α → Prop)
    (Later : ι → ι → Prop) : Prop where
  present : ∀ key, (get? same key table).isSome = true ↔ ∃ i k v, Writes i k v ∧ same k key = true
  value : ∀ key v, get? same key table = some v ↔ ∃ i k, Writes i k v ∧ same k key = true ∧
    ∀ j k' v', Later i j → Writes j k' v' → same k' key = false
  distinct : table.Pairwise fun e f => same e.1 f.1 = false

theorem lastWins_ofPairs {ι : Type} (test : IsTest same) {placed : List (ι × κ × α)} {Writes : ι → κ → α → Prop}
    {Later : ι → ι → Prop} (hwrites : ∀ i k v, (i, k, v) ∈ placed ↔ Writes i k v)
    (hsorted : placed.Pairwise fun e f => Later e.1 f.1) (hasymm : ∀ i j, Later i j → ¬ Later j i) :
    LastWins same (ofPairs same (placed.map (·.2))) Writes Later where
  present key := by
    constructor
    · intro h
      obtain ⟨v, hv⟩ := Option.isSome_iff_exists.1 h
      obtain ⟨k, hmem, hkey⟩ := mem_of_get?_ofPairs test hv
      obtain ⟨⟨i, _, _⟩, hplaced, heq⟩ := List.mem_map.1 hmem
      cases heq
      exact ⟨i, k, v, (hwrites i k v).1 hplaced, hkey⟩
    · rintro ⟨i, k, v, hwrite, hkey⟩
      refine Option.isSome_iff_ne_none.2 fun hnone => ?_
      have hmem : (k, v) ∈ placed.map (·.2) := List.mem_map.2 ⟨_, (hwrites i k v).2 hwrite, rfl⟩
      rw [(get?_ofPairs_eq_none_iff test).1 hnone k v hmem] at hkey
      cases hkey
  value key v := by
    -- The value is that of a write behind which none passes for the key, and behind means later.
    have hvalue : ∀ (e : ι × κ × α) w, valueAt? same (fun e => some e.2) key e = some w ↔
        e.2.2 = w ∧ same e.2.1 key = true := by
      intro e w
      by_cases hkey : same e.2.1 key = true <;> simp [valueAt?, hkey]
    have hnone : ∀ e : ι × κ × α, valueAt? same (fun e => some e.2) key e = none ↔ same e.2.1 key = false := by
      intro e
      by_cases hkey : same e.2.1 key = true <;> simp [valueAt?, hkey]
    rw [← List.filterMap_eq_map, get?_ofPairs_filterMap_eq_some_iff test]
    simp only [Function.comp_def, hvalue, hnone]
    constructor
    · rintro ⟨before, ⟨i, k, w⟩, after, hsplit, ⟨rfl, hkey⟩, hafter⟩
      rw [hsplit, List.pairwise_append, List.pairwise_cons] at hsorted
      refine ⟨i, k, (hwrites i k _).1 (by rw [hsplit]; simp), hkey, fun j k' v' hlater hwrite => ?_⟩
      have hmem := (hwrites j k' v').2 hwrite
      rw [hsplit, List.mem_append, List.mem_cons] at hmem
      rcases hmem with hbefore | heq | hmem
      · exact absurd (hsorted.2.2 _ hbefore _ List.mem_cons_self) (hasymm _ _ hlater)
      · cases heq
        exact absurd hlater (hasymm _ _ hlater)
      · exact hafter _ hmem
    · rintro ⟨i, k, hwrite, hkey, hlast⟩
      obtain ⟨before, after, hsplit⟩ := List.append_of_mem ((hwrites i k v).2 hwrite)
      rw [hsplit, List.pairwise_append, List.pairwise_cons] at hsorted
      refine ⟨before, (i, k, v), after, hsplit, ⟨rfl, hkey⟩, fun later hmem => ?_⟩
      obtain ⟨j, k', v'⟩ := later
      exact hlast j k' v' (hsorted.2.1.1 _ hmem) ((hwrites j k' v').1 (by rw [hsplit]; simp [hmem]))
  distinct := pairwise_ofPairs _

end WeekGrid.Keyed
