import WeekGrid.Failure

/-!
How an outcome can fail. That all its failures have some property is seen step by step: a step that fails ends
the whole, and so its failures have to have the property.
-/
namespace WeekGrid.Outcome

variable {ε δ α β : Type} {P : ε → Prop}

/-- All failures of an outcome have a property. -/
def FailsOnly (x : Except ε α) (P : ε → Prop) : Prop := ∀ e, x = .error e → P e

theorem failsOnly_ok (a : α) : FailsOnly (.ok a) P := fun _ h => nomatch h

theorem failsOnly_error {e : ε} (h : P e) : FailsOnly (.error e : Except ε α) P := by
  rintro _ ⟨⟩
  exact h

theorem failsOnly_bind {x : Except ε α} {f : α → Except ε β} (hx : FailsOnly x P)
    (hf : ∀ a, x = .ok a → FailsOnly (f a) P) : FailsOnly (x >>= f) P := by
  cases x with
  | error e => exact failsOnly_error (hx e rfl)
  | ok a => exact hf a rfl

theorem failsOnly_mapError {x : Except δ α} {f : δ → ε} (h : FailsOnly x fun e => P (f e)) :
    FailsOnly (x.mapError f) P := by
  cases x with
  | error e => exact failsOnly_error (h e rfl)
  | ok a => exact failsOnly_ok a

variable {f : α → Except ε β} {items : List α}

theorem failsOnly_mapM (h : ∀ item ∈ items, FailsOnly (f item) P) :
    FailsOnly (items.mapM f) P := by
  induction items with
  | nil => exact failsOnly_ok []
  | cons item items ih =>
    obtain ⟨hitem, hitems⟩ := List.forall_mem_cons.1 h
    rw [List.mapM_cons]
    exact failsOnly_bind hitem fun _ _ => failsOnly_bind (ih hitems) fun _ _ => failsOnly_ok _

theorem bind_pure_eq_error_iff {x : Except ε α} {g : α → β} {e : ε} :
    (x >>= fun a => pure (g a)) = .error e ↔ x = .error e := by
  cases x with
  | error e' => exact ⟨fun h => congrArg _ (Except.error.inj h), fun h => congrArg _ (Except.error.inj h)⟩
  | ok a => exact ⟨nofun, nofun⟩

/-- Going through some items fails at the first one that fails. -/
theorem mapM_eq_error_iff {e : ε} : items.mapM f = .error e ↔
    ∃ before item after, items = before ++ item :: after ∧ f item = .error e ∧
      ∀ earlier ∈ before, ∃ b, f earlier = .ok b := by
  induction items with
  | nil => simp [pure, Except.pure]
  | cons item items ih =>
    rw [List.mapM_cons]
    constructor
    · intro h
      cases hitem : f item with
      | error e' =>
        rw [hitem] at h
        cases h
        exact ⟨[], item, items, rfl, hitem, nofun⟩
      | ok b =>
        rw [hitem] at h
        obtain ⟨before, failing, after, rfl, hfailing, hbefore⟩ := ih.1 (bind_pure_eq_error_iff.1 h)
        exact ⟨item :: before, failing, after, rfl, hfailing, List.forall_mem_cons.2 ⟨⟨b, hitem⟩, hbefore⟩⟩
    · rintro ⟨_ | ⟨first, before⟩, failing, after, hitems, hfailing, hbefore⟩
      · cases hitems
        rw [hfailing]
        rfl
      · cases hitems
        obtain ⟨⟨b, hb⟩, hbefore⟩ := List.forall_mem_cons.1 hbefore
        rw [hb]
        exact bind_pure_eq_error_iff.2 (ih.2 ⟨before, failing, after, rfl, hfailing, hbefore⟩)

theorem mapM_eq_ok {g : α → β} (h : ∀ item ∈ items, f item = .ok (g item)) : items.mapM f = .ok (items.map g) := by
  induction items with
  | nil => rfl
  | cons item items ih =>
    obtain ⟨hitem, hitems⟩ := List.forall_mem_cons.1 h
    rw [List.mapM_cons, hitem, ih hitems]
    rfl

end WeekGrid.Outcome
