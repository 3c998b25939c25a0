import WeekGrid.Binary64.Basic
import WeekGrid.Proofs.Keyed

/-!
Equality and order of numbers, as tests: both look at the levels of the numbers only.
-/
namespace WeekGrid.Binary64

theorem same_iff {x y : Binary64} : x.same y = true ↔ ∃ level, x.level = some level ∧ y.level = some level := by
  unfold same
  cases x.level with
  | none => simp
  | some a =>
    cases y.level with
    | none => simp
    | some b =>
      constructor
      · intro h
        exact ⟨b, congrArg some (eq_of_beq h), rfl⟩
      · rintro ⟨level, ha, hb⟩
        rw [Option.some.inj ha, Option.some.inj hb]
        exact beq_self_eq_true level

theorem isTest_same : Keyed.IsTest same where
  symm h := by
    obtain ⟨level, hx, hy⟩ := same_iff.1 h
    exact same_iff.2 ⟨level, hy, hx⟩
  trans h h' := by
    obtain ⟨level, hx, hy⟩ := same_iff.1 h
    obtain ⟨level', hy', hz⟩ := same_iff.1 h'
    rw [hy] at hy'
    exact same_iff.2 ⟨level, hx, hz.trans hy'.symm⟩

theorem level_eq_of_same {x y : Binary64} (h : x.same y = true) : x.level = y.level := by
  obtain ⟨level, hx, hy⟩ := same_iff.1 h
  rw [hx, hy]

theorem lt_congr_left {x y : Binary64} (h : x.same y = true) (z : Binary64) : x.lt z = y.lt z := by
  rw [lt, lt, level_eq_of_same h]

theorem lt_congr_right {x y : Binary64} (h : x.same y = true) (z : Binary64) : z.lt x = z.lt y := by
  rw [lt, lt, level_eq_of_same h]

/-- Only a NaN is not equal to itself, and it is below nothing. -/
theorem same_self_of_lt {x y : Binary64} (h : x.lt y = true) : x.same x = true := by
  unfold lt at h
  split at h
  · next a b ha hb => exact same_iff.2 ⟨a, ha, ha⟩
  · cases h

theorem lt_iff {x y : Binary64} :
    x.lt y = true ↔ ∃ a b, x.level = some a ∧ y.level = some b ∧ a < b := by
  unfold lt
  cases x.level with
  | none => simp
  | some a => cases y.level <;> simp

theorem same_self_of_lt_right {x y : Binary64} (h : x.lt y = true) : y.same y = true := by
  obtain ⟨_, b, _, hy, _⟩ := lt_iff.1 h
  exact same_iff.2 ⟨b, hy, hy⟩

theorem not_same_of_lt {x y : Binary64} (h : x.lt y = true) : y.same x = false := by
  obtain ⟨a, b, hx, hy, hlt⟩ := lt_iff.1 h
  refine Bool.eq_false_iff.2 fun hsame => ?_
  have heq : b = a := Option.some.inj (hy.symm.trans ((level_eq_of_same hsame).trans hx))
  omega

theorem not_lt_of_lt {x y : Binary64} (h : x.lt y = true) : y.lt x = false := by
  obtain ⟨a, b, hx, hy, hlt⟩ := lt_iff.1 h
  simp only [lt, hx, hy, decide_eq_false_iff_not]
  omega

theorem exists_level {x : Binary64} (h : x.isFinite = true) : ∃ a, x.level = some a := by
  cases x with
  | nan => cases h
  | infinite => cases h
  | finite negative quanta fits => exact ⟨_, rfl⟩

theorem same_self_of_isFinite {x : Binary64} (h : x.isFinite = true) : x.same x = true := by
  obtain ⟨a, ha⟩ := exists_level h
  exact same_iff.2 ⟨a, ha, ha⟩

theorem same_comm (x y : Binary64) : x.same y = y.same x :=
  Bool.eq_iff_iff.2 ⟨isTest_same.symm, isTest_same.symm⟩

theorem lt_or_lt_of_not_same {x y : Binary64} (hx : x.same x = true) (hy : y.same y = true) (h : x.same y = false) :
    x.lt y = true ∨ y.lt x = true := by
  obtain ⟨a, ha, -⟩ := same_iff.1 hx
  obtain ⟨b, hb, -⟩ := same_iff.1 hy
  have hne : a ≠ b := by
    rintro rfl
    rw [same_iff.2 ⟨a, ha, hb⟩] at h
    cases h
  rcases Int.lt_or_gt_of_ne hne with hlt | hlt
  · exact .inl (lt_iff.2 ⟨a, b, ha, hb, hlt⟩)
  · exact .inr (lt_iff.2 ⟨b, a, hb, ha, hlt⟩)

theorem le_iff {x y : Binary64} :
    x.le y = true ↔ ∃ a b, x.level = some a ∧ y.level = some b ∧ a ≤ b := by
  unfold le
  cases x.level with
  | none => simp
  | some a => cases y.level <;> simp

theorem le_congr_left {x y : Binary64} (h : x.same y = true) (z : Binary64) : x.le z = y.le z := by
  rw [le, le, level_eq_of_same h]

theorem le_congr_right {x y : Binary64} (h : x.same y = true) (z : Binary64) : z.le x = z.le y := by
  rw [le, le, level_eq_of_same h]

theorem lt_irrefl (x : Binary64) : ¬ x.lt x = true := by
  intro h
  rw [not_lt_of_lt h] at h
  cases h

theorem le_self_of_lt {x y : Binary64} (h : x.lt y = true) : x.le x = true := by
  obtain ⟨a, -, ha, -, -⟩ := lt_iff.1 h
  exact le_iff.2 ⟨a, a, ha, ha, Int.le_refl a⟩

theorem lt_of_lt_of_le {x y z : Binary64} (hxy : x.lt y = true) (hyz : y.le z = true) : x.lt z = true := by
  obtain ⟨a, b, ha, hb, hlt⟩ := lt_iff.1 hxy
  obtain ⟨b', c, hb', hc, hle⟩ := le_iff.1 hyz
  cases hb.symm.trans hb'
  exact lt_iff.2 ⟨a, c, ha, hc, Int.lt_of_lt_of_le hlt hle⟩

theorem lt_of_le_of_lt {x y z : Binary64} (hxy : x.le y = true) (hyz : y.lt z = true) : x.lt z = true := by
  obtain ⟨a, b, ha, hb, hle⟩ := le_iff.1 hxy
  obtain ⟨b', c, hb', hc, hlt⟩ := lt_iff.1 hyz
  cases hb.symm.trans hb'
  exact lt_iff.2 ⟨a, c, ha, hc, Int.lt_of_le_of_lt hle hlt⟩

theorem lt_or_same_of_le {x y : Binary64} (h : x.le y = true) : x.lt y = true ∨ x.same y = true := by
  obtain ⟨a, b, ha, hb, hle⟩ := le_iff.1 h
  rcases Int.lt_or_eq_of_le hle with hlt | rfl
  · exact .inl (lt_iff.2 ⟨a, b, ha, hb, hlt⟩)
  · exact .inr (same_iff.2 ⟨a, ha, hb⟩)

theorem same_of_le_of_le {x y : Binary64} (hxy : x.le y = true) (hyx : y.le x = true) : x.same y = true := by
  rcases lt_or_same_of_le hxy with hlt | hsame
  · exact absurd (lt_of_lt_of_le hlt hyx) (lt_irrefl x)
  · exact hsame

theorem le_of_lt {x y : Binary64} (h : x.lt y = true) : x.le y = true := by
  obtain ⟨a, b, ha, hb, hlt⟩ := lt_iff.1 h
  exact le_iff.2 ⟨a, b, ha, hb, Int.le_of_lt hlt⟩

theorem le_of_same {x y : Binary64} (h : x.same y = true) : x.le y = true := by
  obtain ⟨a, ha, hb⟩ := same_iff.1 h
  exact le_iff.2 ⟨a, a, ha, hb, Int.le_refl a⟩

end WeekGrid.Binary64
