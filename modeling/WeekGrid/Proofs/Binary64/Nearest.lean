import WeekGrid.Proofs.Binary64.Monotone

/-!
What rounding does to a quotient: it is that of the reduced fraction, and no finite double is nearer.
-/
namespace WeekGrid

theorem roundDiv_mul_right (num den : Nat) {c : Nat} (hc : 0 < c) :
    roundDiv (num * c) (den * c) = roundDiv num den := by
  have hmod : num * c % (den * c) = num % den * c := Nat.mul_mod_mul_right c num den
  simp only [roundDiv, Nat.mul_div_mul_right num den hc, hmod, ← Nat.mul_assoc, Nat.mul_lt_mul_right hc]

theorem natAbs_sub_roundDiv_le (num c : Nat) {den : Nat} (hden : 0 < den) :
    ((num : Int) - (roundDiv num den * den : Nat)).natAbs ≤ ((num : Int) - (c * den : Nat)).natAbs := by
  have hnum : num / den * den + num % den = num := by rw [Nat.mul_comm]; exact Nat.div_add_mod num den
  have hmod : num % den < den := Nat.mod_lt num hden
  have hsucc : (num / den + 1) * den = num / den * den + den := Nat.succ_mul ..
  -- the multiple lies at the one below the dividend or further down, or at the one above it or further up
  have hside : c * den ≤ num / den * den ∨ num / den * den + den ≤ c * den := by
    rcases Nat.lt_or_ge (num / den) c with hlt | hge
    · exact .inr (hsucc ▸ Nat.mul_le_mul_right den hlt)
    · exact .inl (Nat.mul_le_mul_right den hge)
  have hround : roundDiv num den * den = num / den * den ∧ 2 * (num % den) ≤ den ∨
      roundDiv num den * den = num / den * den + den ∧ den ≤ 2 * (num % den) := by
    simp only [roundDiv]
    repeat' split
    all_goals omega
  generalize roundDiv num den * den = result at hround ⊢
  generalize c * den = multiple at hside ⊢
  generalize num / den * den = below at hnum hside hround
  omega

namespace Binary64

theorem roundToQuanta_mul_right (num den : Nat) {c : Nat} (hc : 0 < c) :
    roundToQuanta (num * c) (den * c) = roundToQuanta num den := by
  have hspare : spareBits (num * c) (den * c) = spareBits num den := by
    rw [spareBits, spareBits, Nat.mul_div_mul_right num den hc]
  simp only [roundToQuanta, hspare]
  rw [Nat.mul_right_comm, roundDiv_mul_right _ _ hc]

theorem rounded_mul_right (num den : Nat) {c : Nat} (hc : 0 < c) :
    rounded (num * c) (den * c) = rounded num den := by
  rw [rounded, rounded, roundToQuanta_mul_right num den hc]

theorem nearest_congr {num den num' den' : Nat} (h : roundToQuanta num den = roundToQuanta num' den')
    (negative : Bool) : nearest negative num den = nearest negative num' den' := by
  unfold nearest
  simp only [h]

theorem nearest_mul_right (negative : Bool) (num den : Nat) {c : Nat} (hc : 0 < c) :
    nearest negative (num * c) (den * c) = nearest negative num den :=
  nearest_congr (roundToQuanta_mul_right num den hc) negative

theorem nearest_of_fits (negative : Bool) {quanta : Nat} (h : Fits quanta) :
    nearest negative quanta 1 = .finite negative quanta h := by
  have hround := roundToQuanta_of_fits h
  rw [nearest, dif_pos (by rw [hround]; exact h.1)]
  simp only [hround]

theorem isFinite_nearest_eq (negative other : Bool) (num den : Nat) :
    (nearest negative num den).isFinite = (nearest other num den).isFinite := by
  unfold nearest
  split <;> rfl

theorem isFinite_neg_mul {x y : Binary64} (h : (x * y).isFinite = true) : (x.neg * y).isFinite = true := by
  have hx := isFinite_of_mul h
  cases x with
  | nan => cases hx
  | infinite => cases hx
  | finite s m mfits =>
    change (mul _ _).isFinite = true at h
    change (mul _ _).isFinite = true
    cases y with
    | nan => cases h
    | infinite t =>
      rw [mul] at h
      split at h <;> cases h
    | finite t n nfits =>
      rw [mul] at h
      rw [neg, mul, isFinite_nearest_eq _ (s != t)]
      exact h

/-- No magnitude of a finite double is nearer to a quotient than its rounding. -/
theorem natAbs_sub_roundToQuanta_le (num : Nat) {den quanta : Nat} (hden : 0 < den) (h : Fits quanta) :
    ((num : Int) - (roundToQuanta num den * den : Nat)).natAbs ≤ ((num : Int) - (quanta * den : Nat)).natAbs := by
  obtain ⟨step, hstep⟩ : ∃ step, step = 2 ^ spareBits num den := ⟨_, rfl⟩
  have hresult : roundToQuanta num den * den = roundDiv num (den * step) * (den * step) := by
    simp only [roundToQuanta, Nat.pow_eq, ← hstep, Nat.mul_assoc, Nat.mul_comm]
  have hmultiple : ∀ c, ((num : Int) - (roundToQuanta num den * den : Nat)).natAbs ≤
      ((num : Int) - (c * step * den : Nat)).natAbs := by
    intro c
    have hstepPos : 0 < step := hstep ▸ Nat.two_pow_pos _
    have hle := natAbs_sub_roundDiv_le num c (Nat.mul_pos hden hstepPos)
    rwa [← hresult, Nat.mul_comm den, ← Nat.mul_assoc] at hle
  by_cases hdvd : step ∣ quanta
  · obtain ⟨c, rfl⟩ := hdvd
    rw [Nat.mul_comm step]
    exact hmultiple c
  · -- a magnitude between two multiples lies below the binade of the quotient, which begins with a multiple
    have hspare : quanta.log2 - 52 < spareBits num den := by
      refine Nat.lt_of_not_le fun hle => hdvd (Nat.dvd_trans ?_ h.2)
      rw [hstep]
      exact Nat.pow_dvd_pow 2 hle
    have hlow : 2 ^ 52 * step * den ≤ num := by
      have hpos : num / den ≠ 0 := by
        intro hzero
        simp [spareBits, hzero] at hspare
      rw [← Nat.le_div_iff_mul_le hden, hstep, ← Nat.pow_add]
      refine Nat.le_trans (Nat.pow_le_pow_right (by decide) ?_) (Nat.log2_self_le hpos)
      unfold spareBits at hspare ⊢
      omega
    have hbelow : quanta * den ≤ 2 ^ 52 * step * den := by
      refine Nat.mul_le_mul_right den (Nat.le_trans (Nat.le_of_lt Nat.lt_log2_self) ?_)
      rw [hstep, ← Nat.pow_add]
      exact Nat.pow_le_pow_right (by decide) (by omega)
    have hle := hmultiple (2 ^ 52)
    omega

/-- A finite double such that no other is nearer to the quotient. -/
structure IsNearest (num : Int) (den : Nat) (x : Binary64) : Prop where
  finite : x.isFinite = true
  le : ∀ (y : Binary64) (a b : Int), y.isFinite = true → x.level = some a → y.level = some b →
    (num * quantaPerUnit - a * den).natAbs ≤ (num * quantaPerUnit - b * den).natAbs

def nearestRatio (num : Int) (den : Nat) : Binary64 :=
  nearest (decide (num < 0)) (num.natAbs * quantaPerUnit) den

theorem level_nearestRatio (num : Int) (den : Nat) :
    (nearestRatio num den).level = some (mirror (fun m => rounded (m * quantaPerUnit) den) num) := by
  rw [nearestRatio, level_nearest, mirror]
  by_cases hneg : num < 0 <;> simp [hneg, signedQuanta]

theorem isNearest_nearestRatio {num : Int} {den : Nat} (hden : 0 < den)
    (hroom : num.natAbs * quantaPerUnit < roundingLimit * den) : (nearestRatio num den).IsNearest num den where
  finite := isFinite_nearest _ hroom
  le := by
    intro y a b hy ha hb
    cases y with
    | nan => cases hy
    | infinite => cases hy
    | finite negative quanta fits =>
      rw [level_nearestRatio] at ha
      cases ha
      cases hb
      have hround : rounded (num.natAbs * quantaPerUnit) den = roundToQuanta (num.natAbs * quantaPerUnit) den :=
        Nat.min_eq_left (Nat.le_of_lt (roundToQuanta_lt hroom))
      have hle := natAbs_sub_roundToQuanta_le (num.natAbs * quantaPerUnit) hden fits
      rw [← hround] at hle
      have hnum : num * quantaPerUnit = signedQuanta (decide (num < 0)) (num.natAbs * quantaPerUnit) := by
        by_cases hneg : num < 0
        · simp only [signedQuanta, hneg, decide_true, if_true, Int.natCast_mul, ← Int.neg_mul]
          congr 1
          omega
        · simp only [signedQuanta, hneg, decide_false, Bool.false_eq_true, if_false, Int.natCast_mul]
          congr 1
          omega
      rw [hnum, mirror]
      generalize num.natAbs * quantaPerUnit = top at hle ⊢
      generalize rounded top den = result at hle ⊢
      by_cases hneg : num < 0 <;> cases negative <;>
        simp only [signedQuanta, hneg, decide_true, decide_false, if_true, if_false, Bool.false_eq_true,
          Int.neg_mul, ← Int.natCast_mul] <;> omega

end Binary64
end WeekGrid
