import Mathlib.Algebra.Group.Nat.Defs
import WeekGrid.Proofs.Binary64.Monotone

/-!
Adding a half to a double and cutting the sum to its whole part. The sum is rounded, and so this is not always the
integer nearest to the double: it is the next one for the double below a half, and for odd integers of 53 bits.
-/
namespace WeekGrid.Binary64

theorem quantaPerUnit_eq : quantaPerUnit = 2 * quantaPerHalf := by decide +kernel

theorem quantaPerHalf_pos : 0 < quantaPerHalf := by decide +kernel

theorem quantaPerUnit_pos : 0 < quantaPerUnit := by decide +kernel

/-- How many quanta a half and a unit are, as powers that no computation is to write out. -/
theorem exists_quantaPerHalf_eq :
    ∃ e, 53 ≤ e ∧ e + 55 < mostBits ∧ quantaPerHalf = 2 ^ e ∧ quantaPerUnit = 2 ^ (e + 1) := by
  have hpow : ∃ e, 53 ≤ e ∧ e + 55 < mostBits ∧ quantaPerHalf = Nat.pow 2 e ∧ quantaPerUnit = Nat.pow 2 (e + 1) :=
    ⟨1073, by decide, by decide, by decide +kernel, by decide +kernel⟩
  simpa only [Nat.pow_eq] using hpow

theorem div_quantaPerUnit_eq_iff {n k : Nat} :
    n / quantaPerUnit = k ↔ k * quantaPerUnit ≤ n ∧ n < (k + 1) * quantaPerUnit := by
  constructor
  · rintro rfl
    refine ⟨Nat.div_mul_le_self n _, ?_⟩
    rw [Nat.mul_comm]
    exact Nat.lt_mul_div_succ n quantaPerUnit_pos
  · rintro ⟨hlow, hhigh⟩
    exact Nat.div_eq_of_lt_le hlow hhigh

theorem fits_of_dvd {n e : Nat} (he : e + 53 < mostBits) (hle : n ≤ 2 ^ (e + 53)) (hdvd : 2 ^ e ∣ n) : Fits n := by
  rcases Nat.eq_zero_or_pos n with rfl | hpos
  · decide
  · rcases Nat.lt_or_eq_of_le hle with hlt | heq
    · have hlog : n.log2 < e + 53 := (Nat.log2_lt (Nat.pos_iff_ne_zero.1 hpos)).2 hlt
      exact ⟨Nat.lt_trans hlog he, Nat.dvd_trans (Nat.pow_dvd_pow 2 (by omega)) hdvd⟩
    · have hlog : n.log2 = e + 53 := by rw [heq, Nat.log2_two_pow]
      refine ⟨hlog ▸ he, ?_⟩
      rw [hlog, heq]
      exact Nat.pow_dvd_pow 2 (Nat.sub_le _ _)

theorem dvd_of_fits {n e : Nat} (h : Fits n) (hge : 2 ^ (e + 52) ≤ n) : 2 ^ e ∣ n := by
  have hpos : n ≠ 0 := Nat.pos_iff_ne_zero.1 (Nat.lt_of_lt_of_le (Nat.two_pow_pos _) hge)
  have hlog : e + 52 ≤ n.log2 := (Nat.le_log2 hpos).2 hge
  exact Nat.dvd_trans (Nat.pow_dvd_pow 2 (by omega)) h.2

theorem fits_mul_two_pow {m e : Nat} (he : e + 53 < mostBits) (h : m ≤ 2 ^ 53) : Fits (m * 2 ^ e) := by
  refine fits_of_dvd he ?_ (Nat.dvd_mul_left _ _)
  rw [Nat.add_comm, Nat.pow_add]
  exact Nat.mul_le_mul_right _ h

theorem fits_whole {n : Nat} (h : n ≤ 2 ^ 53) : Fits (n * quantaPerUnit) := by
  obtain ⟨e, -, he, -, hunit⟩ := exists_quantaPerHalf_eq
  rw [hunit]
  exact fits_mul_two_pow (Nat.lt_of_le_of_lt (by omega) he) h

theorem fits_whole_add_half {n : Nat} (h : n < 2 ^ 52) : Fits (n * quantaPerUnit + quantaPerHalf) := by
  have hodd : n * quantaPerUnit + quantaPerHalf = (2 * n + 1) * quantaPerHalf := by
    rw [quantaPerUnit_eq, Nat.succ_mul (2 * n), Nat.mul_comm 2 n, Nat.mul_assoc]
  obtain ⟨e, -, he, hhalf, -⟩ := exists_quantaPerHalf_eq
  rw [hodd, hhalf]
  exact fits_mul_two_pow (Nat.lt_of_le_of_lt (by omega) he) (by omega)

theorem fits_half : Fits quantaPerHalf := by decide +kernel

theorem exists_whole_of_le {quanta : Nat} (h : Fits quanta) (hge : 2 ^ 52 * quantaPerUnit ≤ quanta) :
    ∃ n, quanta = n * quantaPerUnit := by
  have hdvd : quantaPerUnit ∣ quanta := by
    obtain ⟨e, -, -, -, hunit⟩ := exists_quantaPerHalf_eq
    rw [hunit] at hge ⊢
    refine dvd_of_fits h ?_
    rwa [Nat.add_comm, Nat.pow_add]
  obtain ⟨n, hn⟩ := hdvd
  exact ⟨n, hn.trans (Nat.mul_comm ..)⟩

theorem rounded_eq_of_binade {n e : Nat} (he : e + 53 ≤ mostBits) (hlow : 2 ^ (e + 52) ≤ n)
    (hhigh : n < 2 ^ (e + 53)) : rounded n 1 = roundDiv n (2 ^ e) * 2 ^ e := by
  have hpos : n ≠ 0 := Nat.pos_iff_ne_zero.1 (Nat.lt_of_lt_of_le (Nat.two_pow_pos _) hlow)
  have hspare : spareBits n 1 = e := by
    rw [spareBits, Nat.div_one, (Nat.log2_eq_iff hpos).2 ⟨hlow, hhigh⟩]
    exact Nat.add_sub_cancel e 52
  have hlimit : 2 ^ (e + 53) ≤ Nat.pow 2 mostBits := by
    generalize mostBits = bits at he ⊢
    exact Nat.pow_le_pow_right (by decide) he
  have hbits := roundDiv_spareBits_le n 1
  have hround : roundToQuanta n 1 = roundDiv n (2 ^ e) * 2 ^ e := by
    simp only [roundToQuanta, hspare, Nat.one_mul, Nat.pow_eq]
  simp only [hspare, Nat.one_mul, Nat.pow_eq] at hbits
  rw [rounded, hround]
  refine Nat.min_eq_left ?_
  calc roundDiv n (2 ^ e) * 2 ^ e ≤ 2 ^ 53 * 2 ^ e := Nat.mul_le_mul_right _ hbits
    _ = 2 ^ (e + 53) := by rw [← Nat.pow_add, Nat.add_comm]
    _ ≤ Nat.pow 2 mostBits := hlimit

/-- The sum of an integer of 53 bits and a half is a tie. -/
theorem rounded_add_half_of_whole {n : Nat} (hge : 2 ^ 52 ≤ n) (hlt : n < 2 ^ 53) :
    rounded (n * quantaPerUnit + quantaPerHalf) 1 = (n + n % 2) * quantaPerUnit := by
  have hpos := quantaPerHalf_pos
  have hsum := quantaPerUnit_eq
  have hresult : roundDiv (n * quantaPerUnit + quantaPerHalf) quantaPerUnit = n + n % 2 := by
    have hdiv : (n * quantaPerUnit + quantaPerHalf) / quantaPerUnit = n := by
      rw [Nat.mul_comm, Nat.mul_add_div (by omega), Nat.div_eq_of_lt (by omega), Nat.add_zero]
    have hmod : (n * quantaPerUnit + quantaPerHalf) % quantaPerUnit = quantaPerHalf := by
      rw [Nat.mul_comm, Nat.mul_add_mod, Nat.mod_eq_of_lt (by omega)]
    rw [roundDiv, hdiv, hmod, if_neg (by omega), if_neg (by omega)]
    split <;> omega
  have hlow : 2 ^ 52 * quantaPerUnit ≤ n * quantaPerUnit + quantaPerHalf :=
    Nat.le_trans (Nat.mul_le_mul_right _ hge) (Nat.le_add_right _ _)
  have hhigh : n * quantaPerUnit + quantaPerHalf < 2 ^ 53 * quantaPerUnit := by
    refine Nat.lt_of_lt_of_le ?_ (Nat.mul_le_mul_right _ hlt)
    rw [Nat.succ_mul]
    omega
  obtain ⟨e, -, he, -, hunit⟩ := exists_quantaPerHalf_eq
  rw [← hresult]
  rw [hunit, ← Nat.pow_add, Nat.add_comm _ (e + 1)] at hlow hhigh
  rw [hunit]
  exact rounded_eq_of_binade (Nat.le_of_lt (Nat.lt_of_le_of_lt (by omega) he)) hlow hhigh

/-- The largest magnitude of a finite double that is below a half. -/
def belowHalf : Nat := quantaPerHalf - Nat.pow 2 1020

theorem belowHalf_lt : belowHalf < quantaPerHalf := by decide +kernel

theorem nearestWhole_belowHalf : nearestWhole belowHalf = 1 := by decide +kernel

theorem exists_belowHalf_eq :
    ∃ e, e + 54 < mostBits ∧ quantaPerHalf = 2 ^ 53 * 2 ^ e ∧ belowHalf = (2 ^ 53 - 1) * 2 ^ e := by
  have hpow : ∃ e, e + 54 < mostBits ∧ quantaPerHalf = Nat.pow 2 53 * Nat.pow 2 e ∧
      belowHalf = (Nat.pow 2 53 - 1) * Nat.pow 2 e := ⟨1020, by decide, by decide +kernel, by decide +kernel⟩
  simpa only [Nat.pow_eq] using hpow

theorem le_of_lt_multiple {quanta c e : Nat} (h : Fits quanta) (hc : 2 ^ 52 ≤ c) (hlt : quanta < (c + 1) * 2 ^ e) :
    quanta ≤ c * 2 ^ e := by
  rcases Nat.lt_or_ge quanta (2 ^ (e + 52)) with hsmall | hlarge
  · rw [Nat.add_comm, Nat.pow_add] at hsmall
    exact Nat.le_trans (Nat.le_of_lt hsmall) (Nat.mul_le_mul_right _ hc)
  · obtain ⟨significand, rfl⟩ := dvd_of_fits h hlarge
    rw [Nat.mul_comm] at hlt ⊢
    exact Nat.mul_le_mul_right _ (Nat.le_of_lt_succ (Nat.lt_of_mul_lt_mul_right hlt))

theorem le_belowHalf {quanta : Nat} (h : Fits quanta) (hlt : quanta < quantaPerHalf) : quanta ≤ belowHalf := by
  obtain ⟨e, -, hhalf, hbelow⟩ := exists_belowHalf_eq
  rw [hhalf] at hlt
  rw [hbelow]
  exact le_of_lt_multiple h (by decide) hlt

theorem nearestWhole_of_lt_belowHalf {quanta : Nat} (h : Fits quanta) (hlt : quanta < belowHalf) :
    nearestWhole quanta = 0 := by
  obtain ⟨e, he, hhalf, hbelow⟩ := exists_belowHalf_eq
  rw [hbelow] at hlt
  have hfits : Fits ((2 ^ 53 - 1) * 2 ^ (e + 1)) := fits_mul_two_pow he (by decide)
  have hsum : quanta + quantaPerHalf ≤ (2 ^ 53 - 1) * 2 ^ (e + 1) := by
    have hle := le_of_lt_multiple (c := 2 ^ 53 - 2) h (by decide) hlt
    rw [hhalf, Nat.pow_succ]
    omega
  have hround := rounded_mono hsum 1
  rw [rounded_of_fits hfits] at hround
  refine Nat.div_eq_of_lt (Nat.lt_of_le_of_lt hround ?_)
  have hpow := Nat.two_pow_pos e
  rw [quantaPerUnit_eq, hhalf, Nat.pow_succ]
  omega

/-- A half can be added without rounding as long as this leads to no other binade. -/
theorem fits_add_half {quanta : Nat} (h : Fits quanta) (hge : quantaPerHalf ≤ quanta)
    (hlt : quanta < 2 ^ 52 * quantaPerUnit)
    (hroom : quanta + quantaPerHalf ≤ (quanta / quantaPerUnit + 1) * quantaPerUnit) :
    Fits (quanta + quantaPerHalf) := by
  obtain ⟨e, hlow, hhigh, hhalf, hunit⟩ := exists_quantaPerHalf_eq
  have hpos : quanta ≠ 0 := by
    have := quantaPerHalf_pos
    omega
  have hlogLow : e ≤ quanta.log2 := (Nat.le_log2 hpos).2 (hhalf ▸ hge)
  have hlogHigh : quanta.log2 < e + 53 := by
    refine (Nat.log2_lt hpos).2 ?_
    rwa [hunit, ← Nat.pow_add, Nat.add_comm, Nat.add_assoc] at hlt
  have hbinade : (quanta / quantaPerUnit + 1) * quantaPerUnit ≤ 2 ^ (quanta.log2 - 52 + 53) := by
    have hpow : 2 ^ (quanta.log2 - 52 + 53) = 2 ^ (quanta.log2 - e) * quantaPerUnit := by
      have hexponent : quanta.log2 - 52 + 53 = quanta.log2 - e + (e + 1) := by omega
      rw [hexponent, Nat.pow_add, ← hunit]
    rw [hpow]
    refine Nat.mul_le_mul_right _ (Nat.div_lt_of_lt_mul ?_)
    rw [Nat.mul_comm, ← hpow]
    refine Nat.lt_of_lt_of_le Nat.lt_log2_self (Nat.pow_le_pow_right (by decide) (by omega))
  refine fits_of_dvd (e := quanta.log2 - 52) (by omega) (Nat.le_trans hroom hbinade) ((Nat.dvd_add_right h.2).2 ?_)
  rw [hhalf]
  exact Nat.pow_dvd_pow 2 (by omega)

theorem nearestWhole_of_lt {quanta : Nat} (h : Fits quanta) (hge : quantaPerHalf ≤ quanta)
    (hlt : quanta < 2 ^ 52 * quantaPerUnit) :
    nearestWhole quanta = (quanta + quantaPerHalf) / quantaPerUnit := by
  have hunit := quantaPerUnit_eq
  have hpos := quantaPerHalf_pos
  obtain ⟨n, hn⟩ : ∃ n, quanta / quantaPerUnit = n := ⟨_, rfl⟩
  have hquanta : quanta < (n + 1) * quantaPerUnit := by
    rw [← hn, Nat.mul_comm]
    exact Nat.lt_mul_div_succ quanta (by omega)
  have hnHigh : n + 1 ≤ 2 ^ 52 := hn ▸ Nat.div_lt_of_lt_mul (Nat.mul_comm .. ▸ hlt)
  rcases Nat.lt_or_ge ((n + 1) * quantaPerUnit) (quanta + quantaPerHalf) with hover | hroom
  · -- past the next integer the sum may be rounded, but not as far as to the integer after it
    have hsucc : (n + 1 + 1) * quantaPerUnit = (n + 1) * quantaPerUnit + quantaPerUnit := Nat.succ_mul ..
    have hlow : (n + 1) * quantaPerUnit ≤ rounded (quanta + quantaPerHalf) 1 := by
      rw [← rounded_of_fits (fits_whole (n := n + 1) (by omega))]
      exact rounded_mono (Nat.le_of_lt hover) 1
    have hhigh : rounded (quanta + quantaPerHalf) 1 < (n + 1 + 1) * quantaPerUnit := by
      refine Nat.lt_of_le_of_lt (rounded_mono (Nat.add_le_add_right (Nat.le_of_lt hquanta) _) 1) ?_
      rcases Nat.lt_or_eq_of_le hnHigh with hless | heq
      · rw [rounded_of_fits (fits_whole_add_half hless)]
        omega
      · rw [heq, rounded_add_half_of_whole (Nat.le_refl _) (by decide)]
        exact Nat.mul_lt_mul_of_pos_right (by decide) (by omega)
    rw [nearestWhole, Nat.div_eq_of_lt_le hlow hhigh, Nat.div_eq_of_lt_le (Nat.le_of_lt hover) (by omega)]
  · rw [nearestWhole, rounded_of_fits (fits_add_half h hge hlt (hn ▸ hroom))]

theorem nearestWhole_of_whole {n : Nat} (hge : 2 ^ 52 ≤ n) (hlt : n < 2 ^ 53) :
    nearestWhole (n * quantaPerUnit) = n + n % 2 := by
  rw [nearestWhole, rounded_add_half_of_whole hge hlt]
  exact Nat.mul_div_cancel _ quantaPerUnit_pos

theorem nearestWhole_of_le {quanta : Nat} (h : Fits quanta) (hge : 2 ^ 53 * quantaPerUnit ≤ quanta) :
    nearestWhole quanta = quanta / quantaPerUnit := by
  obtain ⟨e, -, -, hhalf, hunit⟩ := exists_quantaPerHalf_eq
  have hpos : quanta ≠ 0 := by
    have hunitPos := Nat.two_pow_pos (e + 1)
    omega
  have hlog : e + 54 ≤ quanta.log2 := by
    refine (Nat.le_log2 hpos).2 ?_
    rwa [hunit, ← Nat.pow_add, Nat.add_comm, Nat.add_assoc] at hge
  obtain ⟨bits, hbits⟩ : ∃ bits, quanta.log2 = bits + 52 := ⟨quanta.log2 - 52, by omega⟩
  obtain ⟨hroom, hdvd⟩ := h
  rw [hbits, Nat.add_sub_cancel] at hdvd
  obtain ⟨significand, hquanta⟩ := hdvd
  rw [Nat.pow_eq] at hquanta
  -- A half is less than half a step between neighbouring values here, so the sum is rounded back to the value.
  have hstep : 2 * quantaPerHalf < 2 ^ bits := by
    rw [hhalf, ← Nat.pow_succ']
    exact Nat.pow_lt_pow_right (by decide) (by omega)
  have hlow : 2 ^ (bits + 52) ≤ quanta := hbits ▸ Nat.log2_self_le hpos
  have hhigh : quanta < 2 ^ (bits + 53) := by
    have hlt := Nat.lt_log2_self (n := quanta)
    rwa [hbits] at hlt
  have hsum : quanta + quantaPerHalf < 2 ^ (bits + 53) := by
    rw [hquanta, Nat.pow_add] at hhigh ⊢
    have hsignificand := Nat.lt_of_mul_lt_mul_left hhigh
    refine Nat.lt_of_lt_of_le ?_ (Nat.mul_le_mul_left _ hsignificand)
    rw [Nat.mul_succ]
    omega
  have hdiv : roundDiv (quanta + quantaPerHalf) (2 ^ bits) = significand := by
    have hq : (quanta + quantaPerHalf) / 2 ^ bits = significand := by
      rw [hquanta, Nat.mul_add_div (Nat.two_pow_pos _), Nat.div_eq_of_lt (by omega), Nat.add_zero]
    have hr : (quanta + quantaPerHalf) % 2 ^ bits = quantaPerHalf := by
      rw [hquanta, Nat.mul_add_mod, Nat.mod_eq_of_lt (by omega)]
    rw [roundDiv, hq, hr, if_pos hstep]
  have hbitsHigh : bits + 53 ≤ mostBits := by
    unfold mostBits
    omega
  rw [nearestWhole, rounded_eq_of_binade hbitsHigh (Nat.le_trans hlow (Nat.le_add_right _ _)) hsum, hdiv,
    Nat.mul_comm, ← hquanta]

theorem fits_nearestWhole {quanta : Nat} (h : Fits quanta) : Fits (nearestWhole quanta * quantaPerUnit) := by
  have hlimit := add_half_lt_of_fits h
  have hsum : Fits (rounded (quanta + quantaPerHalf) 1) := fits_rounded (by rwa [Nat.mul_one])
  rw [nearestWhole]
  generalize rounded (quanta + quantaPerHalf) 1 = sum at hsum
  rcases Nat.lt_or_ge sum (2 ^ 53 * quantaPerUnit) with hless | hmore
  · exact fits_whole (Nat.le_of_lt (Nat.div_lt_of_lt_mul (Nat.mul_comm .. ▸ hless)))
  · have hle : 2 ^ 52 * quantaPerUnit ≤ sum := by omega
    obtain ⟨n, hn⟩ := exists_whole_of_le hsum hle
    rwa [hn, Nat.mul_div_cancel _ quantaPerUnit_pos, ← hn]

end WeekGrid.Binary64
