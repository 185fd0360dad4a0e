import Mathlib

/-!
# Proofs/Double/Rounding — what rounding makes of a number

    m · 2 ^ e ──shift──▸ fewer bits ──add 0 or 1──▸ ──shift──▸ m' · 2 ^ e'

Sizes are compared as rationals and signs are left out.  A shift drops bits, so it makes a number
smaller; what is added is one unit in the last place that is left.  So rounding takes a number up by
one part in 2 ^ 52 at most, and it ends in the range of doubles unless that is beyond the range.
-/

namespace Phrasebook.Double

open Float.Model Float.Model.Format Float.Model.UnpackedFloat

variable {m r : Nat} {e : Int}

/-! ## Scaled mantissas -/

theorem zpow_eq_div {a : ℚ} (ha : a ≠ 0) (e : Int) : a ^ e = a ^ e.toNat / a ^ (-e).toNat := by
  rw [eq_div_iff (pow_ne_zero _ ha), ← zpow_natCast, ← zpow_natCast, ← zpow_add₀ ha]
  congr 1
  omega

/-- `m · 2 ^ e`. -/
def scaled (m : Nat) (e : Int) : ℚ := m * 2 ^ e

theorem scaled_nonneg (m : Nat) (e : Int) : 0 ≤ scaled m e := by
  rw [scaled]
  positivity

theorem scaled_mono {n : Nat} (h : m ≤ n) (e : Int) : scaled m e ≤ scaled n e := by
  rw [scaled, scaled]
  gcongr

theorem scaled_add_one (m : Nat) (e : Int) : scaled (m + 1) e = scaled m e + 2 ^ e := by
  rw [scaled, scaled, Nat.cast_succ, add_mul, one_mul]

theorem scaled_zero (m : Nat) : scaled m 0 = m := by rw [scaled, zpow_zero, mul_one]

theorem scaled_mul (m₁ m₂ : Nat) (e₁ e₂ : Int) :
    scaled (m₁ * m₂) (e₁ + e₂) = scaled m₁ e₁ * scaled m₂ e₂ := by
  rw [scaled, scaled, scaled, zpow_add₀ (by norm_num), Nat.cast_mul]
  ring

/-- Bits that are shifted in change nothing. -/
theorem scaled_shiftLeft (m k : Nat) (e : Int) : scaled (m <<< k) (e - k) = scaled m e := by
  rw [scaled, scaled, Nat.shiftLeft_eq, Nat.cast_mul, Nat.cast_pow, Nat.cast_ofNat, mul_assoc,
    ← zpow_natCast, ← zpow_add₀ (by norm_num)]
  congr 2
  omega

/-- Bits that are shifted out make a number smaller. -/
theorem scaled_div_le (m k : Nat) (e : Int) : scaled (m / 2 ^ k) (e + k) ≤ scaled m e := by
  have hdiv : ((m / 2 ^ k : Nat) : ℚ) * 2 ^ k ≤ m := by exact_mod_cast Nat.div_mul_le_self m (2 ^ k)
  calc scaled (m / 2 ^ k) (e + k)
      = ((m / 2 ^ k : Nat) : ℚ) * 2 ^ k * 2 ^ e := by
        rw [scaled, zpow_add₀ (by norm_num), zpow_natCast]
        ring
    _ ≤ m * 2 ^ e := by gcongr

/-- The leading bit of a mantissa is the first power of two below it. -/
theorem log2_add_lt {limit : Int} (hm : m ≠ 0) (h : scaled m e < 2 ^ limit) :
    m.log2 + e < limit := by
  have hlog : ((2 : ℚ) ^ m.log2) ≤ m := by exact_mod_cast Nat.log2_self_le hm
  have hlt : (2 : ℚ) ^ (m.log2 + e : Int) < 2 ^ limit :=
    calc (2 : ℚ) ^ (m.log2 + e : Int)
        = 2 ^ m.log2 * 2 ^ e := by rw [zpow_add₀ (by norm_num), zpow_natCast]
      _ ≤ m * 2 ^ e := by gcongr
      _ < 2 ^ limit := h
  exact (zpow_lt_zpow_iff_right₀ (by norm_num)).1 hlt

/-- A number is below the power of two above its leading bit. -/
theorem scaled_lt (m : Nat) (e : Int) : scaled m e < 2 ^ (m.log2 + 1 + e : Int) := by
  have hlog : (m : ℚ) < 2 ^ (m.log2 + 1) := by exact_mod_cast Nat.lt_log2_self
  rw [scaled, zpow_add₀ (by norm_num), ← Nat.cast_succ, zpow_natCast]
  gcongr

/-! ## Places -/

/-- The places that the bits of a mantissa are shifted by to have the exponent of a double. -/
def places (m : Nat) (e : Int) : Nat := (binary64.targetExponent (totalExponent m e) - e).toNat

theorem targetExponent_eq (m : Nat) (e : Int) :
    binary64.targetExponent (totalExponent m e) = max (m.log2 + 1 + e - 53) (-1074) := by
  simp [targetExponent, totalExponent, minExponent, mantissaBits]

/-- A number in the range of doubles is shifted to an exponent in their range. -/
theorem add_places_le (he : e ≤ 971) (h : scaled m e < 2 ^ (1024 : Int)) :
    e + places m e ≤ 971 := by
  rw [places, targetExponent_eq]
  rcases eq_or_ne m 0 with rfl | hm
  · rw [show Nat.log2 0 = 0 from rfl]
    omega
  · have := log2_add_lt hm h
    omega

/-- No bit of a double lies below the least exponent. -/
theorem le_add_places (m : Nat) (e : Int) : -1074 ≤ e + places m e := by
  rw [places, targetExponent_eq]
  omega

/-- The last place that is left of a number is small against it. -/
theorem two_zpow_add_places_le (hm : m ≠ 0) (hk : places m e ≠ 0) :
    (2 : ℚ) ^ (e + places m e) ≤ scaled m e * 2 ^ (-52 : Int) + 2 ^ (-1074 : Int) := by
  have hlog : ((2 : ℚ) ^ m.log2) ≤ m := by exact_mod_cast Nat.log2_self_le hm
  have hcases : e + places m e = m.log2 + e + -52 ∨ e + places m e = -1074 := by
    rw [places, targetExponent_eq] at hk ⊢
    omega
  rcases hcases with hnormal | hleast
  · have hle : (2 : ℚ) ^ (e + places m e) ≤ scaled m e * 2 ^ (-52 : Int) := by
      rw [hnormal, zpow_add₀ (by norm_num), zpow_add₀ (by norm_num), zpow_natCast, scaled]
      gcongr
    exact le_add_of_le_of_nonneg hle (by positivity)
  · rw [hleast]
    exact le_add_of_nonneg_left (mul_nonneg (scaled_nonneg m e) (by positivity))

/-! ## Rounding -/

theorem mantissa_shiftRight (em : ExtendedMantissa) (k : Nat) :
    (em >>> k).mantissa = em.mantissa / 2 ^ k := by
  induction k with
  | zero => exact (Nat.div_one em.mantissa).symm
  | succ k ih =>
    have hstep : (em >>> (k + 1)).mantissa = (em >>> k).mantissa / 2 := rfl
    rw [hstep, ih, Nat.div_div_eq_div_mul, Nat.pow_succ]

theorem roundedMantissa_le (em : ExtendedMantissa) : em.roundedMantissa ≤ em.mantissa + 1 := by
  obtain ⟨m, roundBit, stickyBit⟩ := em
  have hparity : m + m % 2 ≤ m + 1 := by omega
  cases roundBit <;> cases stickyBit <;>
    simp [ExtendedMantissa.roundedMantissa, ExtendedMantissa.accuracy,
      Accuracy.roundToNearestEven, hparity]

theorem mantissa_ofMantissaAndAccuracy (m : Nat) (accuracy : Accuracy) :
    (ExtendedMantissa.ofMantissaAndAccuracy m accuracy).mantissa = m := by
  cases accuracy with
  | exact => rfl
  | inexact position => cases position <;> rfl

/-- **What rounding does**: it shifts the mantissa, adds at most one to it, and shifts it again. -/
theorem roundWithAccuracy_eq (s : Sign) (m : Nat) (e : Int) (accuracy : Accuracy) :
    ∃ r, r ≤ m / 2 ^ places m e + 1 ∧ (places m e = 0 → accuracy = .exact → r = m)
      ∧ roundWithAccuracy binary64 s m e accuracy
        = if h : r / 2 ^ places r (e + places m e) = 0 then .zero s
          else .finite s (r / 2 ^ places r (e + places m e))
            (e + places m e + places r (e + places m e)) (Nat.pos_of_ne_zero h) := by
  refine ⟨(ExtendedMantissa.ofMantissaAndAccuracy m accuracy >>> places m e).roundedMantissa,
    ?_, ?_, ?_⟩
  · have hle := roundedMantissa_le (ExtendedMantissa.ofMantissaAndAccuracy m accuracy >>> places m e)
    rwa [mantissa_shiftRight, mantissa_ofMantissaAndAccuracy] at hle
  · rintro hplaces rfl
    rw [hplaces]
    rfl
  · rw [roundWithAccuracy]
    simp only [shiftToTargetExponent, shiftToExponent, mantissa_shiftRight,
      mantissa_ofMantissaAndAccuracy]
    rfl

/-- Zeros, and numbers whose exponent is one of a double. -/
def InRange : UnpackedFloat → Prop
  | .zero _ => True
  | .finite _ _ e _ => -1074 ≤ e ∧ e ≤ 971
  | _ => False

/-- The magnitude of a number, zero for what is none. -/
def magnitude : UnpackedFloat → ℚ
  | .finite _ m e _ => scaled m e
  | _ => 0

/-- A number whose mantissa fits after one more shift is in range. -/
theorem inRange_of_exponent {s : Sign} (he : e ≤ 971) (h : scaled r e < 2 ^ (1024 : Int)) :
    InRange (if h : r / 2 ^ places r e = 0 then .zero s
      else .finite s (r / 2 ^ places r e) (e + places r e) (Nat.pos_of_ne_zero h)) := by
  split
  · trivial
  · exact ⟨le_add_places r e, add_places_le he h⟩

/-- **Rounding what is below half of the range stays in range**, since it doubles a number at
most. -/
theorem inRange_roundWithAccuracy (s : Sign) (accuracy : Accuracy) (he : e ≤ 971)
    (h : scaled m e < 2 ^ (1023 : Int)) : InRange (roundWithAccuracy binary64 s m e accuracy) := by
  have hdouble : (2 : ℚ) ^ (1024 : Int) = 2 ^ (1023 : Int) * 2 := zpow_add_one₀ (by norm_num) 1023
  have hhalf : (2 : ℚ) ^ (1023 : Int) < 2 ^ (1024 : Int) :=
    zpow_lt_zpow_right₀ (by norm_num) (by norm_num)
  have hshifted : e + places m e ≤ 971 := add_places_le he (h.trans hhalf)
  obtain ⟨r, hr, -, hrounded⟩ := roundWithAccuracy_eq s m e accuracy
  rw [hrounded]
  refine inRange_of_exponent hshifted ?_
  rcases Nat.eq_zero_or_pos (m / 2 ^ places m e) with hzero | hpos
  · have hone : r ≤ 1 := by omega
    calc scaled r (e + places m e)
        ≤ scaled 1 (e + places m e) := scaled_mono hone _
      _ = 2 ^ (e + places m e) := by rw [scaled, Nat.cast_one, one_mul]
      _ < 2 ^ (1024 : Int) := zpow_lt_zpow_right₀ (by norm_num) (by omega)
  · have htwice : r ≤ m / 2 ^ places m e + m / 2 ^ places m e := by omega
    have hsum : scaled (m / 2 ^ places m e + m / 2 ^ places m e) (e + places m e)
        = scaled (m / 2 ^ places m e) (e + places m e) * 2 := by
      rw [scaled, scaled, Nat.cast_add]
      ring
    calc scaled r (e + places m e)
        ≤ scaled (m / 2 ^ places m e) (e + places m e) * 2 := (scaled_mono htwice _).trans_eq hsum
      _ ≤ scaled m e * 2 := by gcongr; exact scaled_div_le m _ e
      _ < 2 ^ (1024 : Int) := by rw [hdouble]; gcongr

/-! ## What rounding adds -/

/-- The most that a rounding makes of a number. -/
def roundedUp (a : ℚ) : ℚ := a * (1 + 2 ^ (-52 : Int)) + 2 ^ (-1074 : Int)

theorem le_roundedUp {a : ℚ} (h : 0 ≤ a) : a ≤ roundedUp a := by
  rw [roundedUp, mul_add, mul_one, add_assoc]
  exact le_add_of_nonneg_right (by positivity)

theorem roundedUp_mono {a b : ℚ} (h : a ≤ b) : roundedUp a ≤ roundedUp b := by
  rw [roundedUp, roundedUp]
  gcongr

/-- One unit more in the last place that is left stays below the bound. -/
theorem scaled_rounded_le (hm : m ≠ 0) (hr : r ≤ m / 2 ^ places m e + 1)
    (hexact : places m e = 0 → r = m) : scaled r (e + places m e) ≤ roundedUp (scaled m e) := by
  rcases Nat.eq_zero_or_pos (places m e) with hzero | hpos
  · rw [hexact hzero, hzero, Nat.cast_zero, add_zero]
    exact le_roundedUp (scaled_nonneg m e)
  · calc scaled r (e + places m e)
        ≤ scaled (m / 2 ^ places m e + 1) (e + places m e) := scaled_mono hr _
      _ = scaled (m / 2 ^ places m e) (e + places m e) + 2 ^ (e + places m e) :=
        scaled_add_one _ _
      _ ≤ scaled m e + (scaled m e * 2 ^ (-52 : Int) + 2 ^ (-1074 : Int)) :=
        add_le_add (scaled_div_le m _ e) (two_zpow_add_places_le hm (by omega))
      _ = roundedUp (scaled m e) := by rw [roundedUp]; ring

/-- **Rounding adds one unit in the last place at most**, and what stays below the range with it is
in range. -/
theorem roundWithAccuracy_exact (s : Sign) (hm : m ≠ 0) (he : e ≤ 971)
    (h : roundedUp (scaled m e) < 2 ^ (1024 : Int)) :
    InRange (roundWithAccuracy binary64 s m e .exact)
      ∧ magnitude (roundWithAccuracy binary64 s m e .exact) ≤ roundedUp (scaled m e) := by
  obtain ⟨r, hr, hexact, hrounded⟩ := roundWithAccuracy_eq s m e .exact
  have hle : scaled r (e + places m e) ≤ roundedUp (scaled m e) :=
    scaled_rounded_le hm hr fun hzero => hexact hzero rfl
  have hself : scaled m e ≤ roundedUp (scaled m e) := le_roundedUp (scaled_nonneg m e)
  rw [hrounded]
  refine ⟨inRange_of_exponent (add_places_le he (hself.trans_lt h)) (hle.trans_lt h), ?_⟩
  split
  · exact (scaled_nonneg r _).trans hle
  · exact (scaled_div_le r _ _).trans hle

/-- What a rounding makes of a number that is not small, as a factor. -/
def slack : ℚ := 1 + 2 ^ (-51 : Int)

theorem one_le_slack : 1 ≤ slack := by
  rw [slack]
  exact le_add_of_nonneg_right (by positivity)

theorem slack_nonneg : 0 ≤ slack := zero_le_one.trans one_le_slack

theorem le_mul_slack {a : ℚ} (h : 0 ≤ a) : a ≤ a * slack := le_mul_of_one_le_right h one_le_slack

theorem roundedUp_le_mul_slack {a : ℚ} (h : 1 ≤ a) : roundedUp a ≤ a * slack := by
  have hstep : (2 : ℚ) ^ (-51 : Int) = 2 ^ (-52 : Int) * 2 := zpow_add_one₀ (by norm_num) (-52)
  have htiny : (2 : ℚ) ^ (-1074 : Int) ≤ 2 ^ (-52 : Int) :=
    zpow_le_zpow_right₀ (by norm_num) (by norm_num)
  calc roundedUp a
      ≤ a * (1 + 2 ^ (-52 : Int)) + 2 ^ (-52 : Int) := by rw [roundedUp]; gcongr
    _ ≤ a * (1 + 2 ^ (-52 : Int)) + a * 2 ^ (-52 : Int) := by
      gcongr
      exact le_mul_of_one_le_left (by positivity) h
    _ = a * slack := by rw [slack, hstep]; ring

end Phrasebook.Double
