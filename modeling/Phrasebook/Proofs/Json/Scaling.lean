import Phrasebook.Proofs.Double.Naturals
import Phrasebook.Proofs.Double.Powers
import Phrasebook.Proofs.Json.Parsed

/-!
# Proofs/Json/Scaling — scaling a significand by a power of ten

Scaling down always gives a double, and scaling up gives one below the end of the range.  The
significand is two roundings off, the power one, and their product one more: what four roundings do
not take to the end of the range is scaled safely.
-/

namespace Phrasebook.Json

open Double Scan

variable {value scaled : Float} {n fuel : Nat} {exponent : Int}

/-! ## Scaling -/

theorem isFinite_ofNat_of_le (h : n ≤ wholeLimit) : (Float.ofNat n).isFinite = true := by
  have hlimit : wholeLimit = 2 ^ 64 - 1 := rfl
  rcases Nat.eq_zero_or_pos n with rfl | hpos
  · decide +kernel
  · exact (isFinite_ofNat hpos (by omega)).1

/-- **Scaling keeps doubles finite.** -/
theorem isFinite_scaleInto (hvalue : value.isFinite = true)
    (h : scaleInto fuel value exponent = some scaled) : scaled.isFinite = true := by
  fun_induction scaleInto fuel value exponent with
  | case1 => cases h
  | case2 fuel value exponent hsmall hpos product hinf =>
    rw [← Option.some.inj h]
    exact isFinite_mul hvalue (size_tenTo hsmall).1 (Bool.eq_false_of_not_eq_true hinf)
  | case3 fuel value exponent hsmall hneg =>
    cases h
    exact isFinite_div hvalue (size_tenTo hsmall).1 ((size_tenTo hsmall).2.2 (by omega))
  | case4 =>
    cases h
    exact hvalue
  | case5 => cases h
  | case6 =>
    cases h
    rfl
  | case7 value exponent hlarge hne hneg fuel ih =>
    exact ih (isFinite_div hvalue (size_tenTo le_rfl).1 ((size_tenTo le_rfl).2.2 (by omega))) h

/-- A scaling down always ends. -/
theorem scaleInto_of_neg (fuel : Nat) (value : Float) (h : exponent < 0) :
    ∃ scaled, scaleInto fuel value exponent = some scaled := by
  fun_induction scaleInto fuel value exponent with
  | case1 fuel value exponent hsmall hpos => omega
  | case2 fuel value exponent hsmall hpos => omega
  | case3 => exact ⟨_, rfl⟩
  | case4 fuel value => exact ⟨_, rfl⟩
  | case5 fuel value exponent hlarge hne hpos => omega
  | case6 => exact ⟨_, rfl⟩
  | case7 value exponent hlarge hne hneg fuel ih => exact ih (by omega)

/-- A number so far below the end of the range that four roundings do not take it there. -/
def safeLimit : ℚ := (2 ^ 54 - 65) * 2 ^ (970 : Int)

theorem safeLimit_mul_slack_lt : safeLimit * slack * slack * slack * slack < 2 ^ (1024 : Int) := by
  have hsplit : (2 : ℚ) ^ (1024 : Int) = 2 ^ (54 : Int) * 2 ^ (970 : Int) := by
    rw [← zpow_add₀ (by norm_num)]
    norm_num
  have hfactor : (2 ^ 54 - 65) * slack * slack * slack * slack < 2 ^ (54 : Int) := by
    norm_num [slack]
  calc safeLimit * slack * slack * slack * slack
      = (2 ^ 54 - 65) * slack * slack * slack * slack * 2 ^ (970 : Int) := by rw [safeLimit]; ring
    _ < 2 ^ (54 : Int) * 2 ^ (970 : Int) := by gcongr
    _ = 2 ^ (1024 : Int) := hsplit.symm

theorem lt_of_mul_pow_le {k : Nat} (hn : 0 < n) (h : n * 10 ^ k ≤ safeLimit) : k < 309 := by
  have hone : (1 : ℚ) ≤ n := by exact_mod_cast hn
  have hlimit : (2 : Nat) ^ 1024 < 10 ^ 309 := by decide +kernel
  have hlt : (10 : ℚ) ^ k < 10 ^ 309 :=
    calc (10 : ℚ) ^ k
        ≤ n * 10 ^ k := le_mul_of_one_le_left (by positivity) hone
      _ ≤ safeLimit := h
      _ ≤ 2 ^ (54 : Int) * 2 ^ (970 : Int) := by
        rw [safeLimit]
        gcongr
        norm_num
      _ = 2 ^ 1024 := by rw [← zpow_natCast, ← zpow_add₀ (by norm_num)]; rfl
      _ < 10 ^ 309 := by exact_mod_cast hlimit
  exact (pow_lt_pow_iff_right₀ (by norm_num)).1 hlt

/-- **What lies safely in the range can be scaled up.** -/
theorem scaleInto_of_le {k : Nat} (fuel : Nat) (hn : 0 < n) (hle : n ≤ wholeLimit)
    (h : n * 10 ^ k ≤ safeLimit) :
    ∃ scaled, scaleInto fuel (Float.ofNat n) k = some scaled := by
  have hlimit : wholeLimit = 2 ^ 64 - 1 := rfl
  have hk : k ≤ 308 := by
    have := lt_of_mul_pow_le hn h
    omega
  obtain ⟨hfinite, hsize⟩ := isFinite_ofNat hn (by omega)
  obtain ⟨hpower, hpowerSize, -⟩ := size_tenTo hk
  have hone : (1 : ℚ) ≤ n * 10 ^ k := by
    exact_mod_cast Nat.mul_pos hn (by positivity)
  have hslack := one_le_slack
  have hslack0 := slack_nonneg
  have hproduct : roundedUp (size (Float.ofNat n) * size (tenTo k)) < 2 ^ (1024 : Int) :=
    calc roundedUp (size (Float.ofNat n) * size (tenTo k))
        ≤ roundedUp (n * slack * slack * (10 ^ k * slack)) := by
          refine roundedUp_mono ?_
          have := size_nonneg (tenTo k)
          gcongr
      _ = roundedUp (n * 10 ^ k * slack * slack * slack) := by
          congr 1
          ring
      _ ≤ n * 10 ^ k * slack * slack * slack * slack := by
          have hproduct : 0 ≤ n * (10 : ℚ) ^ k := by positivity
          refine roundedUp_le_mul_slack (hone.trans ?_)
          exact (le_mul_slack hproduct).trans ((le_mul_slack (by positivity)).trans
            (le_mul_slack (by positivity)))
      _ ≤ safeLimit * slack * slack * slack * slack := by gcongr
      _ < 2 ^ (1024 : Int) := safeLimit_mul_slack_lt
  have hinf := isInf_of_isFinite (size_mul_le hfinite hpower hproduct).1
  rw [scaleInto.eq_def, Int.natAbs_natCast, if_pos hk, if_pos (by omega)]
  dsimp only
  rw [hinf]
  exact ⟨_, rfl⟩

end Phrasebook.Json
