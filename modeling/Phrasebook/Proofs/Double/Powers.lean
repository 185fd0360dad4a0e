import Phrasebook.Json.Scan
import Phrasebook.Proofs.Double.Arithmetic

/-!
# Proofs/Double/Powers — powers of ten as doubles

Doubles have the powers of ten up to `10 ^ 308`, each of them one rounding off at most.
-/

namespace Phrasebook.Double

open Float.Model.UnpackedFloat Json.Scan

/-- Whether a power of ten is within one rounding as a double, and from ten on two or more. -/
def isNearPower (k : Nat) : Bool :=
  match (tenTo k).toModel.unpack with
  | .finite _ m e _ =>
    decide (m * 2 ^ 51 * 2 ^ e.toNat ≤ 10 ^ k * (2 ^ 51 + 1) * 2 ^ (-e).toNat)
      && (k == 0 || decide (2 * 2 ^ (-e).toNat ≤ m * 2 ^ e.toNat))
  | _ => false

theorem isNearPower_of_le : ∀ k < 309, isNearPower k = true := by decide +kernel

/-- **The powers of ten that doubles have** are finite and one rounding off at most. -/
theorem size_tenTo {k : Nat} (h : k ≤ 308) :
    (tenTo k).isFinite = true ∧ size (tenTo k) ≤ 10 ^ k * slack ∧ (0 < k → 2 ≤ size (tenTo k)) := by
  have hnear := isNearPower_of_le k (by omega)
  rw [isNearPower] at hnear
  split at hnear
  · rename_i s m e hm hunpack
    have hpower : (0 : ℚ) < 2 ^ (-e).toNat := by positivity
    have hfinite : (tenTo k).isFinite = (tenTo k).toModel.unpack.isFinite := rfl
    have hsize : size (tenTo k) = m * 2 ^ e.toNat / 2 ^ (-e).toNat := by
      rw [size, hunpack, magnitude, scaled, zpow_eq_div (by norm_num), mul_div_assoc]
    obtain ⟨habove, hbelow⟩ := by simpa only [Bool.and_eq_true, decide_eq_true_eq] using hnear
    refine ⟨by rw [hfinite, hunpack]; rfl, ?_, fun hpos => ?_⟩
    · have hcast : (m : ℚ) * 2 ^ 51 * 2 ^ e.toNat ≤ 10 ^ k * (2 ^ 51 + 1) * 2 ^ (-e).toNat := by
        exact_mod_cast habove
      have hslack : slack = (2 ^ 51 + 1) / 2 ^ 51 := by norm_num [slack]
      rw [hsize, hslack, div_le_iff₀ hpower, mul_div_assoc', div_mul_eq_mul_div,
        le_div_iff₀ (by norm_num)]
      linarith
    · have hcast : (2 : ℚ) * 2 ^ (-e).toNat ≤ m * 2 ^ e.toNat := by
        have hle : 2 * 2 ^ (-e).toNat ≤ m * 2 ^ e.toNat := by
          simpa [hpos.ne'] using hbelow
        exact_mod_cast hle
      rw [hsize, le_div_iff₀ hpower]
      exact hcast
  · cases hnear

end Phrasebook.Double
