import Phrasebook.Proofs.Double.Arithmetic
import Phrasebook.Proofs.Double.Exact

/-!
# Proofs/Double/Naturals — natural numbers as doubles

A natural number below `2 ^ 53` is a double and then multiplied by one, a larger one is rounded at
once: either way **the double of a natural number is the nearest one** (`unpack_ofNat`), less than
two roundings off.
-/

namespace Phrasebook.Double

open Float.Model hiding pack unpack mul div
open Float.Model.Format Float.Model.UnpackedFloat

variable {n : Nat}

/-! ## Rounding a natural number -/

theorem log2_mul_two_pow (hn : n ≠ 0) (j : Nat) : (n * 2 ^ j).log2 = n.log2 + j := by
  have hne : n * 2 ^ j ≠ 0 := Nat.mul_ne_zero hn (Nat.two_pow_pos j).ne'
  rw [Nat.log2_eq_iff hne]
  constructor
  · rw [Nat.pow_add]
    exact Nat.mul_le_mul_right _ (Nat.log2_self_le hn)
  · rw [Nat.add_right_comm, Nat.pow_add]
    exact Nat.mul_lt_mul_of_pos_right Nat.lt_log2_self (Nat.two_pow_pos j)

/-- Zeros behind a number do not change the nearest one. -/
theorem scaled_roundedQuotient (hn : n ≠ 0) {j : Nat} (hj : 52 ≤ n.log2 + j) :
    scaled (roundedQuotient (n * 2 ^ j) (n.log2 + j - 52)) (n.log2 - 52) = nearest n := by
  rcases le_or_gt 52 n.log2 with h | h
  · have hsum : n.log2 + j - 52 = n.log2 - 52 + j := by omega
    have hexponent : (n.log2 : Int) - 52 = (n.log2 - 52 : Nat) := by omega
    rw [hsum, roundedQuotient_mul, hexponent, scaled, nearest, zpow_natCast]
    push_cast
    rfl
  · -- with too few digits, only zeros are dropped again
    have hzeros : n * 2 ^ j = n * 2 ^ (52 - n.log2) * 2 ^ (n.log2 + j - 52) := by
      rw [Nat.mul_assoc, ← Nat.pow_add]
      congr 2
      omega
    have hexponent : (n.log2 : Int) - 52 = 0 - (52 - n.log2 : Nat) := by omega
    have hlt : n < 2 ^ 53 := (Nat.log2_lt hn).1 (by omega)
    have hquotient := roundedQuotient_mul (n * 2 ^ (52 - n.log2)) 0 (n.log2 + j - 52)
    rw [Nat.zero_add, ← hzeros, roundedQuotient_zero] at hquotient
    rw [hquotient, hexponent, ← Nat.shiftLeft_eq, scaled_shiftLeft, scaled_zero, nearest_of_lt hlt]

/-- **A natural number with enough zeros behind it is rounded to the nearest one.** -/
theorem exists_roundWithAccuracy_mul (s : Sign) (hn : n ≠ 0) (hle : n ≤ 2 ^ 64) {j : Nat}
    (hj : 52 ≤ n.log2 + j) :
    ∃ m e hm, roundWithAccuracy binary64 s (n * 2 ^ j) (-j) .exact = .finite s m e hm
      ∧ Normal m e ∧ scaled m e = nearest n := by
  have hlog : (n * 2 ^ j).log2 = n.log2 + j := log2_mul_two_pow hn j
  have hlow : 2 ^ 52 ≤ n * 2 ^ j :=
    (Nat.le_log2 (Nat.mul_ne_zero hn (Nat.two_pow_pos j).ne')).1 (hlog ▸ hj)
  have hlt : n.log2 < 65 := (Nat.log2_lt hn).2 (by omega)
  have hexponent : ((n * 2 ^ j).log2 : Int) - 52 + -j = n.log2 - 52 := by
    rw [hlog]
    omega
  obtain ⟨m, e, hm, hround, hnormal, hvalue⟩ :=
    exists_roundWithAccuracy_eq s hlow (by rw [hexponent]; omega)
  refine ⟨m, e, hm, hround, hnormal, hvalue.trans ?_⟩
  rw [hexponent, hlog]
  exact scaled_roundedQuotient hn hj

/-! ## Doubles of natural numbers -/

theorem unpack_toFloat (h : n ≠ 0) (hlt : n < 2 ^ 53) :
    ∃ m e hm, n.toUInt64.toFloat.toModel.unpack = .finite .positive m e hm
      ∧ Normal m e ∧ scaled m e = nearest n := by
  have hnat : n.toUInt64.toNat = n := by
    rw [Nat.toUInt64, UInt64.toNat_ofNat']
    omega
  have hcompare : compare (n : Int) 0 = .gt := compare_gt_iff_gt.2 (by omega)
  have hlog : n.log2 < 53 := (Nat.log2_lt h).2 hlt
  have hshift : (-binary64.targetExponent (totalExponent n 0)).toNat = 52 - n.log2 := by
    rw [targetExponent_eq]
    omega
  have hunpack : n.toUInt64.toFloat.toModel.unpack = unpack binary64 (pack binary64
      (roundWithAccuracy binary64 .positive (n * 2 ^ (52 - n.log2)) (-(52 - n.log2 : Nat))
        .exact)) := by
    have hofInt : n.toUInt64.toFloat.toModel.unpack = unpack binary64 (pack binary64
        (UnpackedFloat.normalize binary64 n.toUInt64.toNat 0 .positive)) := rfl
    rw [hofInt, hnat, UnpackedFloat.normalize, hcompare]
    simp only [UnpackedFloat.round, decreaseExponent, Int.toNat_natCast, zero_sub, hshift,
      Nat.shiftLeft_eq]
  obtain ⟨m, e, hm, hround, hnormal, hvalue⟩ :=
    exists_roundWithAccuracy_mul .positive h (by omega) (j := 52 - n.log2) (by omega)
  rw [hunpack, hround]
  exact ⟨m, e, hm, unpack_pack_of_normal hnormal, hnormal, hvalue⟩

/-- **A normal double times one is itself.** -/
theorem unpack_mul_one {x : Float} {s : Sign} {m : Nat} {e : Int} {hm : 0 < m}
    (hx : x.toModel.unpack = .finite s m e hm) (h : Normal m e) :
    (x * Float.ofBits 0x3FF0000000000000).toModel.unpack = .finite s m e hm := by
  have hone : (Float.ofBits 0x3FF0000000000000).toModel.unpack
      = .finite .positive (2 ^ 52) (-52) (by positivity) := rfl
  have hlog : m.log2 = 52 := by
    have hle := (Nat.le_log2 hm.ne').2 h.low
    have hlt := (Nat.log2_lt hm.ne').2 h.high
    omega
  have hlog' : (m * 2 ^ 52).log2 = 104 := by rw [log2_mul_two_pow hm.ne', hlog]
  obtain ⟨hplaces, hexponent⟩ := places_of_le (m := m * 2 ^ 52) (e := e + -52)
    (Nat.le_mul_of_pos_left _ hm) (by rw [hlog']; have := h.exponent.1; omega)
  have hmul : mul binary64 x.toModel.unpack (Float.ofBits 0x3FF0000000000000).toModel.unpack
      = roundWithAccuracy binary64 (s * .positive) (m * 2 ^ 52) (e + -52) .exact := by
    rw [hx, hone]
    rfl
  have hquotient : roundedQuotient (m * 2 ^ 52) 52 = m := by
    rw [← Nat.zero_add 52, roundedQuotient_mul, roundedQuotient_zero]
  have hsign : s * .positive = s := by cases s <;> rfl
  have hsame : ((104 : Nat) : Int) - 52 + (e + -52) = e := by omega
  rw [unpack_mul, hmul, roundWithAccuracy_eq_settle, hplaces, hexponent, hlog', hsign, hsame,
    hquotient, settle_of_lt s h.low h.high h.exponent.1]
  exact unpack_pack_of_normal h

/-- **The double of a natural number is the nearest one.** -/
theorem unpack_ofNat (h : n ≠ 0) (hle : n ≤ 2 ^ 64) :
    ∃ m e hm, (Float.ofNat n).toModel.unpack = .finite .positive m e hm
      ∧ Normal m e ∧ scaled m e = nearest n := by
  have hscientific : Float.ofNat n = Float.ofScientific n false 0 := rfl
  by_cases hsmall : n < 2 ^ 53
  · have hproduct : Float.ofNat n = n.toUInt64.toFloat * Float.ofBits 0x3FF0000000000000 := by
      rw [hscientific, Float.ofScientific, dif_pos ⟨hsmall, by omega⟩]
      rfl
    obtain ⟨m, e, hm, hunpack, hnormal, hvalue⟩ := unpack_toFloat h hsmall
    rw [hproduct]
    exact ⟨m, e, hm, unpack_mul_one hunpack hnormal, hnormal, hvalue⟩
  · have hmodel : Float.ofNat n = .ofModel (Float.Model.ofScientific n 0) := by
      rw [hscientific, Float.ofScientific, dif_neg (by omega)]
      rfl
    have hbits : binary64.exponentBits = 11 := rfl
    have hmantissa : n <<< 53 * 10 ^ 0 = n * 2 ^ 53 := by
      rw [Nat.shiftLeft_eq, Nat.pow_zero, Nat.mul_one]
    have hrounded : UnpackedFloat.ofScientific binary64 n 0
        = roundWithAccuracy binary64 .positive (n <<< 53 * 10 ^ 0) (-(53 : Nat)) .exact := by
      rw [UnpackedFloat.ofScientific, dif_neg h, if_neg (by norm_num),
        if_neg (by rw [hbits]; omega), if_pos le_rfl]
      rfl
    have hunpack : (Float.ofNat n).toModel.unpack = (Float.Model.ofScientific n 0).unpack :=
      congrArg (fun x : Float => x.toModel.unpack) hmodel
    have hpack : (Float.Model.ofScientific n 0).unpack = unpack binary64 (pack binary64
        (roundWithAccuracy binary64 .positive (n <<< 53 * 10 ^ 0) (-(53 : Nat)) .exact)) :=
      congrArg (fun u => unpack binary64 (pack binary64 u)) hrounded
    obtain ⟨m, e, hm, hround, hnormal, hvalue⟩ :=
      exists_roundWithAccuracy_mul .positive h hle (j := 53) (by omega)
    rw [hunpack, hpack, hmantissa, hround]
    exact ⟨m, e, hm, unpack_pack_of_normal hnormal, hnormal, hvalue⟩

theorem nearest_le_mul_slack (n : Nat) : (nearest n : ℚ) ≤ n * slack := by
  have hnearest : (nearest n : ℚ) * 2 ^ 52 ≤ n * (2 ^ 52 + 1) := by exact_mod_cast nearest_mul_le n
  have hslack : slack = (2 ^ 52 + 2) / 2 ^ 52 := by norm_num [slack]
  rw [hslack, mul_div_assoc', le_div_iff₀ (by norm_num)]
  refine hnearest.trans ?_
  gcongr
  norm_num

/-- **Whole numbers of 64 bits are finite as doubles**, two roundings off at most. -/
theorem isFinite_ofNat (h : 0 < n) (hle : n ≤ 2 ^ 64) :
    (Float.ofNat n).isFinite = true ∧ size (Float.ofNat n) ≤ n * slack * slack := by
  obtain ⟨m, e, hm, hunpack, -, hvalue⟩ := unpack_ofNat h.ne' hle
  have hfinite : (Float.ofNat n).isFinite = (Float.ofNat n).toModel.unpack.isFinite := rfl
  have hslack : (0 : ℚ) ≤ n * slack := mul_nonneg n.cast_nonneg slack_nonneg
  rw [hfinite, size, hunpack, magnitude, hvalue]
  exact ⟨rfl, (nearest_le_mul_slack n).trans (le_mul_slack hslack)⟩

end Phrasebook.Double
