import Phrasebook.Proofs.Double.Nearest
import Phrasebook.Proofs.Double.Packing

/-!
# Proofs/Double/Exact — rounding gives the nearest number

    m · 2 ^ e ──shift, two bits kept──▸ ──nearest, or even──▸ r · 2 ^ t ──pack, unpack──▸ the same

The two bits that a shift keeps tell whether what was dropped is less than half a unit, half of one
or more (`shiftRight_succ`), so rounding takes the nearest multiple of the last place that is left
(`roundWithAccuracy_eq_settle`).  A normal number has bits of its own: **packing and unpacking give
it back** (`unpack_pack_of_normal`).
-/

namespace Phrasebook.Double

open Float.Model hiding pack unpack
open Float.Model.Format Float.Model.UnpackedFloat

variable {s : Sign} {m n : Nat} {e t : Int}

/-! ## Shifting -/

/-- What a shift leaves: the quotient, the last bit that was dropped, and whether another one was
set. -/
theorem shiftRight_succ (m k : Nat) :
    ExtendedMantissa.ofMantissaAndAccuracy m .exact >>> (k + 1)
      = ⟨m / 2 ^ (k + 1), m / 2 ^ k % 2 != 0, m % 2 ^ k != 0⟩ := by
  induction k with
  | zero =>
    have hstep : ExtendedMantissa.ofMantissaAndAccuracy m .exact >>> (0 + 1)
        = ⟨m / 2, m % 2 != 0, false⟩ := rfl
    rw [hstep, Nat.pow_zero, Nat.div_one, Nat.mod_one]
    rfl
  | succ k ih =>
    have hstep : ExtendedMantissa.ofMantissaAndAccuracy m .exact >>> (k + 1 + 1)
        = (ExtendedMantissa.ofMantissaAndAccuracy m .exact >>> (k + 1)).shiftRightOne := rfl
    have hsticky : ((m / 2 ^ k % 2 != 0) || (m % 2 ^ k != 0)) = (m % 2 ^ (k + 1) != 0) := by
      have hpos : 0 < 2 ^ k := Nat.two_pow_pos k
      rw [Nat.mod_pow_succ]
      rcases Nat.mod_two_eq_zero_or_one (m / 2 ^ k) with h | h <;> simp [h]
    rw [hstep, ih, ExtendedMantissa.shiftRightOne, hsticky, Nat.div_div_eq_div_mul, ← Nat.pow_succ]

/-- **A mantissa that is shifted and rounded is the rounded quotient.** -/
theorem roundedMantissa_shiftRight (m k : Nat) :
    (ExtendedMantissa.ofMantissaAndAccuracy m .exact >>> k).roundedMantissa
      = roundedQuotient m k := by
  cases k with
  | zero => exact (roundedQuotient_zero m).symm
  | succ k =>
    have hlt : m % 2 ^ k < 2 ^ k := Nat.mod_lt m (Nat.two_pow_pos k)
    have hmod : m % 2 ^ (k + 1) = m % 2 ^ k + 2 ^ k * (m / 2 ^ k % 2) := Nat.mod_pow_succ
    have htwice : 2 ^ (k + 1) = 2 * 2 ^ k := Nat.pow_succ'
    rw [shiftRight_succ, roundedQuotient, ExtendedMantissa.roundedMantissa]
    -- the last bit that was dropped, and whether another one was set
    rcases Nat.mod_two_eq_zero_or_one (m / 2 ^ k) with h | h <;> rw [h] at hmod ⊢ <;>
      rcases Nat.eq_zero_or_pos (m % 2 ^ k) with h' | h'
    · rw [h', if_pos (.inl (by omega))]
      rfl
    · rw [bne_iff_ne.2 h'.ne', if_pos (.inl (by omega))]
      rfl
    · have htie : (ExtendedMantissa.mk (m / 2 ^ (k + 1)) true false).accuracy.roundToNearestEven
          (m / 2 ^ (k + 1)) = m / 2 ^ (k + 1) + m / 2 ^ (k + 1) % 2 := rfl
      rw [h']
      refine htie.trans ?_
      split <;> omega
    · rw [bne_iff_ne.2 h'.ne', if_neg (by omega)]
      rfl

/-! ## Rounding -/

/-- What a rounded mantissa becomes: it is shifted once more if rounding carried into a new bit. -/
def settle (s : Sign) (r : Nat) (t : Int) : UnpackedFloat :=
  if h : r / 2 ^ places r t = 0 then .zero s
  else .finite s (r / 2 ^ places r t) (t + places r t) (Nat.pos_of_ne_zero h)

/-- **Rounding takes the nearest multiple of the last place that is left.** -/
theorem roundWithAccuracy_eq_settle (s : Sign) (m : Nat) (e : Int) :
    roundWithAccuracy binary64 s m e .exact
      = settle s (roundedQuotient m (places m e)) (e + places m e) := by
  rw [settle, ← roundedMantissa_shiftRight, roundWithAccuracy]
  simp only [shiftToTargetExponent, shiftToExponent, mantissa_shiftRight,
    mantissa_ofMantissaAndAccuracy]
  rfl

theorem settle_of_lt (s : Sign) (hlow : 2 ^ 52 ≤ n) (hhigh : n < 2 ^ 53) (ht : -1074 ≤ t) :
    settle s n t = .finite s n t (by omega) := by
  have hplaces : places n t = 0 := by
    have hlog : n.log2 < 53 := (Nat.log2_lt (by omega)).2 hhigh
    rw [places, targetExponent_eq]
    omega
  rw [settle, dif_neg (by rw [hplaces]; omega)]
  simp [hplaces]

theorem settle_two_pow (s : Sign) (ht : -1074 ≤ t) :
    settle s (2 ^ 53) t = .finite s (2 ^ 52) (t + 1) (by decide) := by
  have hplaces : places (2 ^ 53) t = 1 := by
    rw [places, targetExponent_eq, Nat.log2_two_pow]
    omega
  rw [settle, dif_neg (by rw [hplaces]; decide)]
  simp only [hplaces]
  rfl

/-- The mantissa and the exponent of a normal double. -/
structure Normal (m : Nat) (e : Int) : Prop where
  low : 2 ^ 52 ≤ m
  high : m < 2 ^ 53
  exponent : -1074 ≤ e ∧ e ≤ 971

/-- The places that a mantissa of 53 bits or more is shifted by. -/
theorem places_of_le (hm : 2 ^ 52 ≤ m) (he : -1074 ≤ m.log2 - 52 + e) :
    places m e = m.log2 - 52 ∧ e + (m.log2 - 52 : Nat) = m.log2 - 52 + e := by
  have hlog : 52 ≤ m.log2 := (Nat.le_log2 (by omega)).2 hm
  rw [places, targetExponent_eq]
  omega

/-- **Rounding to 53 bits gives a normal number.** -/
theorem exists_roundWithAccuracy_eq (s : Sign) (hm : 2 ^ 52 ≤ m)
    (he : -1074 ≤ m.log2 - 52 + e ∧ m.log2 - 52 + e < 971) :
    ∃ m' e' hm', roundWithAccuracy binary64 s m e .exact = .finite s m' e' hm' ∧ Normal m' e'
      ∧ scaled m' e' = scaled (roundedQuotient m (m.log2 - 52)) (m.log2 - 52 + e) := by
  obtain ⟨hlow, hhigh⟩ := roundedQuotient_bounds hm
  obtain ⟨hplaces, hexponent⟩ := places_of_le hm he.1
  rw [roundWithAccuracy_eq_settle, hplaces, hexponent]
  rcases hhigh.lt_or_eq with hlt | heq
  · exact ⟨_, _, _, settle_of_lt s hlow hlt he.1, ⟨hlow, hlt, by omega⟩, rfl⟩
  · rw [heq]
    refine ⟨_, _, _, settle_two_pow s he.1, ⟨le_rfl, by decide, by omega⟩, ?_⟩
    rw [scaled, scaled, zpow_add_one₀ (by norm_num)]
    push_cast
    ring

/-! ## Packing -/

theorem sign_packComponents (s : Sign) (exponent : BitVec 11) (mantissa : BitVec 52) :
    Sign.ofBitVec (unpackSign (packComponents binary64 s exponent mantissa)) = s := by
  simp only [unpackSign, packComponents, BitVec.extractLsb]
  rw [BitVec.extractLsb'_append_eq_of_le (by decide),
    BitVec.extractLsb'_append_eq_of_le (by decide)]
  cases s <;> rfl

/-- **A normal number comes back from its bits.** -/
theorem unpack_pack_of_normal {hm : 0 < m} (h : Normal m e) :
    unpack binary64 (pack binary64 (.finite s m e hm)) = .finite s m e hm := by
  obtain ⟨hlow, hhigh, he⟩ := h
  have hlog : m.log2 + 1 = 53 := by
    have hle := (Nat.le_log2 hm.ne').2 hlow
    have hlt := (Nat.log2_lt hm.ne').2 hhigh
    omega
  have hbias : (binary64.exponentBias : Int) + binary64.mantissaBitsWithoutImplicit = 1075 := rfl
  have hexponent : ((BitVec.ofNat 11 (e + 1075).toNat).toNat : Int) - 1075 = e := by
    rw [BitVec.toNat_ofNat]
    omega
  have hfirst : BitVec.ofNat 11 (e + 1075).toNat ≠ 0#11 := by
    intro heq
    rw [heq, BitVec.toNat_zero] at hexponent
    omega
  have hmantissa : (1#1 ++ BitVec.ofNat 52 m).toNat = m := by
    rw [toNat_append_one, BitVec.toNat_ofNat]
    omega
  rw [pack_eq_packComponents he, if_pos hlog, unpack]
  simp only [unpackExponent_packComponents, unpackMantissa_packComponents, sign_packComponents,
    if_neg (ofNat_exponent_ne he), if_neg hfirst, hbias, hexponent, hmantissa]

end Phrasebook.Double
