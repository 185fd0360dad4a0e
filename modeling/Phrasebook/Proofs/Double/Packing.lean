import Phrasebook.Proofs.Double.Rounding

/-!
# Proofs/Double/Packing — from numbers in range to bits and back

A number in range has bits of its own: packing it and unpacking the bits gives a finite number that
is not larger.  A number beyond the range is packed as an infinite one, and never as none.
-/

namespace Phrasebook.Double

open Float.Model hiding pack unpack
open Float.Model.Format Float.Model.UnpackedFloat

variable {u : UnpackedFloat} {s : Sign} {m : Nat} {e : Int}

/-! ## What bits stand for -/

theorem toNat_append_one (mantissa : BitVec 52) :
    (1#1 ++ mantissa).toNat = 2 ^ 52 + mantissa.toNat := by
  rw [BitVec.toNat_append, ← Nat.shiftLeft_add_eq_or_of_lt mantissa.isLt]
  simp

/-- The parts of a finite double. -/
theorem unpack_eq_finite {bits : BitVec binary64.numBits} {hm : 0 < m}
    (h : unpack binary64 bits = .finite s m e hm) :
    m < 2 ^ 53 ∧ -1074 ≤ e ∧ e ≤ 971 ∧ (e = -1074 ∨ 2 ^ 52 ≤ m) := by
  have hbias : (binary64.exponentBias : Int) + binary64.mantissaBitsWithoutImplicit = 1075 := rfl
  have hexponent : (unpackExponent bits).toNat < 2 ^ 11 := (unpackExponent bits).isLt
  have hmantissa : (unpackMantissa bits).toNat < 2 ^ 52 := (unpackMantissa bits).isLt
  rw [unpack] at h
  dsimp only at h
  split at h
  · split at h <;> cases h
  · rename_i hlast
    have hne : (unpackExponent bits).toNat ≠ 2 ^ 11 - 1 := fun heq =>
      hlast (BitVec.eq_of_toNat_eq heq)
    split at h
    · rename_i hfirst
      split at h
      · cases h
      · cases h
        rw [hfirst, hbias]
        refine ⟨by omega, by simp, by simp, .inl (by simp)⟩
    · rename_i hfirst
      have hpos : (unpackExponent bits).toNat ≠ 0 := fun heq => hfirst (BitVec.eq_of_toNat_eq heq)
      cases h
      rw [hbias, toNat_append_one]
      exact ⟨by omega, by omega, by omega, .inr (by omega)⟩

/-- The bits whose exponent is not the last one stand for a finite number. -/
theorem isFinite_unpack_packComponents {exponent : BitVec 11} (mantissa : BitVec 52)
    (h : exponent ≠ -1#11) :
    (unpack binary64 (packComponents binary64 s exponent mantissa)).isFinite = true := by
  rw [unpack]
  simp only [unpackExponent_packComponents, if_neg h]
  split
  · split <;> rfl
  · rfl

/-- What such bits stand for: the bit that is not stored is set, unless the exponent is the first
one. -/
theorem magnitude_unpack_packComponents {exponent : BitVec 11} (mantissa : BitVec 52)
    (h : exponent ≠ -1#11) :
    magnitude (unpack binary64 (packComponents binary64 s exponent mantissa))
      = if exponent = 0#11 then scaled mantissa.toNat (-1074)
        else scaled (2 ^ 52 + mantissa.toNat) (exponent.toNat - 1075) := by
  have hbias : (binary64.exponentBias : Int) + binary64.mantissaBitsWithoutImplicit = 1075 := rfl
  rw [unpack]
  simp only [unpackExponent_packComponents, unpackMantissa_packComponents, if_neg h, hbias]
  split
  · rename_i hfirst
    rw [hfirst]
    split
    · rename_i hzero
      rw [hzero, scaled, BitVec.toNat_zero, Nat.cast_zero, zero_mul]
      rfl
    · rfl
  · rw [magnitude, toNat_append_one]

/-! ## Packing -/

theorem pack_eq_packComponents {hm : 0 < m} (h : InRange (.finite s m e hm)) :
    pack binary64 (.finite s m e hm)
      = if m.log2 + 1 = 53 then
          packComponents binary64 s (BitVec.ofNat 11 (e + 1075).toNat) (BitVec.ofNat 52 m)
        else packComponents binary64 s 0#11 (BitVec.ofNat 52 m) := by
  obtain ⟨hlow, hhigh⟩ := h
  have hbiased : (e + binary64.exponentBias + binary64.mantissaBitsWithoutImplicit).toNat
      = (e + 1075).toNat := by
    have hbias : (binary64.exponentBias : Int) + binary64.mantissaBitsWithoutImplicit = 1075 := rfl
    rw [Int.add_assoc, hbias]
  rw [pack]
  simp only [hbiased]
  rw [if_neg (by omega)]
  rfl

theorem ofNat_exponent_ne (h : -1074 ≤ e ∧ e ≤ 971) : BitVec.ofNat 11 (e + 1075).toNat ≠ -1#11 := by
  intro heq
  have htoNat : (e + 1075).toNat % 2 ^ 11 = 2 ^ 11 - 1 := congrArg BitVec.toNat heq
  omega

/-- **What is in range is packed as a finite double.** -/
theorem isFinite_unpack_pack (h : InRange u) :
    (unpack binary64 (pack binary64 u)).isFinite = true := by
  cases u with
  | infinity s => cases h
  | notANumber => cases h
  | zero s => exact isFinite_unpack_packComponents _ (by decide)
  | finite s m e hm =>
    rw [pack_eq_packComponents h]
    split
    · exact isFinite_unpack_packComponents _ (ofNat_exponent_ne h)
    · exact isFinite_unpack_packComponents _ (by decide)

/-- **Packing loses no magnitude but what has no bits.** -/
theorem magnitude_unpack_pack_le (h : InRange u) :
    magnitude (unpack binary64 (pack binary64 u)) ≤ magnitude u := by
  cases u with
  | infinity s => cases h
  | notANumber => cases h
  | zero s => cases s <;> exact le_refl (0 : ℚ)
  | finite s m e hm =>
    rw [pack_eq_packComponents h, magnitude]
    obtain ⟨hlow, hhigh⟩ := h
    have hmod : m % 2 ^ 52 ≤ m := Nat.mod_le m _
    split
    · rename_i hlog
      have hself : 2 ^ 52 ≤ m := by
        have hlog' : m.log2 = 52 := by omega
        exact hlog' ▸ Nat.log2_self_le hm.ne'
      have hlt : m < 2 ^ 53 := hlog ▸ Nat.lt_log2_self
      have hexponent : ((BitVec.ofNat 11 (e + 1075).toNat).toNat : Int) - 1075 = e := by
        rw [BitVec.toNat_ofNat]
        omega
      have hfirst : BitVec.ofNat 11 (e + 1075).toNat ≠ 0#11 := by
        intro heq
        rw [heq] at hexponent
        simp at hexponent
        omega
      have hmantissa : 2 ^ 52 + (BitVec.ofNat 52 m).toNat = m := by
        rw [BitVec.toNat_ofNat]
        omega
      rw [magnitude_unpack_packComponents _ (ofNat_exponent_ne ⟨hlow, hhigh⟩), if_neg hfirst,
        hexponent, hmantissa]
    · rw [magnitude_unpack_packComponents _ (by decide), if_pos rfl, BitVec.toNat_ofNat]
      calc scaled (m % 2 ^ 52) (-1074)
          ≤ scaled m (-1074) := scaled_mono hmod _
        _ ≤ scaled m e := by
          rw [scaled, scaled]
          gcongr
          norm_num

/-- What is in range and below a bound is so when it is packed. -/
theorem unpack_pack_spec {a : ℚ} (h : InRange u) (hle : magnitude u ≤ a) :
    (unpack binary64 (pack binary64 u)).isFinite = true
      ∧ magnitude (unpack binary64 (pack binary64 u)) ≤ a :=
  ⟨isFinite_unpack_pack h, (magnitude_unpack_pack_le h).trans hle⟩

/-- Bits that are those of no number have a mantissa and the last exponent. -/
theorem isNaN_unpack_packComponents {exponent : BitVec 11} {mantissa : BitVec 52}
    (h : exponent ≠ -1#11 ∨ mantissa = 0#52) :
    (unpack binary64 (packComponents binary64 s exponent mantissa)).isNaN = false := by
  rw [unpack]
  simp only [unpackExponent_packComponents, unpackMantissa_packComponents]
  split
  · rename_i hlast
    rw [if_pos (h.resolve_left fun hne => hne hlast)]
    rfl
  · split
    · split <;> rfl
    · rfl

/-- **A finite number is packed as a finite double or as an infinite one**, never as none. -/
theorem isNaN_unpack_pack (h : u.isFinite = true) :
    (unpack binary64 (pack binary64 u)).isNaN = false := by
  cases u with
  | infinity s => cases h
  | notANumber => cases h
  | zero s => exact isNaN_unpack_packComponents (.inr rfl)
  | finite s m e hm =>
    rw [pack]
    dsimp only
    split
    · exact isNaN_unpack_packComponents (.inr rfl)
    · rename_i hbiased
      split
      · refine isNaN_unpack_packComponents (.inl fun heq => ?_)
        have htoNat := congrArg BitVec.toNat heq
        rw [BitVec.toNat_ofNat] at htoNat
        have hlast : (-1#11 : BitVec 11).toNat = 2047 := rfl
        omega
      · exact isNaN_unpack_packComponents (.inl (by decide))

end Phrasebook.Double
