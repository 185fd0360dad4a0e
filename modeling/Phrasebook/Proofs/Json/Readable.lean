import Phrasebook.Proofs.Json.DoubleText

/-!
# Proofs/Json/Readable — every number that was read can be written and read again

The scanner makes finite doubles, and the text of a finite double is scanned as a number.  It need
not be the same double, and that it is one at all is close at the end of the range: a decimal up to
half a unit above the double is scaled with four roundings.  Only the last doubles come near enough
to the end for that to matter, and these are read one by one.
-/

namespace Phrasebook.Json

open Scan Shortest

variable {value : Float} {text : List Char} {b : Binary}

/-! ## The text of a finite double -/

/-- The exponent bits of a finite double are not the last ones. -/
theorem exponentBits_ne (h : value.isFinite = true) :
    value.toBits.toNat / 2 ^ 52 % 2 ^ 11 ≠ 2047 := by
  intro hlast
  have hbits : (@Float.Model.UnpackedFloat.unpackExponent
      Float.Model.Format.binary64 value.toBits.toBitVec).toNat = 2047 := by
    rw [← hlast, Float.Model.UnpackedFloat.unpackExponent, BitVec.toNat_cast,
      BitVec.extractLsb_toNat, Nat.shiftRight_eq_div_pow]
    rfl
  have hfinite : value.isFinite = (Float.Model.UnpackedFloat.unpack Float.Model.Format.binary64
      value.toBits.toBitVec).isFinite := rfl
  rw [hfinite, Float.Model.UnpackedFloat.unpack] at h
  dsimp only at h
  rw [if_pos (BitVec.eq_of_toNat_eq hbits)] at h
  split at h <;> cases h

/-- The mantissa and the exponent of a finite double are in their ranges. -/
theorem decompose_spec (h : value.isFinite = true) :
    (decompose value).mantissa < 2 ^ 53 ∧ (decompose value).exponent ≤ 971
      ∧ ((decompose value).mantissa = 0 → (decompose value).exponent = -1074)
      ∧ ((decompose value).mantissa ≠ 2 ^ 52 → (decompose value).isLowest = false) := by
  have hlast := exponentBits_ne h
  have hfraction : value.toBits.toNat % 2 ^ 52 < 2 ^ 52 := Nat.mod_lt _ (by decide)
  rw [decompose]
  simp only [Nat.pow_eq, Int.ofNat_eq_natCast]
  split
  · exact ⟨by dsimp only; omega, by dsimp only; omega, fun _ => rfl, fun _ => rfl⟩
  · refine ⟨by dsimp only; omega, by dsimp only; omega, fun hzero => ?_, fun hne => ?_⟩
    · dsimp only at hzero
      omega
    · exact decide_eq_false fun hlowest => hne (by dsimp only; omega)

/-- Doubles but for the last ones are so far below the end of the range that half a unit more is
safely in it. -/
theorem le_safeLimit_or (hm : b.mantissa < 2 ^ 53) (he : b.exponent ≤ 971) :
    (b.mantissa + 1 / 2 : ℚ) * 2 ^ b.exponent ≤ safeLimit
      ∨ b.exponent = 971 ∧ ∃ j < 32, b.mantissa = 2 ^ 53 - 1 - j := by
  by_cases htop : 2 ^ 53 - 32 ≤ b.mantissa
  · rcases he.lt_or_eq with hlt | hlast
    · left
      have hcast : (b.mantissa : ℚ) + 1 / 2 ≤ 2 ^ 54 - 65 := by
        have hle : (b.mantissa : ℚ) ≤ 2 ^ 53 := by exact_mod_cast hm.le
        linarith
      calc (b.mantissa + 1 / 2 : ℚ) * 2 ^ b.exponent
          ≤ (b.mantissa + 1 / 2) * 2 ^ (970 : Int) :=
            mul_le_mul_of_nonneg_left (zpow_le_zpow_right₀ (by norm_num) (by omega)) (by positivity)
        _ ≤ safeLimit := by
            rw [safeLimit]
            gcongr
    · exact .inr ⟨hlast, 2 ^ 53 - 1 - b.mantissa, by omega, by omega⟩
  · left
    have hcast : (b.mantissa : ℚ) ≤ 2 ^ 53 - 33 := by
      have hle : b.mantissa + 33 ≤ 2 ^ 53 := by omega
      have hcast : (b.mantissa : ℚ) + 33 ≤ 2 ^ 53 := by exact_mod_cast hle
      linarith
    calc (b.mantissa + 1 / 2 : ℚ) * 2 ^ b.exponent
        ≤ (b.mantissa + 1 / 2) * 2 ^ (971 : Int) :=
          mul_le_mul_of_nonneg_left (zpow_le_zpow_right₀ (by norm_num) he) (by positivity)
      _ = (2 * b.mantissa + 1) * 2 ^ (970 : Int) := by
          have hstep : (2 : ℚ) ^ (971 : Int) = 2 ^ (970 : Int) * 2 :=
            zpow_add_one₀ (by norm_num) 970
          rw [hstep]
          ring
      _ ≤ safeLimit := by
          rw [safeLimit]
          gcongr
          linarith

/-- Whether a text is read as a number, with either sign. -/
def isRead (text : List Char) : Bool :=
  match Scan.number false text, Scan.number true text with
  | .ok (_, []), .ok (_, []) => true
  | _, _ => false

theorem reads_of_isRead (h : isRead text = true) : Reads text := by
  intro negative
  rw [isRead] at h
  split at h
  · rename_i n m hplus hminus
    cases negative with
    | false => exact ⟨n, hplus⟩
    | true => exact ⟨m, hminus⟩
  · cases h

/-- The last doubles of the range are read. -/
theorem isRead_last : ∀ j < 32,
    isRead (decimalText (ofBinary ⟨2 ^ 53 - 1 - j, 971, false⟩).1
      (ofBinary ⟨2 ^ 53 - 1 - j, 971, false⟩).2).toList = true := by decide +kernel

theorem isRead_zero : isRead (decimalText (ofBinary ⟨0, -1074, false⟩).1
    (ofBinary ⟨0, -1074, false⟩).2).toList = true := by decide +kernel

/-- **The text of a finite double is read.** -/
theorem reads_magnitudeText (h : value.isFinite = true) : Reads (magnitudeText value).toList := by
  obtain ⟨hm, he, hzero, hlowest⟩ := decompose_spec h
  rw [magnitudeText_eq, decimal_eq]
  split
  · exact reads_zero
  · rcases Nat.eq_zero_or_pos (decompose value).mantissa with hnone | hpos
    · have hsame : decompose value = ⟨0, -1074, false⟩ := by
        rw [← hnone, ← hzero hnone, ← hlowest (by omega)]
      rw [hsame]
      exact reads_of_isRead isRead_zero
    · obtain ⟨hle, hpower⟩ := ofBinary_spec (decompose value)
      rcases le_safeLimit_or hm he with hsafe | ⟨hlast, j, hj, hmantissa⟩
      · exact reads_decimalText (fun hn => hpower hn hpos) (hle.trans hsafe)
      · have hsame : decompose value = ⟨2 ^ 53 - 1 - j, 971, false⟩ := by
          rw [← hmantissa, ← hlast, ← hlowest (by omega)]
        rw [hsame]
        exact reads_of_isRead (isRead_last j hj)

/-! ## Numbers that were read -/

/-- The text of the number is scanned as some number. -/
def Number.Readable (n : Number) : Prop := ∃ m, n.Rereads m

/-- What the text of a number is scanned as. -/
def Number.reread (n : Number) : Number :=
  match signed n.text.toList with
  | .ok (m, _) => m
  | .error _ => n

theorem Number.Readable.rereads {n : Number} (h : n.Readable) : n.Rereads n.reread := by
  obtain ⟨m, hm⟩ := h
  have hsame : n.reread = m := by
    rw [Number.Rereads] at hm
    rw [Number.reread, hm]
  rw [hsame]
  exact hm

/-- **Finite doubles are readable.** -/
theorem readable_double (h : value.isFinite = true) : (Number.double value).Readable := by
  have hreads := reads_magnitudeText h
  rw [Number.Readable]
  simp only [Number.Rereads, Number.text, doubleText]
  split
  · obtain ⟨n, hn⟩ := hreads true
    refine ⟨n, ?_⟩
    rw [String.toList_append]
    exact hn
  · obtain ⟨n, hn⟩ := hreads false
    have hstarts := (isUnsigned_magnitudeText value).starts
    refine ⟨n, ?_⟩
    cases htext : (magnitudeText value).toList with
    | nil =>
      rw [htext] at hstarts
      cases hstarts
    | cons c rest =>
      have hminus : c ≠ '-' := by
        intro he
        rw [htext, he] at hstarts
        cases hstarts
      rw [htext] at hn
      simpa [signed, hminus] using hn

/-- **The numbers that the scanner gives are readable.** -/
theorem holdsOfNumbers_readable : HoldsOfNumbers Number.Readable := by
  have hneg : ∀ {value : Float} (negative : Bool), value.isFinite = true →
      (Number.double (if negative then -value else value)).Readable := by
    intro value negative h
    cases negative with
    | false => exact readable_double h
    | true => exact readable_double (Double.isFinite_neg h)
  exact HoldsOfParts.holdsOfNumbers
    { whole := fun h => ⟨_, rereads_whole h⟩
      below := fun hle => readable_double (Double.isFinite_neg (isFinite_ofNat_of_le hle))
      zero := fun negative => hneg negative rfl
      scaled := fun hle hscaled negative =>
        hneg negative (isFinite_scaleInto (isFinite_ofNat_of_le hle) hscaled) }

end Phrasebook.Json
