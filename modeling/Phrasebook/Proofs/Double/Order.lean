import Phrasebook.Proofs.Double.Naturals

/-!
# Proofs/Double/Order — comparing doubles

Doubles are compared by sign, exponent and mantissa, in this order.  Since a mantissa has all its
bits unless the exponent is the least one, that is **the order of the numbers that they stand for**
(`lt_iff`, `beq_iff`).  So whole numbers that are compared as doubles are compared as their nearest
numbers of 53 binary digits (`ofInt_lt_ofInt_iff`).
-/

namespace Phrasebook.Double

open Float.Model hiding pack unpack mul div
open Float.Model.Format Float.Model.UnpackedFloat

variable {x y : Float} {u v : UnpackedFloat} {s s' : Sign} {m n : Nat} {e f : Int} {a b : Int}

/-! ## The order of the parts -/

/-- The number that an unpacked double stands for; zero if it stands for none. -/
def value : UnpackedFloat → ℚ
  | .finite .positive m e _ => scaled m e
  | .finite .negative m e _ => -scaled m e
  | .zero _ => 0
  | .infinity _ => 0
  | .notANumber => 0

/-- Whether a finite number has all the bits of a mantissa, or the least exponent. -/
def Canonical : UnpackedFloat → Prop
  | .zero _ => True
  | .finite _ m e _ => m < 2 ^ 53 ∧ -1074 ≤ e ∧ (e = -1074 ∨ 2 ^ 52 ≤ m)
  | _ => False

theorem scaled_pos (hm : 0 < m) (e : Int) : 0 < scaled m e := by
  rw [scaled]
  positivity

/-- A larger exponent makes a larger number, if the mantissa has all its bits. -/
theorem scaled_lt_scaled (hm : m < 2 ^ 53) (hn : 2 ^ 52 ≤ n) (h : e < f) :
    scaled m e < scaled n f := by
  have hm' : (m : ℚ) < 2 ^ 53 := by exact_mod_cast hm
  have hn' : (2 : ℚ) ^ 52 ≤ n := by exact_mod_cast hn
  calc scaled m e
      < 2 ^ 53 * 2 ^ e := by rw [scaled]; gcongr
    _ = 2 ^ 52 * 2 ^ (e + 1) := by rw [zpow_add_one₀ (by norm_num)]; ring
    _ ≤ 2 ^ 52 * 2 ^ f := by gcongr <;> [norm_num; omega]
    _ ≤ scaled n f := by rw [scaled]; gcongr

/-- Exponents and then mantissas are compared as the magnitudes are. -/
theorem compares_scaled {hm : 0 < m} {hn : 0 < n} (hu : Canonical (.finite s m e hm))
    (hv : Canonical (.finite s' n f hn)) :
    ((compare e f).then (compare m n)).Compares (scaled m e) (scaled n f) := by
  obtain ⟨hm53, he, hm52⟩ := hu
  obtain ⟨hn53, hf, hn52⟩ := hv
  rcases lt_trichotomy e f with h | rfl | h
  · rw [compare_lt_iff_lt.2 h]
    exact scaled_lt_scaled hm53 (hn52.resolve_left (by omega)) h
  · rw [compare_eq_iff_eq.2 rfl, Ordering.then]
    rcases lt_trichotomy m n with h | rfl | h
    · rw [compare_lt_iff_lt.2 h, Ordering.compares_lt, scaled, scaled]
      gcongr
    · rw [compare_eq_iff_eq.2 rfl]
      rfl
    · rw [compare_gt_iff_gt.2 h, Ordering.compares_gt, scaled, scaled]
      gcongr
  · rw [compare_gt_iff_gt.2 h]
    exact scaled_lt_scaled hn53 (hm52.resolve_left (by omega)) h

/-- **Finite numbers are compared as what they stand for.** -/
theorem exists_compare_eq (hu : Canonical u) (hv : Canonical v) :
    ∃ o, u.compare v = some o ∧ o.Compares (value u) (value v) := by
  cases u with
  | infinity s => cases hu
  | notANumber => cases hu
  | zero s =>
    cases v with
    | infinity s => cases hv
    | notANumber => cases hv
    | zero s' => exact ⟨.eq, rfl, rfl⟩
    | finite s' n f hn =>
      have hpos := scaled_pos hn f
      cases s' with
      | positive => exact ⟨.lt, rfl, hpos⟩
      | negative => exact ⟨.gt, rfl, neg_lt_zero.2 hpos⟩
  | finite s m e hm =>
    have hpos := scaled_pos hm e
    cases v with
    | infinity s => cases hv
    | notANumber => cases hv
    | zero s' =>
      cases s with
      | positive => exact ⟨.gt, rfl, hpos⟩
      | negative => exact ⟨.lt, rfl, neg_lt_zero.2 hpos⟩
    | finite s' n f hn =>
      have hpos' := scaled_pos hn f
      have hcompares := compares_scaled hu hv
      cases s with
      | positive =>
        cases s' with
        | positive => exact ⟨_, rfl, hcompares⟩
        | negative => exact ⟨.gt, rfl, (neg_lt_zero.2 hpos').trans hpos⟩
      | negative =>
        cases s' with
        | positive => exact ⟨.lt, rfl, (neg_lt_zero.2 hpos).trans hpos'⟩
        | negative =>
          -- below zero the order is the other way round
          refine ⟨_, rfl, Ordering.compares_swap.2 ?_⟩
          cases h : (compare e f).then (compare m n) <;> rw [h] at hcompares
          · exact neg_lt_neg hcompares
          · exact congrArg (- ·) hcompares.symm
          · exact neg_lt_neg hcompares

/-! ## The order of doubles -/

theorem canonical_unpack (h : x.isFinite = true) : Canonical x.toModel.unpack := by
  rcases isFinite_cases (u := x.toModel.unpack) h with ⟨s, hu⟩ | ⟨s, m, e, hm, hu⟩
  · rw [hu]
    trivial
  · obtain ⟨hlt, hlow, -, hnormal⟩ := unpack_eq_finite hu
    rw [hu]
    exact ⟨hlt, hlow, hnormal⟩

/-- **Of two finite doubles the one that stands for the smaller number is smaller.** -/
theorem lt_iff (hx : x.isFinite = true) (hy : y.isFinite = true) :
    x < y ↔ value x.toModel.unpack < value y.toModel.unpack := by
  obtain ⟨o, ho, hcompares⟩ := exists_compare_eq (canonical_unpack hx) (canonical_unpack hy)
  have hlt : x < y ↔ (x.toModel.unpack.compare y.toModel.unpack == some .lt) = true :=
    decide_eq_true_iff
  rw [hlt, ho, beq_iff_eq, Option.some_inj, hcompares.eq_lt]

/-- **Two finite doubles are equal if they stand for the same number.** -/
theorem beq_iff (hx : x.isFinite = true) (hy : y.isFinite = true) :
    (x == y) = true ↔ value x.toModel.unpack = value y.toModel.unpack := by
  obtain ⟨o, ho, hcompares⟩ := exists_compare_eq (canonical_unpack hx) (canonical_unpack hy)
  have hbeq : (x == y) = (x.toModel.unpack.compare y.toModel.unpack == some .eq) := rfl
  rw [hbeq, ho, beq_iff_eq, Option.some_inj, hcompares.eq_eq]

/-! ## Whole numbers -/

/-- **The double of a whole number is the nearest one.** -/
theorem value_ofInt (h : a.natAbs ≤ 2 ^ 64) :
    (Float.ofInt a).isFinite = true ∧ value (Float.ofInt a).toModel.unpack = nearestInt a := by
  cases a with
  | ofNat n =>
    have hsame : (Float.ofInt (.ofNat n)).isFinite = (Float.ofNat n).toModel.unpack.isFinite := rfl
    have hofNat : (Float.ofInt (.ofNat n)).toModel.unpack = (Float.ofNat n).toModel.unpack := rfl
    rcases eq_or_ne n 0 with rfl | hn
    · have hzero : (Float.ofNat 0).toModel.unpack = .zero .positive := rfl
      rw [hsame, hofNat, hzero]
      exact ⟨rfl, rfl⟩
    · obtain ⟨m, e, hm, hunpack, -, hvalue⟩ := unpack_ofNat hn h
      rw [hsame, hofNat, hunpack]
      exact ⟨rfl, hvalue⟩
  | negSucc n =>
    have hneg : (Float.ofInt (.negSucc n)).toModel.unpack = unpack binary64 (pack binary64
        (Float.ofNat (n + 1)).toModel.unpack.neg) := rfl
    have hsame : (Float.ofInt (.negSucc n)).isFinite
        = (Float.ofInt (.negSucc n)).toModel.unpack.isFinite := rfl
    obtain ⟨m, e, hm, hunpack, hnormal, hvalue⟩ := unpack_ofNat (Nat.succ_ne_zero n) h
    have hback : unpack binary64 (pack binary64 (.finite (-.positive) m e hm))
        = .finite .negative m e hm := unpack_pack_of_normal hnormal
    rw [hsame, hneg, hunpack, UnpackedFloat.neg, hback, value, hvalue, nearestInt]
    exact ⟨rfl, by push_cast; rfl⟩

/-- **Whole numbers are compared as their nearest numbers of 53 digits.** -/
theorem ofInt_lt_ofInt_iff (ha : a.natAbs ≤ 2 ^ 64) (hb : b.natAbs ≤ 2 ^ 64) :
    Float.ofInt a < Float.ofInt b ↔ a < b ∧ nearestInt a ≠ nearestInt b := by
  rw [lt_iff (value_ofInt ha).1 (value_ofInt hb).1, (value_ofInt ha).2, (value_ofInt hb).2,
    Int.cast_lt, nearestInt_lt_iff]

/-- No whole number but zero is zero as a double. -/
theorem ofInt_bne_zero (ha : a.natAbs ≤ 2 ^ 64) : (Float.ofInt a != 0) = decide (a ≠ 0) := by
  have hzero : (0 : Float) = Float.ofInt 0 := rfl
  have hfinite := value_ofInt (a := 0) (Nat.zero_le _)
  have hbeq : (Float.ofInt a == 0) = true ↔ a = 0 := by
    rw [hzero, beq_iff (value_ofInt ha).1 hfinite.1, (value_ofInt ha).2, hfinite.2, Int.cast_inj]
    exact nearestInt_eq_zero_iff
  rw [bne, Bool.eq_iff_iff, Bool.not_eq_true', ← Bool.not_eq_true, hbeq, decide_eq_true_iff]

end Phrasebook.Double
