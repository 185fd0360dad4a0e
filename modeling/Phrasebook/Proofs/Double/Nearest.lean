import Mathlib

/-!
# Proofs/Double/Nearest — the nearest number of 53 binary digits

    n  ──drop k digits──▸  n / 2 ^ k  ──add 0 or 1──▸ ──append k zeros──▸  nearest n

A number of more than 53 binary digits is rounded to 53; of two that are as near, the even one is
taken.  Numbers up to `2 ^ 53` stay as they are.  **Rounding keeps the order** (`nearestInt_mono`),
and it merges two numbers only beyond `2 ^ 53` (`eq_of_nearestInt_eq`).
-/

namespace Phrasebook.Double

variable {m n : Nat} {a b : Int}

/-! ## Rounding at a place -/

/-- `n / 2 ^ k` rounded to a whole number; of two that are as near, to the even one. -/
def roundedQuotient (n k : Nat) : Nat :=
  if 2 * (n % 2 ^ k) < 2 ^ k ∨ (2 * (n % 2 ^ k) = 2 ^ k ∧ n / 2 ^ k % 2 = 0) then n / 2 ^ k
  else n / 2 ^ k + 1

theorem roundedQuotient_zero (n : Nat) : roundedQuotient n 0 = n := by
  simp [roundedQuotient, Nat.mod_one]

theorem div_le_roundedQuotient (n k : Nat) : n / 2 ^ k ≤ roundedQuotient n k := by
  rw [roundedQuotient]
  split <;> omega

theorem roundedQuotient_le (n k : Nat) : roundedQuotient n k ≤ n / 2 ^ k + 1 := by
  rw [roundedQuotient]
  split <;> omega

theorem roundedQuotient_mono (h : m ≤ n) (k : Nat) : roundedQuotient m k ≤ roundedQuotient n k := by
  have hdiv : m / 2 ^ k ≤ n / 2 ^ k := Nat.div_le_div_right h
  rcases hdiv.lt_or_eq with hlt | heq
  · exact (roundedQuotient_le m k).trans (hlt.trans_le (div_le_roundedQuotient n k))
  · -- with the same quotient, what is left of the larger number is larger
    have hmod : m % 2 ^ k ≤ n % 2 ^ k := by
      have hm := Nat.div_add_mod m (2 ^ k)
      have hn := Nat.div_add_mod n (2 ^ k)
      rw [heq] at hm
      omega
    rw [roundedQuotient, roundedQuotient, heq]
    split <;> split <;> omega

/-- Zeros that are appended and dropped again change nothing. -/
theorem roundedQuotient_mul (n k j : Nat) :
    roundedQuotient (n * 2 ^ j) (k + j) = roundedQuotient n k := by
  have hpos : 0 < 2 ^ j := Nat.two_pow_pos j
  simp only [roundedQuotient, Nat.pow_add, Nat.mul_div_mul_right _ _ hpos, Nat.mul_mod_mul_right,
    ← Nat.mul_assoc, Nat.mul_lt_mul_right hpos, Nat.mul_left_inj hpos.ne']

/-- A number rounded to 53 digits has 53 digits, or one more if all of them were carried over. -/
theorem roundedQuotient_bounds (h : 2 ^ 52 ≤ n) :
    2 ^ 52 ≤ roundedQuotient n (n.log2 - 52) ∧ roundedQuotient n (n.log2 - 52) ≤ 2 ^ 53 := by
  have hne : n ≠ 0 := by omega
  have hlog : 52 ≤ n.log2 := (Nat.le_log2 hne).2 h
  have hsum : 53 + (n.log2 - 52) = n.log2 + 1 := by omega
  constructor
  · refine le_trans ?_ (div_le_roundedQuotient _ _)
    rw [Nat.le_div_iff_mul_le (Nat.two_pow_pos _), ← Nat.pow_add, Nat.add_sub_cancel' hlog]
    exact Nat.log2_self_le hne
  · refine (roundedQuotient_le _ _).trans (Nat.succ_le_of_lt ?_)
    rw [Nat.div_lt_iff_lt_mul (Nat.two_pow_pos _), ← Nat.pow_add, hsum]
    exact Nat.lt_log2_self

/-! ## The nearest number of 53 digits -/

/-- The nearest natural number of 53 binary digits; of two that are as near, the even one. -/
def nearest (n : Nat) : Nat := roundedQuotient n (n.log2 - 52) * 2 ^ (n.log2 - 52)

theorem nearest_of_lt (h : n < 2 ^ 53) : nearest n = n := by
  have hlog : n.log2 - 52 = 0 := by
    rcases eq_or_ne n 0 with rfl | hn
    · rfl
    · have hlt : n.log2 < 53 := (Nat.log2_lt hn).2 h
      omega
  rw [nearest, hlog, roundedQuotient_zero, Nat.pow_zero, Nat.mul_one]

theorem nearest_two_pow : nearest (2 ^ 53) = 2 ^ 53 := by decide +kernel

/-- A number has as many digits when it is rounded, or is the first one with one more. -/
theorem nearest_bounds (hn : n ≠ 0) : 2 ^ n.log2 ≤ nearest n ∧ nearest n ≤ 2 ^ (n.log2 + 1) := by
  rcases lt_or_ge n (2 ^ 52) with hlt | hge
  · rw [nearest_of_lt (by omega)]
    exact ⟨Nat.log2_self_le hn, Nat.lt_log2_self.le⟩
  · have hlog : 52 ≤ n.log2 := (Nat.le_log2 hn).2 hge
    obtain ⟨hlow, hhigh⟩ := roundedQuotient_bounds hge
    have hpow : 2 ^ n.log2 = 2 ^ 52 * 2 ^ (n.log2 - 52) := by
      rw [← Nat.pow_add, Nat.add_sub_cancel' hlog]
    rw [nearest, Nat.pow_succ', hpow, ← Nat.mul_assoc]
    exact ⟨Nat.mul_le_mul_right _ hlow, Nat.mul_le_mul_right _ hhigh⟩

theorem nearest_mono (h : m ≤ n) : nearest m ≤ nearest n := by
  rcases eq_or_ne m 0 with rfl | hm
  · exact Nat.zero_le _
  · have hn : n ≠ 0 := by omega
    have hlog : m.log2 ≤ n.log2 := (Nat.le_log2 hn).2 ((Nat.log2_self_le hm).trans h)
    rcases hlog.lt_or_eq with hlt | heq
    · calc nearest m
          ≤ 2 ^ (m.log2 + 1) := (nearest_bounds hm).2
        _ ≤ 2 ^ n.log2 := Nat.pow_le_pow_right (by decide) hlt
        _ ≤ nearest n := (nearest_bounds hn).1
    · rw [nearest, nearest, heq]
      exact Nat.mul_le_mul_right _ (roundedQuotient_mono h _)

/-- Rounding adds one unit in the last place that is left at most. -/
theorem nearest_mul_le (n : Nat) : nearest n * 2 ^ 52 ≤ n * (2 ^ 52 + 1) := by
  rcases lt_or_ge n (2 ^ 52) with hlt | hge
  · rw [nearest_of_lt (by omega)]
    exact Nat.mul_le_mul_left n (Nat.le_succ _)
  · have hne : n ≠ 0 := by omega
    have hlog : 52 ≤ n.log2 := (Nat.le_log2 hne).2 hge
    have hunit : 2 ^ (n.log2 - 52) * 2 ^ 52 ≤ n := by
      rw [← Nat.pow_add, Nat.sub_add_cancel hlog]
      exact Nat.log2_self_le hne
    have hround : nearest n ≤ n + 2 ^ (n.log2 - 52) := by
      have hquotient :=
        Nat.mul_le_mul_right (2 ^ (n.log2 - 52)) (roundedQuotient_le n (n.log2 - 52))
      rw [Nat.succ_mul] at hquotient
      exact hquotient.trans (Nat.add_le_add_right (Nat.div_mul_le_self _ _) _)
    calc nearest n * 2 ^ 52
        ≤ (n + 2 ^ (n.log2 - 52)) * 2 ^ 52 := Nat.mul_le_mul_right _ hround
      _ = n * 2 ^ 52 + 2 ^ (n.log2 - 52) * 2 ^ 52 := Nat.add_mul _ _ _
      _ ≤ n * 2 ^ 52 + n := Nat.add_le_add_left hunit _
      _ = n * (2 ^ 52 + 1) := (Nat.mul_succ n _).symm

theorem nearest_pos (hn : n ≠ 0) : 0 < nearest n :=
  (Nat.two_pow_pos _).trans_le (nearest_bounds hn).1

/-- The integer of 53 binary digits that is nearest; of two that are as near, the even one. -/
def nearestInt : Int → Int
  | .ofNat n => nearest n
  | .negSucc n => -nearest (n + 1)

theorem natAbs_nearestInt (a : Int) : (nearestInt a).natAbs = nearest a.natAbs := by
  cases a with
  | ofNat n => rfl
  | negSucc n => exact Int.natAbs_neg _

/-- **Rounding keeps the order.** -/
theorem nearestInt_mono (h : a ≤ b) : nearestInt a ≤ nearestInt b := by
  cases a with
  | ofNat m =>
    cases b with
    | ofNat n => exact Int.ofNat_le.2 (nearest_mono (Int.ofNat_le.1 h))
    | negSucc n => exact absurd (h.trans_lt (Int.negSucc_lt_zero n)) (Int.natCast_nonneg m).not_gt
  | negSucc m =>
    cases b with
    | ofNat n =>
      exact (Int.neg_nonpos_of_nonneg (Int.natCast_nonneg _)).trans (Int.natCast_nonneg _)
    | negSucc n => exact Int.neg_le_neg (Int.ofNat_le.2 (nearest_mono (by omega)))

theorem nearestInt_lt_iff : nearestInt a < nearestInt b ↔ a < b ∧ nearestInt a ≠ nearestInt b := by
  constructor
  · intro h
    exact ⟨lt_of_not_ge fun hle => h.not_ge (nearestInt_mono hle), h.ne⟩
  · rintro ⟨hlt, hne⟩
    exact lt_of_le_of_ne (nearestInt_mono hlt.le) hne

theorem nearestInt_eq_zero_iff : nearestInt a = 0 ↔ a = 0 := by
  rw [← Int.natAbs_eq_zero, natAbs_nearestInt, ← Int.natAbs_eq_zero (a := a)]
  constructor
  · intro h
    by_contra hne
    exact (nearest_pos hne).ne' h
  · intro h
    rw [h]
    rfl

theorem nearestInt_of_natAbs_lt (h : a.natAbs < 2 ^ 53) : nearestInt a = a := by
  cases a with
  | ofNat n => exact congrArg Int.ofNat (nearest_of_lt h)
  | negSucc n => exact congrArg (fun n : Nat => -(n : Int)) (nearest_of_lt h)

/-- **A number below `2 ^ 53` is the nearest one of no other number.** -/
theorem eq_of_nearestInt_eq (hb : b.natAbs < 2 ^ 53) (h : nearestInt a = nearestInt b) : a = b := by
  rw [nearestInt_of_natAbs_lt hb] at h
  have hlt : a.natAbs < 2 ^ 53 := by
    by_contra hge
    have hmono := nearest_mono (Nat.le_of_not_lt hge)
    rw [nearest_two_pow, ← natAbs_nearestInt, h] at hmono
    omega
  rw [← nearestInt_of_natAbs_lt hlt, h]

/-- Beyond `2 ^ 53` there is no number of 53 digits between an odd one and the even one below it. -/
example : nearestInt (2 ^ 53 + 1) = nearestInt (2 ^ 53) := by decide +kernel

end Phrasebook.Double
