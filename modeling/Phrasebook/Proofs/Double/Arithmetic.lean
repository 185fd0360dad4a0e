import Phrasebook.Proofs.Double.Packing

/-!
# Proofs/Double/Arithmetic — products and quotients of finite doubles

A product of finite doubles is finite or infinite, and finite if it stays below the range with one
rounding; a quotient by two or more is finite.
-/

namespace Phrasebook.Double

open Float.Model hiding pack unpack mul div
open Float.Model.Format Float.Model.UnpackedFloat

variable {x y : Float} {u v : UnpackedFloat} {s : Sign} {m : Nat} {e : Int}

/-! ## Finite doubles -/

/-- The magnitude of a double. -/
def size (x : Float) : ℚ := magnitude x.toModel.unpack

theorem size_nonneg (x : Float) : 0 ≤ size x := by
  rw [size, magnitude.eq_def]
  split
  · exact scaled_nonneg _ _
  · exact le_refl 0

/-- A finite number is a zero or has a mantissa. -/
theorem isFinite_cases (h : u.isFinite = true) :
    (∃ s, u = .zero s) ∨ ∃ s m e hm, u = .finite s m e hm := by
  cases u with
  | infinity s => cases h
  | notANumber => cases h
  | zero s => exact .inl ⟨s, rfl⟩
  | finite s m e hm => exact .inr ⟨s, m, e, hm, rfl⟩

theorem isInf_of_isFinite (h : x.isFinite = true) : x.isInf = false := by
  have hsame : x.isInf = x.toModel.unpack.isInf := rfl
  rcases isFinite_cases (u := x.toModel.unpack) h with ⟨s, hu⟩ | ⟨s, m, e, hm, hu⟩ <;>
    rw [hsame, hu] <;> rfl

/-- What is not infinite and is a number is finite. -/
theorem isFinite_of_isInf_isNaN (hinf : x.isInf = false) (hnan : x.isNaN = false) :
    x.isFinite = true := by
  have hi : x.toModel.unpack.isInf = false := hinf
  have hn : x.toModel.unpack.isNaN = false := hnan
  have hsame : x.isFinite = x.toModel.unpack.isFinite := rfl
  rw [hsame]
  cases hu : x.toModel.unpack with
  | infinity s => rw [hu] at hi; cases hi
  | notANumber => rw [hu] at hn; cases hn
  | zero s => rfl
  | finite s m e hm => rfl

/-- What rounding gives is finite as long as its exponent is not looked at. -/
theorem isFinite_roundWithAccuracy (s : Sign) (m : Nat) (e : Int) (accuracy : Accuracy) :
    (roundWithAccuracy binary64 s m e accuracy).isFinite = true := by
  obtain ⟨r, -, -, hrounded⟩ := roundWithAccuracy_eq s m e accuracy
  rw [hrounded]
  split <;> rfl

/-! ## Products -/

theorem unpack_mul (x y : Float) : (x * y).toModel.unpack
    = unpack binary64 (pack binary64 (mul binary64 x.toModel.unpack y.toModel.unpack)) := rfl

/-- A product of finite numbers is a zero or is rounded. -/
theorem mul_cases (hu : u.isFinite = true) (hv : v.isFinite = true) :
    (∃ s, mul binary64 u v = .zero s)
      ∨ ∃ s₁ m₁ e₁ h₁ s₂ m₂ e₂ h₂, u = .finite s₁ m₁ e₁ h₁ ∧ v = .finite s₂ m₂ e₂ h₂
        ∧ mul binary64 u v = roundWithAccuracy binary64 (s₁ * s₂) (m₁ * m₂) (e₁ + e₂) .exact := by
  rcases isFinite_cases hu with ⟨s₁, rfl⟩ | ⟨s₁, m₁, e₁, h₁, rfl⟩
  · rcases isFinite_cases hv with ⟨s₂, rfl⟩ | ⟨s₂, m₂, e₂, h₂, rfl⟩
    · exact .inl ⟨s₁ * s₂, rfl⟩
    · exact .inl ⟨s₁ * s₂, rfl⟩
  · rcases isFinite_cases hv with ⟨s₂, rfl⟩ | ⟨s₂, m₂, e₂, h₂, rfl⟩
    · exact .inl ⟨s₁ * s₂, rfl⟩
    · exact .inr ⟨s₁, m₁, e₁, h₁, s₂, m₂, e₂, h₂, rfl, rfl, rfl⟩

/-- **A product of finite doubles is finite unless it is infinite.** -/
theorem isFinite_mul (hx : x.isFinite = true) (hy : y.isFinite = true)
    (h : (x * y).isInf = false) : (x * y).isFinite = true := by
  refine isFinite_of_isInf_isNaN h ?_
  have hsame : (x * y).isNaN = (x * y).toModel.unpack.isNaN := rfl
  rw [hsame, unpack_mul]
  refine isNaN_unpack_pack ?_
  rcases mul_cases hx hy with ⟨s, hmul⟩ | ⟨s₁, m₁, e₁, h₁, s₂, m₂, e₂, h₂, -, -, hmul⟩
  · rw [hmul]
    rfl
  · rw [hmul]
    exact isFinite_roundWithAccuracy _ _ _ _

/-- A product of doubles below the range has an exponent of the range. -/
theorem add_exponents_le {s₁ s₂ : Sign} {m₁ m₂ : Nat} {e₁ e₂ : Int} {h₁ : 0 < m₁} {h₂ : 0 < m₂}
    (hx : x.toModel.unpack = .finite s₁ m₁ e₁ h₁) (hy : y.toModel.unpack = .finite s₂ m₂ e₂ h₂)
    (h : scaled (m₁ * m₂) (e₁ + e₂) < 2 ^ (1024 : Int)) : e₁ + e₂ ≤ 971 := by
  obtain ⟨-, -, hhigh₁, hnormal₁⟩ := unpack_eq_finite hx
  obtain ⟨-, -, hhigh₂, hnormal₂⟩ := unpack_eq_finite hy
  have hne : m₁ * m₂ ≠ 0 := (Nat.mul_pos h₁ h₂).ne'
  have hlog := log2_add_lt hne h
  by_contra hover
  -- both factors are normal, so the product has more than a hundred bits
  have hlarge : 2 ^ 52 * 2 ^ 52 ≤ m₁ * m₂ :=
    Nat.mul_le_mul (hnormal₁.resolve_left (by omega)) (hnormal₂.resolve_left (by omega))
  have hbits : 104 ≤ (m₁ * m₂).log2 := (Nat.le_log2 hne).2 hlarge
  omega

/-- **A product below the range is finite** and one unit off at most. -/
theorem size_mul_le (hx : x.isFinite = true) (hy : y.isFinite = true)
    (h : roundedUp (size x * size y) < 2 ^ (1024 : Int)) :
    (x * y).isFinite = true ∧ size (x * y) ≤ roundedUp (size x * size y) := by
  have hnonneg : 0 ≤ size x * size y := mul_nonneg (size_nonneg x) (size_nonneg y)
  suffices hproduct : InRange (mul binary64 x.toModel.unpack y.toModel.unpack)
      ∧ magnitude (mul binary64 x.toModel.unpack y.toModel.unpack)
        ≤ roundedUp (size x * size y) by
    have hfinite : (x * y).isFinite = (x * y).toModel.unpack.isFinite := rfl
    rw [hfinite, size, unpack_mul]
    exact unpack_pack_spec hproduct.1 hproduct.2
  rcases mul_cases hx hy with ⟨s, hmul⟩ | ⟨s₁, m₁, e₁, h₁, s₂, m₂, e₂, h₂, hu, hv, hmul⟩
  · rw [hmul]
    exact ⟨trivial, hnonneg.trans (le_roundedUp hnonneg)⟩
  · have hvalue : size x * size y = scaled (m₁ * m₂) (e₁ + e₂) := by
      rw [size, size, hu, hv, magnitude, magnitude, scaled_mul]
    rw [hvalue] at h hnonneg ⊢
    rw [hmul]
    exact roundWithAccuracy_exact _ (Nat.mul_pos h₁ h₂).ne'
      (add_exponents_le hu hv ((le_roundedUp hnonneg).trans_lt h)) h

/-! ## Quotients -/

/-- The leading bit of a double is below the range. -/
theorem log2_add_le_of_unpack {hm : 0 < m} (h : x.toModel.unpack = .finite s m e hm) :
    m.log2 + 1 + e ≤ 1024 := by
  obtain ⟨hlt, -, hhigh, -⟩ := unpack_eq_finite h
  have hlog : m.log2 < 53 := (Nat.log2_lt hm.ne').2 hlt
  omega

/-- The quotient of the mantissas is not above the quotient of the numbers. -/
theorem scaled_divCore_le {m₁ m₂ : Nat} (e₁ e₂ : Int) (h₂ : 0 < m₂) :
    scaled (divCore binary64 m₁ e₁ m₂ e₂).1 (divCore binary64 m₁ e₁ m₂ e₂).2.1
      ≤ scaled m₁ e₁ / scaled m₂ e₂ := by
  rw [divCore]
  dsimp only
  set t := min (e₁ - e₂) (binary64.targetExponent (totalExponent m₁ e₁ - totalExponent m₂ e₂)) with ht
  have hsum : t + (e₁ - e₂ - t).toNat + e₂ = e₁ := by omega
  have hquotient : (((m₁ <<< (e₁ - e₂ - t).toNat) / m₂ : Nat) : ℚ)
      ≤ m₁ * 2 ^ (e₁ - e₂ - t).toNat / m₂ := by
    refine Nat.cast_div_le.trans_eq ?_
    rw [Nat.shiftLeft_eq, Nat.cast_mul, Nat.cast_pow, Nat.cast_ofNat]
  have hm₂ : (m₂ : ℚ) ≠ 0 := by exact_mod_cast h₂.ne'
  calc scaled (m₁ <<< (e₁ - e₂ - t).toNat / m₂) t
      ≤ m₁ * 2 ^ (e₁ - e₂ - t).toNat / m₂ * 2 ^ t := by
        rw [scaled]
        gcongr
    _ = m₁ * 2 ^ (t + (e₁ - e₂ - t).toNat + e₂) / (m₂ * 2 ^ e₂) := by
        rw [zpow_add₀ (by norm_num), zpow_add₀ (by norm_num), zpow_natCast]
        field_simp
    _ = scaled m₁ e₁ / scaled m₂ e₂ := by rw [hsum, scaled, scaled]

/-- **Dividing by two or more keeps a double finite.** -/
theorem isFinite_div (hx : x.isFinite = true) (hy : y.isFinite = true) (h : 2 ≤ size y) :
    (x / y).isFinite = true := by
  have hdiv : (x / y).isFinite = (unpack binary64 (pack binary64
      (div binary64 x.toModel.unpack y.toModel.unpack))).isFinite := rfl
  rw [hdiv]
  refine isFinite_unpack_pack ?_
  rw [size] at h
  rcases isFinite_cases (u := y.toModel.unpack) hy with ⟨s₂, hv⟩ | ⟨s₂, m₂, e₂, h₂, hv⟩
  · rw [hv] at h
    exact absurd h (by simp [magnitude])
  · rw [hv, magnitude] at h
    rcases isFinite_cases (u := x.toModel.unpack) hx with ⟨s₁, hu⟩ | ⟨s₁, m₁, e₁, h₁, hu⟩
    · rw [hu, hv]
      trivial
    · have hlog₁ := log2_add_le_of_unpack hu
      have hlog₂ : 1 < m₂.log2 + 1 + e₂ := by
        have hlt : (2 : ℚ) ^ (1 : Int) < 2 ^ (m₂.log2 + 1 + e₂ : Int) :=
          (zpow_one (2 : ℚ)).trans_le h |>.trans_lt (scaled_lt m₂ e₂)
        exact (zpow_lt_zpow_iff_right₀ (by norm_num)).1 hlt
      have hsmall : scaled m₁ e₁ / scaled m₂ e₂ < 2 ^ (1023 : Int) := by
        rw [div_lt_iff₀ (by linarith)]
        calc scaled m₁ e₁
            < 2 ^ (m₁.log2 + 1 + e₁ : Int) := scaled_lt m₁ e₁
          _ ≤ 2 ^ (1024 : Int) := zpow_le_zpow_right₀ (by norm_num) hlog₁
          _ = 2 ^ (1023 : Int) * 2 := zpow_add_one₀ (by norm_num) 1023
          _ ≤ 2 ^ (1023 : Int) * scaled m₂ e₂ := by gcongr
      rw [hu, hv, div]
      refine inRange_roundWithAccuracy _ _ ?_ ((scaled_divCore_le e₁ e₂ h₂).trans_lt hsmall)
      have htarget : (divCore binary64 m₁ e₁ m₂ e₂).2.1
          ≤ max (m₁.log2 + 1 + e₁ - (m₂.log2 + 1 + e₂) - 53) (-1074) := by
        refine (Int.min_le_right _ _).trans ?_
        simp [targetExponent, totalExponent, minExponent, mantissaBits]
      exact htarget.trans (by omega)

/-! ## Signs -/

theorem isFinite_neg (h : x.isFinite = true) : (-x).isFinite = true := by
  have hneg : (-x).isFinite = (unpack binary64 (pack binary64 x.toModel.unpack.neg)).isFinite := rfl
  rw [hneg]
  refine isFinite_unpack_pack ?_
  rcases isFinite_cases (u := x.toModel.unpack) h with ⟨s, hu⟩ | ⟨s, m, e, hm, hu⟩
  · rw [hu]
    trivial
  · obtain ⟨-, hlow, hhigh, -⟩ := unpack_eq_finite hu
    rw [hu]
    exact ⟨hlow, hhigh⟩

end Phrasebook.Double
