import Phrasebook.Proofs.Double.Rounding
import Phrasebook.Text.Shortest

/-!
# Proofs/Text/Shortest — how far the shortest decimal is from its double

A decimal that the search finds lies in the interval of its double, and one that it does not find is
cut off below it, so half a unit above the double is an upper bound either way.
-/

namespace Phrasebook.Shortest

variable {i : Interval} {n point fuel : Nat} {k power : Int}

/-- `n · 10 ^ k`. -/
def decimalValue (decimal : Nat × Int) : ℚ := decimal.1 * 10 ^ decimal.2

/-! ## Grids -/

theorem bounds_of_contains {unitNum unitDen : Nat} (h : i.contains point unitNum unitDen = true) :
    i.low * unitDen ≤ point * unitNum * i.den ∧ point * unitNum * i.den ≤ i.high * unitDen := by
  rw [Interval.contains] at h
  split at h
  · exact of_decide_eq_true h
  · obtain ⟨hlow, hhigh⟩ := of_decide_eq_true h
    exact ⟨hlow.le, hhigh.le⟩

/-- A point that a grid gives lies in the interval. -/
theorem contains_of_onGrid (h : i.onGrid power = some point) :
    i.contains point (Nat.pow 10 power.toNat) (Nat.pow 10 (-power).toNat) = true := by
  rw [Interval.onGrid] at h
  split at h
  · rename_i hfloor hnext
    rw [← Option.some.inj h]
    split
    · exact hfloor
    · exact hnext
  · rename_i hfloor hnext
    exact Option.some.inj h ▸ hfloor
  · rename_i hfloor hnext
    exact Option.some.inj h ▸ hnext
  · cases h

theorem decimalValue_le_of_onGrid (hden : 0 < i.den) (h : i.onGrid power = some point) :
    decimalValue (point, power) ≤ i.high / i.den := by
  obtain ⟨-, hhigh⟩ := bounds_of_contains (contains_of_onGrid h)
  have hcast : (point : ℚ) * 10 ^ power.toNat * i.den ≤ i.high * 10 ^ (-power).toNat := by
    exact_mod_cast hhigh
  rw [decimalValue, Double.zpow_eq_div (by norm_num), ← mul_div_assoc,
    div_le_div_iff₀ (by positivity) (by exact_mod_cast hden)]
  exact hcast

/-- **What the search finds is not above the interval**, and zero is found on the grid of whole
numbers alone, unless it lies in the interval. -/
theorem search_spec (hden : 0 < i.den) (hvalue : i.value ≤ i.high) (power : Int) (steps : Nat) :
    decimalValue (i.search power steps) ≤ i.high / i.den
      ∧ ((i.search power steps).1 = 0 → 0 < i.low → (i.search power steps).2 = 0) := by
  induction steps generalizing power with
  | zero =>
    refine ⟨?_, fun _ _ => rfl⟩
    have hcast : (i.value : ℚ) ≤ i.high := by exact_mod_cast hvalue
    rw [Interval.search, decimalValue, zpow_zero, mul_one]
    refine (Nat.cast_div_le (α := ℚ)).trans ?_
    gcongr
  | succ steps ih =>
    rw [Interval.search]
    split
    · rename_i point hpoint
      refine ⟨decimalValue_le_of_onGrid hden hpoint, fun hzero hlow => ?_⟩
      obtain ⟨hbelow, -⟩ := bounds_of_contains (contains_of_onGrid hpoint)
      have hunit : 0 < Nat.pow 10 (-power).toNat := Nat.pow_pos (by omega)
      have hpositive : 0 < i.low * Nat.pow 10 (-power).toNat := Nat.mul_pos hlow hunit
      dsimp only at hzero
      rw [hzero, Nat.zero_mul, Nat.zero_mul] at hbelow
      omega
    · exact ih _

/-! ## Trailing zeros -/

/-- **Moving zeros into the power of ten changes nothing.** -/
theorem decimalValue_stripZeros : decimalValue (stripZeros k fuel n) = decimalValue (n, k) := by
  induction fuel generalizing k n with
  | zero => rfl
  | succ fuel ih =>
    rw [stripZeros]
    split
    · rename_i hstrip
      have hdiv : (n : ℚ) = (n / 10 : Nat) * 10 := by
        exact_mod_cast (Nat.div_mul_cancel (Nat.dvd_of_mod_eq_zero hstrip.2)).symm
      rw [ih, decimalValue, decimalValue, hdiv, zpow_add_one₀ (by norm_num)]
      ring
    · rfl

theorem stripZeros_zero : stripZeros k fuel 0 = (0, k) := by
  cases fuel with
  | zero => rfl
  | succ fuel => rw [stripZeros, if_neg (by simp)]

theorem stripZeros_ne_zero (h : n ≠ 0) : (stripZeros k fuel n).1 ≠ 0 := by
  induction fuel generalizing k n with
  | zero => exact h
  | succ fuel ih =>
    rw [stripZeros]
    split
    · exact ih (by omega)
    · exact h

/-! ## The shortest decimal -/

/-- The shortest decimal of a mantissa and an exponent. -/
def ofBinary (b : Binary) : Nat × Int :=
  let i := b.interval
  let (n, k) := i.search (magnitude i.value i.den + 1) 20
  stripZeros k 20 n

theorem decimal_eq (value : Float) : decimal value = ofBinary (decompose value) := rfl

theorem high_div_den (b : Binary) :
    (b.interval.high : ℚ) / b.interval.den = (b.mantissa + 1 / 2) * 2 ^ b.exponent := by
  have hpower : (2 : ℚ) ^ b.exponent = 2 ^ b.exponent.toNat / 2 ^ (-b.exponent).toNat :=
    Double.zpow_eq_div (by norm_num) b.exponent
  rw [hpower, Binary.interval]
  simp only [Nat.pow_eq, Nat.cast_mul, Nat.cast_add, Nat.cast_pow, Nat.cast_ofNat]
  field_simp
  ring

/-- **The shortest decimal is half a unit above the number at most**, and it is zero for a number
that is not zero only if it has no power of ten. -/
theorem ofBinary_spec (b : Binary) :
    decimalValue (ofBinary b) ≤ (b.mantissa + 1 / 2) * 2 ^ b.exponent
      ∧ ((ofBinary b).1 = 0 → 0 < b.mantissa → (ofBinary b).2 = 0) := by
  have hden : 0 < b.interval.den := Nat.mul_pos (by omega) (Nat.pow_pos (by omega))
  have hvalue : b.interval.value ≤ b.interval.high := Nat.mul_le_mul_right _ (by omega)
  obtain ⟨hle, hzero⟩ :=
    search_spec hden hvalue (magnitude b.interval.value b.interval.den + 1) 20
  rw [ofBinary]
  dsimp only
  refine ⟨?_, fun hn hmantissa => ?_⟩
  · rw [decimalValue_stripZeros, ← high_div_den]
    exact hle
  · have hlow : 0 < b.interval.low := by
      refine Nat.mul_pos ?_ (Nat.pow_pos (by omega))
      split <;> omega
    have hfound : (b.interval.search (magnitude b.interval.value b.interval.den + 1) 20).1 = 0 := by
      by_contra hne
      exact stripZeros_ne_zero hne hn
    rw [hfound, stripZeros_zero]
    exact hzero hfound hlow

end Phrasebook.Shortest
