import Phrasebook.Proofs.Json.Scaling
import Phrasebook.Proofs.Text.Shortest

/-!
# Proofs/Json/DoubleText — the text of a decimal is read as a number

    digits · point · digits          no power of ten above one
    digit · point · digits · e · power

A significand takes digits as long as they fit in 64 bits, and what is left counts as zeros, so it
stands for no more than the text does.  A text without an exponent is only ever scaled down; one
with an exponent is scaled up no further than the decimal it stands for.
-/

namespace Phrasebook.Json

open Scan

variable {negative : Bool} {significand count n : Nat} {start exponent : Int}
  {ds taken left rest text : List Char}

/-- All characters are digits. -/
def AllDigits (ds : List Char) : Prop := ∀ c ∈ ds, c.isDigit = true

theorem allDigits_digits (n : Nat) : AllDigits (Decimal.digits n) := fun _ => isDigit_of_mem_digits

theorem allDigits_zeros (n : Nat) : AllDigits (List.replicate n '0') := fun _ hc =>
  List.eq_of_mem_replicate hc ▸ rfl

theorem AllDigits.append (h : AllDigits ds) (hm : AllDigits rest) : AllDigits (ds ++ rest) :=
  fun c hc => (List.mem_append.1 hc).elim (h c) (hm c)

theorem AllDigits.tail {c : Char} (h : AllDigits (c :: ds)) : AllDigits ds := fun d hd =>
  h d (List.mem_cons_of_mem c hd)

theorem AllDigits.dropWhile_append (h : AllDigits ds) (hr : startsWithDigit rest = false) :
    (ds ++ rest).dropWhile Char.isDigit = rest := by
  rw [List.dropWhile_append_of_pos h, dropWhile_isDigit hr]

/-! ## What the digits of a number are read as -/

/-- Digits are taken up to a place from where on they do not fit. -/
theorem takeDigits_spec (h : AllDigits ds) (hr : startsWithDigit rest = false)
    (significand count : Nat) :
    ∃ taken left, ds = taken ++ left ∧ takeDigits significand count (ds ++ rest)
      = (Nat.ofDigitChars 10 taken significand, count + taken.length, left ++ rest) := by
  induction ds generalizing significand count with
  | nil =>
    refine ⟨[], [], rfl, ?_⟩
    cases rest with
    | nil => rfl
    | cons c rest =>
      have hc : c.isDigit = false := hr
      simp [takeDigits, hc]
  | cons c ds ih =>
    rw [List.cons_append, takeDigits]
    split
    · rename_i hfits
      obtain ⟨taken, left, rfl, htake⟩ :=
        ih h.tail (significand * 10 + Decimal.digitValue c) (count + 1)
      refine ⟨c :: taken, left, rfl, ?_⟩
      rw [htake, Nat.ofDigitChars_cons, Decimal.digitValue, Nat.mul_comm significand,
        List.length_cons]
      congr 2
      omega
    · exact ⟨[], c :: ds, rfl, by simp⟩

/-- What was taken, with zeros for what was left, is not above the number. -/
theorem taken_mul_pow_le (taken left : List Char) (significand : Nat) :
    Nat.ofDigitChars 10 taken significand * 10 ^ left.length
      ≤ Nat.ofDigitChars 10 (taken ++ left) significand := by
  rw [Nat.ofDigitChars_append, Nat.ofDigitChars_eq_ofDigitChars_zero (l := left), Nat.mul_comm]
  exact Nat.le_add_right _ _

/-! ## Doubles that can be made -/

/-- The scaled significand is a double. -/
def Scalable (significand : Nat) (exponent : Int) : Prop :=
  ∃ scaled, scaleInto 8 (Float.ofNat significand) exponent = some scaled

theorem Scalable.double (h : Scalable significand exponent) :
    ∃ n, Scan.double negative significand exponent text = .ok (n, text) := by
  obtain ⟨scaled, hscaled⟩ := h
  rw [Scan.double, hscaled]
  exact ⟨_, rfl⟩

theorem scalable_of_le {k : Nat} (hpos : 0 < significand) (hle : significand ≤ wholeLimit)
    (h : significand * 10 ^ k ≤ safeLimit) : Scalable significand k :=
  scaleInto_of_le 8 hpos hle h

theorem wholeLimit_le_safeLimit : (wholeLimit : ℚ) ≤ safeLimit := by
  have hlimit : (wholeLimit : ℚ) = 2 ^ 64 - 1 := by norm_num [wholeLimit]
  have hpower : (2 : ℚ) ^ (11 : Int) ≤ 2 ^ (970 : Int) :=
    zpow_le_zpow_right₀ (by norm_num) (by norm_num)
  rw [hlimit, safeLimit]
  calc (2 : ℚ) ^ 64 - 1
      ≤ (2 ^ 54 - 65) * 2 ^ (11 : Int) := by norm_num
    _ ≤ (2 ^ 54 - 65) * 2 ^ (970 : Int) := mul_le_mul_of_nonneg_left hpower (by norm_num)

/-- **Numbers of 64 bits are never scaled out of the range by a negative power of ten.** -/
theorem scalable_of_nonpos (hle : significand ≤ wholeLimit) (h : exponent ≤ 0) :
    Scalable significand exponent := by
  rcases h.lt_or_eq with hneg | rfl
  · exact scaleInto_of_neg 8 _ hneg
  · rcases Nat.eq_zero_or_pos significand with rfl | hpos
    · exact Option.isSome_iff_exists.1 (by decide +kernel)
    · refine scalable_of_le (k := 0) hpos hle ?_
      have hcast : (significand : ℚ) ≤ wholeLimit := by exact_mod_cast hle
      rw [pow_zero, mul_one]
      exact hcast.trans wholeLimit_le_safeLimit

/-- Digits that stand safely in the range stay there when some are left out. -/
theorem scalable_of_taken {k : Int} (taken left : List Char)
    (hpos : 0 < Nat.ofDigitChars 10 taken significand)
    (hle : Nat.ofDigitChars 10 taken significand ≤ wholeLimit)
    (h : (Nat.ofDigitChars 10 (taken ++ left) significand : ℚ) * 10 ^ k ≤ safeLimit) :
    Scalable (Nat.ofDigitChars 10 taken significand) (left.length + k) := by
  rcases le_total (left.length + k) 0 with hnonpos | hnonneg
  · exact scalable_of_nonpos hle hnonpos
  · obtain ⟨j, hj⟩ := Int.eq_ofNat_of_zero_le hnonneg
    have htaken : (Nat.ofDigitChars 10 taken significand : ℚ) * 10 ^ left.length
        ≤ Nat.ofDigitChars 10 (taken ++ left) significand := by
      exact_mod_cast taken_mul_pow_le taken left significand
    have hpower : (10 : ℚ) ^ j = 10 ^ left.length * 10 ^ k := by
      rw [← zpow_natCast, ← zpow_natCast, ← zpow_add₀ (by norm_num), hj]
    rw [hj]
    refine scalable_of_le hpos hle ?_
    calc (Nat.ofDigitChars 10 taken significand : ℚ) * 10 ^ j
        = Nat.ofDigitChars 10 taken significand * 10 ^ left.length * 10 ^ k := by
          rw [hpower, mul_assoc]
      _ ≤ Nat.ofDigitChars 10 (taken ++ left) significand * 10 ^ k := by gcongr
      _ ≤ safeLimit := h

/-! ## Fractions -/

/-- Behind a point digits are taken as far as they fit, and what follows them is read next. -/
theorem fractionPart_append (hd : AllDigits ds) (hne : ds ≠ []) (hle : significand ≤ wholeLimit)
    (hr : startsWithDigit rest = false) (negative : Bool) (start : Int) :
    ∃ taken left, ds = taken ++ left ∧ Nat.ofDigitChars 10 taken significand ≤ wholeLimit
      ∧ (rest = [] → fractionPart negative significand start (ds ++ rest)
        = Scan.double negative (Nat.ofDigitChars 10 taken significand) (start - taken.length) [])
      ∧ ∀ tail, rest = 'e' :: tail → fractionPart negative significand start (ds ++ rest)
        = exponentPart negative (Nat.ofDigitChars 10 taken significand) (start - taken.length)
          tail := by
  obtain ⟨taken, left, hds, htake⟩ :=
    takeDigits_spec hd hr significand 0
  have hfits : (takeDigits significand 0 (ds ++ rest)).1 ≤ wholeLimit := takeDigits_le hle
  rw [htake] at hfits
  rw [Nat.zero_add] at htake
  have hleft : AllDigits left := fun c hc => hd c (hds ▸ List.mem_append_right taken hc)
  have hread : ¬(taken.length = 0 ∧ startsWithDigit (left ++ rest) = false) := by
    rintro ⟨hnone, hstarts⟩
    cases left with
    | nil => exact hne (by simpa [hds] using hnone)
    | cons c left => simp [startsWithDigit, hleft c (by simp)] at hstarts
  refine ⟨taken, left, hds, hfits, ?_⟩
  rw [fractionPart, htake]
  dsimp only
  rw [if_neg hread, hleft.dropWhile_append hr]
  constructor
  · rintro rfl
    rfl
  · rintro tail rfl
    rfl

/-- **A fraction without an exponent is read.** -/
theorem fractionPart_digits (hd : AllDigits ds) (hne : ds ≠ []) (hle : significand ≤ wholeLimit)
    (hstart : start ≤ 0) :
    ∃ n, fractionPart negative significand start ds = .ok (n, []) := by
  have hend : startsWithDigit [] = false := rfl
  obtain ⟨taken, left, -, hfits, hread, -⟩ := fractionPart_append hd hne hle hend negative start
  rw [List.append_nil] at hread
  rw [hread rfl]
  exact (scalable_of_nonpos hfits (by omega)).double

/-- The text is read as a number, with either sign. -/
def Reads (text : List Char) : Prop :=
  ∀ negative, ∃ n, Scan.number negative text = .ok (n, [])

/-- **Digits with a point between them are read**, if those before the point fit. -/
theorem reads_fraction {c : Char} (hd : AllDigits (c :: ds)) (hzero : c = '0' → ds = [])
    (hfits : Nat.ofDigitChars 10 (c :: ds) 0 ≤ wholeLimit) (hf : AllDigits rest) (hne : rest ≠ []) :
    Reads (c :: ds ++ '.' :: rest) := by
  intro negative
  by_cases hc : c = '0'
  · rw [hc, hzero hc]
    exact fractionPart_digits hf hne (Nat.zero_le _) (Int.le_refl 0)
  · have hdigit : c.isDigit = true := hd c (by simp)
    have hpoint : startsWithDigit ('.' :: rest) = false := rfl
    have htake := takeDigits_of_isDigit hd hpoint hfits 0
    rw [List.cons_append] at htake ⊢
    rw [number_digit hc hdigit, htake]
    exact fractionPart_digits hf hne hfits (Int.le_refl 0)

/-! ## Exponents -/

/-- The digits of an exponent are read in full, or up to where they are beyond the limit. -/
theorem exponentDigits_spec (hd : AllDigits ds) (value : Nat) :
    exponentDigits value ds = (some (Nat.ofDigitChars 10 ds value), [])
      ∨ exponentLimit < Nat.ofDigitChars 10 ds value
        ∧ ∃ rest, exponentDigits value ds = (none, rest) ∧ AllDigits rest := by
  induction ds generalizing value with
  | nil => exact .inl rfl
  | cons c ds ih =>
    have hnext : value * 10 + Decimal.digitValue c = 10 * value + (c.toNat - '0'.toNat) := by
      rw [Decimal.digitValue, Nat.mul_comm]
    rw [exponentDigits, if_pos (hd c (by simp)), Nat.ofDigitChars_cons, ← hnext]
    dsimp only
    split
    · exact ih hd.tail _
    · rename_i hover
      have hle := le_ofDigitChars ds (value * 10 + Decimal.digitValue c)
      exact .inr ⟨by omega, ds, rfl, hd.tail⟩

/-- **A negative exponent is always read.** -/
theorem exponentPart_minus {c : Char} (hd : AllDigits (c :: ds)) (hle : significand ≤ wholeLimit)
    (hstart : start ≤ 0) :
    ∃ n, exponentPart negative significand start ('-' :: c :: ds) = .ok (n, []) := by
  have hc : c.isDigit = true := hd c (by simp)
  have hsign : exponentSign ('-' :: c :: ds) = (true, c :: ds) := rfl
  rw [exponentPart, hsign]
  dsimp only
  rw [if_pos hc]
  rcases exponentDigits_spec hd.tail (Decimal.digitValue c) with hread | ⟨-, rest, hread, hrest⟩
  · simp only [hread, if_pos]
    exact (scalable_of_nonpos hle (by omega)).double
  · have hend : startsWithDigit [] = false := rfl
    have hdrop : rest.dropWhile Char.isDigit = [] := by
      simpa using hrest.dropWhile_append hend
    simp only [hread, hdrop]
    rw [if_neg (by simp)]
    exact ⟨_, rfl⟩

/-- **A positive exponent is read** if the number that it scales is a double. -/
theorem exponentPart_plus (hle : n ≤ exponentLimit) (h : Scalable significand (start + n)) :
    ∃ m, exponentPart negative significand start ('+' :: Decimal.digits n) = .ok (m, []) := by
  obtain ⟨c, ds, hdigits, hc, -⟩ := digits_eq_cons n
  have hall : AllDigits (c :: ds) := hdigits ▸ allDigits_digits n
  have hvalue : Nat.ofDigitChars 10 ds (Decimal.digitValue c) = n := by
    have hn : Nat.ofDigitChars 10 (c :: ds) 0 = n := hdigits ▸ Nat.ofDigitChars_ten_toDigits
    rwa [Nat.ofDigitChars_cons, Nat.mul_zero, Nat.zero_add] at hn
  have hsign : exponentSign ('+' :: c :: ds) = (false, c :: ds) := rfl
  rw [hdigits, exponentPart, hsign]
  dsimp only
  rw [if_pos hc]
  rcases exponentDigits_spec hall.tail (Decimal.digitValue c) with hread | ⟨hover, -⟩
  · simp only [hread, hvalue]
    exact h.double
  · omega

/-- The sign and the digits of an exponent. -/
def exponentText (exponent : Int) : List Char :=
  (if exponent < 0 then '-' else '+') :: Decimal.digits exponent.natAbs

/-- **An exponent is read**, for a number that it scales to a double. -/
theorem exponentPart_exponentText (negative : Bool) (hle : significand ≤ wholeLimit)
    (hstart : start ≤ 0)
    (hlimit : exponent ≤ exponentLimit)
    (h : 0 ≤ exponent → Scalable significand (start + exponent)) :
    ∃ n, exponentPart negative significand start (exponentText exponent) = .ok (n, []) := by
  rw [exponentText]
  split
  · obtain ⟨c, ds, hdigits, -⟩ := digits_eq_cons exponent.natAbs
    rw [hdigits]
    exact exponentPart_minus (hdigits ▸ allDigits_digits exponent.natAbs) hle hstart
  · refine exponentPart_plus (by omega) ?_
    have habs : (exponent.natAbs : Int) = exponent := by omega
    rw [habs]
    exact h (by omega)

/-- The digits of a number with a point behind the first one, if there are more. -/
def mantissaText : List Char → List Char
  | [] => []
  | [c] => [c]
  | c :: d :: ds => c :: '.' :: d :: ds

theorem digitValue_le {c : Char} (hc : c.isDigit = true) : Decimal.digitValue c ≤ 9 := by
  obtain ⟨-, hle⟩ := Char.isDigit_iff_toNat.1 hc
  exact Nat.sub_le_sub_right hle _

theorem digitValue_pos {c : Char} (hc : c.isDigit = true) (hzero : c ≠ '0') :
    0 < Decimal.digitValue c := by
  obtain ⟨hle, -⟩ := Char.isDigit_iff_toNat.1 hc
  have hne : c.toNat ≠ '0'.toNat := fun heq => hzero (Char.toNat_inj.1 heq)
  exact Nat.sub_pos_of_lt (by omega)

/-- A number safely in the range has no large exponent. -/
theorem length_add_lt {k : Int} (hpos : 0 < significand)
    (h : (Nat.ofDigitChars 10 ds significand : ℚ) * 10 ^ k ≤ safeLimit) : ds.length + k < 309 := by
  rcases lt_or_ge (ds.length + k) 0 with hneg | hnonneg
  · omega
  · obtain ⟨j, hj⟩ := Int.eq_ofNat_of_zero_le hnonneg
    have hone : ((1 : Nat) : ℚ) ≤ significand := by exact_mod_cast hpos
    have hle : (significand : ℚ) * 10 ^ ds.length ≤ Nat.ofDigitChars 10 ds significand := by
      exact_mod_cast taken_mul_pow_le [] ds significand
    have hpower : (10 : ℚ) ^ j = 10 ^ ds.length * 10 ^ k := by
      rw [← zpow_natCast, ← zpow_natCast, ← zpow_add₀ (by norm_num), hj]
    have hlt := lt_of_mul_pow_le (n := 1) (k := j) Nat.one_pos <|
      calc ((1 : Nat) : ℚ) * 10 ^ j
          ≤ significand * 10 ^ j := by gcongr
        _ = significand * 10 ^ ds.length * 10 ^ k := by rw [hpower, mul_assoc]
        _ ≤ Nat.ofDigitChars 10 ds significand * 10 ^ k := by gcongr
        _ ≤ safeLimit := h
    omega

/-- **A mantissa with an exponent is read** if it stands for a number safely in the range. -/
theorem reads_exponent {c : Char} (hd : AllDigits (c :: ds)) (hzero : c ≠ '0') {k : Int}
    (h : (Nat.ofDigitChars 10 (c :: ds) 0 : ℚ) * 10 ^ k ≤ safeLimit) :
    Reads (mantissaText (c :: ds) ++ 'e' :: exponentText (ds.length + k)) := by
  intro negative
  have hc : c.isDigit = true := hd c (by simp)
  have hone : AllDigits [c] := by
    intro d hmem
    rw [List.mem_singleton.1 hmem]
    exact hc
  have hfirst : Nat.ofDigitChars 10 [c] 0 = Decimal.digitValue c := by
    rw [Nat.ofDigitChars_cons, Nat.mul_zero, Nat.zero_add, Nat.ofDigitChars_nil, Decimal.digitValue]
  have hvalue : Nat.ofDigitChars 10 (c :: ds) 0
      = Nat.ofDigitChars 10 ds (Decimal.digitValue c) := by
    rw [← hfirst, ← Nat.ofDigitChars_append, List.singleton_append]
  have hpos := digitValue_pos hc hzero
  have hsmall : Decimal.digitValue c ≤ wholeLimit := (digitValue_le hc).trans (by decide)
  have hlimit : ds.length + k ≤ exponentLimit :=
    (length_add_lt hpos (hvalue ▸ h)).le.trans (by decide)
  rw [hvalue] at h
  cases ds with
  | nil =>
    have hend : startsWithDigit ('e' :: exponentText (([] : List Char).length + k)) = false := rfl
    have htake := takeDigits_of_isDigit hone hend (hfirst ▸ hsmall) 0
    have hscalable : Scalable (Decimal.digitValue c) (0 + (([] : List Char).length + k)) := by
      rw [Int.zero_add]
      exact scalable_of_taken [] [] hpos hsmall h
    rw [hfirst] at htake
    rw [mantissaText, List.singleton_append, number_digit hzero hc, ← List.singleton_append, htake]
    exact exponentPart_exponentText negative hsmall (Int.le_refl 0) hlimit fun _ => hscalable
  | cons d ds =>
    have hmore : AllDigits (d :: ds) := hd.tail
    have hpoint : startsWithDigit
        ('.' :: (d :: ds ++ 'e' :: exponentText ((d :: ds).length + k))) = false := rfl
    have hend : startsWithDigit ('e' :: exponentText ((d :: ds).length + k)) = false := rfl
    have htake := takeDigits_of_isDigit hone hpoint (hfirst ▸ hsmall) 0
    rw [hfirst] at htake
    have htext : mantissaText (c :: d :: ds) ++ 'e' :: exponentText ((d :: ds).length + k)
        = [c] ++ '.' :: (d :: ds ++ 'e' :: exponentText ((d :: ds).length + k)) := rfl
    rw [htext, List.singleton_append, number_digit hzero hc, ← List.singleton_append, htake]
    obtain ⟨taken, left, hds, hfits, -, hread⟩ :=
      fractionPart_append hmore (by simp) hsmall hend negative 0
    have hpos' : 0 < Nat.ofDigitChars 10 taken (Decimal.digitValue c) :=
      hpos.trans_le (le_ofDigitChars taken _)
    have hlength : (d :: ds).length = taken.length + left.length := by rw [hds, List.length_append]
    have hexponent : 0 - (taken.length : Int) + ((d :: ds).length + k) = left.length + k := by omega
    have hscalable : Scalable (Nat.ofDigitChars 10 taken (Decimal.digitValue c))
        (0 - (taken.length : Int) + ((d :: ds).length + k)) := by
      rw [hexponent]
      exact scalable_of_taken taken left hpos' hfits (hds ▸ h)
    obtain ⟨n, hn⟩ := exponentPart_exponentText negative hfits (by omega) hlimit fun _ => hscalable
    exact ⟨n, (hread _ rfl).trans hn⟩

/-! ## Decimals -/

/-- A run of digits is below the power of ten that has one digit more. -/
theorem ofDigitChars_lt (hd : AllDigits ds) (n : Nat) :
    Nat.ofDigitChars 10 ds n < (n + 1) * 10 ^ ds.length := by
  induction ds generalizing n with
  | nil => simp
  | cons c ds ih =>
    have hdigit : c.toNat - '0'.toNat ≤ 9 := digitValue_le (hd c (by simp))
    rw [Nat.ofDigitChars_cons, List.length_cons, Nat.pow_succ', ← Nat.mul_assoc]
    refine (ih hd.tail _).trans_le (Nat.mul_le_mul_right _ ?_)
    omega

/-- Sixteen digits fit. -/
theorem ofDigitChars_le_wholeLimit (hd : AllDigits ds) (h : ds.length ≤ 16) :
    Nat.ofDigitChars 10 ds 0 ≤ wholeLimit := by
  have hlt := ofDigitChars_lt hd 0
  have hpower : 10 ^ ds.length ≤ 10 ^ 16 := Nat.pow_le_pow_right (by decide) h
  have hlimit : 10 ^ 16 ≤ wholeLimit := by decide
  omega

/-- The text of the decimal `n · 10 ^ k`. -/
def decimalText (n : Nat) (k : Int) : String :=
  let ds := Decimal.digits n
  let point : Int := ds.length + k
  if 0 ≤ k ∧ point ≤ 16 then
    String.ofList (ds ++ List.replicate k.toNat '0') ++ ".0"
  else if 0 < point ∧ point ≤ 16 then
    String.ofList (ds.take point.toNat) ++ "." ++ String.ofList (ds.drop point.toNat)
  else if -5 < point ∧ point ≤ 0 then
    "0." ++ String.ofList (List.replicate (-point).toNat '0' ++ ds)
  else
    let exponent := point - 1
    let sign := if exponent < 0 then "-" else "+"
    let mantissa :=
      match ds with
      | [] => ""
      | [d] => String.ofList [d]
      | d :: rest => String.ofList (d :: '.' :: rest)
    mantissa ++ "e" ++ sign ++ Decimal.ofNat exponent.natAbs

theorem magnitudeText_eq (value : Float) :
    magnitudeText value = if value == 0 then "0.0"
      else decimalText (Shortest.decimal value).1 (Shortest.decimal value).2 := rfl

theorem toList_fraction (whole fraction : List Char) :
    (String.ofList whole ++ "." ++ String.ofList fraction).toList = whole ++ '.' :: fraction := by
  simp

theorem toList_zero (fraction : List Char) :
    ("0." ++ String.ofList fraction).toList = ['0'] ++ '.' :: fraction := by simp

theorem toList_exponent (ds : List Char) (exponent : Int) :
    ((match ds with
      | [] => ""
      | [d] => String.ofList [d]
      | d :: rest => String.ofList (d :: '.' :: rest)) ++ "e"
        ++ (if exponent < 0 then "-" else "+") ++ Decimal.ofNat exponent.natAbs).toList
      = mantissaText ds ++ 'e' :: exponentText exponent := by
  rw [exponentText, Decimal.ofNat]
  by_cases hneg : exponent < 0 <;> rcases ds with _ | ⟨c, _ | ⟨d, ds⟩⟩ <;>
    simp [mantissaText, hneg]

/-- The text of the double zero. -/
theorem reads_zero : Reads ['0', '.', '0'] :=
  reads_fraction (fun _ hc => List.mem_singleton.1 hc ▸ rfl) (fun _ => rfl) (by decide)
    (fun _ hc => List.mem_singleton.1 hc ▸ rfl) (by simp)

/-- **The text of a decimal safely in the range is read.** -/
theorem reads_decimalText {k : Int} (hzero : n = 0 → k = 0) (h : (n : ℚ) * 10 ^ k ≤ safeLimit) :
    Reads (decimalText n k).toList := by
  rcases Nat.eq_zero_or_pos n with rfl | hpos
  · rw [hzero rfl]
    exact reads_zero
  · obtain ⟨c, ds, hdigits, hc, hne⟩ := digits_eq_cons n
    have hall : AllDigits (c :: ds) := hdigits ▸ allDigits_digits n
    have hfirst : c = '0' → ds = [] := fun he => absurd he (hne hpos)
    rw [decimalText, hdigits]
    dsimp only
    split
    · rename_i hwhole
      have hdigits' : AllDigits (c :: (ds ++ List.replicate k.toNat '0')) :=
        hall.append (allDigits_zeros _)
      have hlength : (c :: (ds ++ List.replicate k.toNat '0')).length ≤ 16 := by
        simp only [List.length_cons, List.length_append, List.length_replicate] at hwhole ⊢
        omega
      rw [String.toList_append, String.toList_ofList]
      exact reads_fraction hdigits' (fun he => absurd he (hne hpos))
        (ofDigitChars_le_wholeLimit hdigits' hlength) (fun _ hc => List.mem_singleton.1 hc ▸ rfl)
        (by simp)
    · split
      · rename_i hnot hinside
        obtain ⟨p, hp⟩ : ∃ p, ((c :: ds).length + k).toNat = p + 1 :=
          ⟨_, (Nat.succ_pred_eq_of_pos (by omega)).symm⟩
        have hshort : p < ds.length := by
          rw [List.length_cons] at hnot hinside hp
          omega
        have htaken : AllDigits (c :: ds.take p) := fun d hd =>
          hall d (List.mem_of_mem_take (i := p + 1) hd)
        have hlength : (c :: ds.take p).length ≤ 16 := by
          rw [List.length_cons, List.length_take]
          omega
        have hbehind : AllDigits (ds.drop p) := fun d hd => hall.tail d (List.mem_of_mem_drop hd)
        rw [hp, toList_fraction]
        refine reads_fraction htaken (fun he => absurd he (hne hpos))
          (ofDigitChars_le_wholeLimit htaken hlength) hbehind fun hnil => ?_
        have := congrArg List.length hnil
        simp at this
        omega
      · split
        · rw [toList_zero]
          exact reads_fraction (fun _ hc => List.mem_singleton.1 hc ▸ rfl) (fun _ => rfl)
            (by decide) ((allDigits_zeros _).append hall) (by simp)
        · have hvalue : Nat.ofDigitChars 10 (c :: ds) 0 = n := by
            rw [← hdigits]
            exact Nat.ofDigitChars_ten_toDigits
          have hexponent : ((c :: ds).length : Int) + k - 1 = ds.length + k := by
            rw [List.length_cons]
            omega
          rw [hexponent, toList_exponent]
          exact reads_exponent hall (hne hpos) (hvalue.symm ▸ h)

end Phrasebook.Json
