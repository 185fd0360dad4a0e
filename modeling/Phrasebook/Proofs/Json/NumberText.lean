import Mathlib.Algebra.Group.Int.Defs
import Phrasebook.Proofs.Json.Numbers

/-!
# Proofs/Json/NumberText — which written numbers read back

The text of a number is scanned as some number, not always the same one: the digits of a double are
read with two roundings where one would do.  `Number.Rereads` is the relation between a number and
what its text is read as.  A whole number of 64 bits reads back as itself; and that a text holds a
number when it is read on its own is enough for it to be read so inside of a larger text.
-/

namespace Phrasebook.Json

open Scan

/-- A number with its sign. -/
def Scan.signed : List Char → Scanned Number
  | '-' :: rest => Scan.number true rest
  | text => Scan.number false text

/-- The text of the first number is scanned as the second one. -/
def Number.Rereads (n m : Number) : Prop := signed n.text.toList = .ok (m, [])

/-! ## Digits -/

theorem isDigit_of_mem_digits {c : Char} {n : Nat} (h : c ∈ Decimal.digits n) : c.isDigit = true :=
  Nat.isDigit_of_mem_toDigits (by decide) (by decide) h

/-- The digits of a number start with a zero for zero only. -/
theorem digits_eq_cons (n : Nat) :
    ∃ c tail, Decimal.digits n = c :: tail ∧ c.isDigit = true ∧ (0 < n → c ≠ '0') := by
  induction n using Nat.strongRecOn with
  | _ n ih =>
    by_cases hn : n < 10
    · refine ⟨n.digitChar, [], Nat.toDigits_of_lt_base hn, ?_, fun hpos => ?_⟩
      · simp [Nat.isDigit_digitChar, hn]
      · rw [Ne, Nat.digitChar_eq_zero]
        omega
    · obtain ⟨c, tail, hc, hd, hne⟩ := ih (n / 10) (by omega)
      refine ⟨c, tail ++ [(n % 10).digitChar], ?_, hd, fun _ => hne (by omega)⟩
      rw [Decimal.digits, Nat.toDigits_of_base_le (by decide) (by omega)]
      exact congrArg (· ++ _) hc

/-- The value of a run of digits is at least what stands before it. -/
theorem le_ofDigitChars (ds : List Char) (n : Nat) : n ≤ Nat.ofDigitChars 10 ds n := by
  induction ds generalizing n with
  | nil => simp
  | cons c ds ih =>
    rw [Nat.ofDigitChars_cons]
    exact Nat.le_trans (by omega) (ih _)

/-- Digits are taken one by one while their value fits. -/
theorem takeDigits_of_isDigit {ds rest : List Char} (hd : ∀ c ∈ ds, c.isDigit = true)
    (hr : startsWithDigit rest = false) {significand : Nat}
    (hle : Nat.ofDigitChars 10 ds significand ≤ wholeLimit) (count : Nat) :
    takeDigits significand count (ds ++ rest)
      = (Nat.ofDigitChars 10 ds significand, count + ds.length, rest) := by
  induction ds generalizing significand count with
  | nil =>
    cases rest with
    | nil => simp [takeDigits]
    | cons c rest =>
      have hc : c.isDigit = false := hr
      simp [takeDigits, hc]
  | cons c ds ih =>
    have hnext : significand * 10 + Decimal.digitValue c
        = 10 * significand + (c.toNat - '0'.toNat) := by
      rw [Decimal.digitValue, Nat.mul_comm]
    rw [Nat.ofDigitChars_cons, ← hnext] at hle ⊢
    have hfits : significand * 10 + Decimal.digitValue c ≤ wholeLimit :=
      Nat.le_trans (le_ofDigitChars ds _) hle
    rw [List.cons_append, takeDigits, if_pos ⟨hd c (by simp), hfits⟩,
      ih (fun c hc => hd c (by simp [hc])) hle (count + 1), List.length_cons]
    congr 2
    omega

/-- **A whole number that fits in 64 bits is read in full.** -/
theorem number_digits {n : Nat} (h : n ≤ wholeLimit) (negative : Bool) :
    Scan.number negative (Decimal.digits n) = .ok (wholeNumber negative n, []) := by
  obtain ⟨c, tail, hds, hc, hzero⟩ := digits_eq_cons n
  rcases Nat.eq_zero_or_pos n with rfl | hpos
  · rfl
  · have hvalue : Nat.ofDigitChars 10 (c :: tail) 0 = n := by
      rw [← hds]
      exact Nat.ofDigitChars_ten_toDigits
    have hall : ∀ d ∈ c :: tail, d.isDigit = true := fun d hd => isDigit_of_mem_digits (hds ▸ hd)
    have hend : startsWithDigit [] = false := rfl
    have htake := takeDigits_of_isDigit hall hend (hvalue ▸ h) 0
    rw [List.append_nil, hvalue] at htake
    rw [hds, number_digit (hzero hpos) hc, htake]
    simp [numberTail]

/-! ## Whole numbers -/

/-- The numbers that a text can hold: whole ones have 64 bits. -/
def Number.InRange : Number → Prop
  | .whole value => -(2 ^ 63) ≤ value ∧ value ≤ 2 ^ 64 - 1
  | .double _ => True

/-- **A whole number of 64 bits reads back as itself.** -/
theorem rereads_whole {value : Int} (h : (Number.whole value).InRange) :
    (Number.whole value).Rereads (.whole value) := by
  cases value with
  | ofNat n =>
    obtain ⟨c, tail, hds, hc, -⟩ := digits_eq_cons n
    have hminus : c ≠ '-' := by
      intro he
      rw [he] at hc
      cases hc
    have hfits : n ≤ wholeLimit := by
      have hle : (Int.ofNat n : Int) ≤ 2 ^ 64 - 1 := h.2
      have hlimit : wholeLimit = 2 ^ 64 - 1 := rfl
      rw [Int.ofNat_eq_natCast] at hle
      omega
    have htext : (Number.whole (.ofNat n)).text.toList = Decimal.digits n := String.toList_ofList
    have hsigned : signed (Decimal.digits n) = Scan.number false (Decimal.digits n) := by
      rw [hds]
      simp [signed, hminus]
    rw [Number.Rereads, htext, hsigned, number_digits hfits]
    rfl
  | negSucc n =>
    have hfits : n + 1 ≤ Nat.pow 2 63 := by
      have hle : -(2 ^ 63) ≤ Int.negSucc n := h.1
      have hpow : Nat.pow 2 63 = 2 ^ 63 := rfl
      rw [Int.negSucc_eq] at hle
      omega
    have hlimit : n + 1 ≤ wholeLimit := Nat.le_trans hfits (by decide)
    have htext : (Number.whole (.negSucc n)).text.toList = '-' :: Decimal.digits (n + 1) := by
      simp [Number.text, Decimal.ofInt, Decimal.ofNat]
    rw [Number.Rereads, htext, signed, number_digits hlimit, wholeNumber, if_neg (by decide),
      if_pos ⟨by omega, hfits⟩]
    rfl

/-! ## The shape of the text -/

/-- No character of the text is a blank. -/
def Solid (text : List Char) : Prop := ∀ c ∈ text, isBlank c = false

theorem solid_nil : Solid [] := fun _ h => by cases h

theorem solid_cons {c : Char} {text : List Char} (hc : isBlank c = false) (h : Solid text) :
    Solid (c :: text) := fun d hd => (List.mem_cons.1 hd).elim (fun he => he ▸ hc) (h d)

theorem solid_append {text more : List Char} (h : Solid text) (hm : Solid more) :
    Solid (text ++ more) := fun c hc => (List.mem_append.1 hc).elim (h c) (hm c)

theorem solid_replicate (n : Nat) {c : Char} (hc : isBlank c = false) :
    Solid (List.replicate n c) := fun _ hd => List.eq_of_mem_replicate hd ▸ hc

theorem isBlank_of_isDigit {c : Char} (h : c.isDigit = true) : isBlank c = false := by
  have hne : ∀ d : Char, d.isDigit = false → c ≠ d := by
    intro d hd he
    rw [he, hd] at h
    cases h
  simp [isBlank, hne ' ' rfl, hne '\n' rfl, hne '\t' rfl, hne '\r' rfl]

theorem solid_digits (n : Nat) : Solid (Decimal.digits n) := fun _ hc =>
  isBlank_of_isDigit (isDigit_of_mem_digits hc)

/-- The texts of numbers without their sign: they start with a digit and hold no blanks. -/
structure IsUnsigned (text : List Char) : Prop where
  starts : startsWithDigit text = true
  solid : Solid text

theorem isUnsigned_digits (n : Nat) : IsUnsigned (Decimal.digits n) where
  starts := by
    obtain ⟨c, tail, hds, hc, -⟩ := digits_eq_cons n
    rw [hds]
    exact hc
  solid := solid_digits n

/-- The text of a double without its sign. -/
theorem isUnsigned_magnitudeText (value : Float) : IsUnsigned (magnitudeText value).toList := by
  rw [magnitudeText]
  split
  · exact ⟨rfl, solid_cons rfl (solid_cons rfl (solid_cons rfl solid_nil))⟩
  · dsimp only
    have hsolid := solid_digits (Shortest.decimal value).1
    obtain ⟨c, tail, hds, hc, -⟩ := digits_eq_cons (Shortest.decimal value).1
    have hpower (n : Int) : Solid ((if n < 0 then "-" else "+").toList ++
        (Decimal.ofNat n.natAbs).toList) := by
      refine solid_append ?_ ?_
      · split <;> exact solid_cons rfl solid_nil
      · rw [Decimal.ofNat, String.toList_ofList]
        exact solid_digits _
    rw [hds] at hsolid
    simp only [hds]
    split
    · refine ⟨by simpa [startsWithDigit] using hc, ?_⟩
      simp only [String.toList_append, String.toList_ofList]
      exact solid_append (solid_append hsolid (solid_replicate _ rfl))
        (solid_cons rfl (solid_cons rfl solid_nil))
    · split
      · rename_i hpoint
        obtain ⟨p, hp⟩ : ∃ p, ((c :: tail).length + (Shortest.decimal value).2).toNat = p + 1 :=
          ⟨_, (Nat.succ_pred_eq_of_pos (by omega)).symm⟩
        rw [hp]
        refine ⟨by simpa [startsWithDigit] using hc, ?_⟩
        simp only [String.toList_append, String.toList_ofList]
        refine solid_append (solid_append (fun d hd => hsolid d (List.mem_of_mem_take hd))
          (solid_cons rfl solid_nil)) fun d hd => hsolid d (List.mem_of_mem_drop hd)
      · split
        · refine ⟨by simp [startsWithDigit], ?_⟩
          simp only [String.toList_append, String.toList_ofList]
          exact solid_append (solid_cons rfl (solid_cons rfl solid_nil))
            (solid_append (solid_replicate _ rfl) hsolid)
        · cases tail with
          | nil =>
            refine ⟨by simpa [startsWithDigit] using hc, ?_⟩
            simp only [String.toList_append, String.toList_ofList, List.append_assoc]
            exact solid_append hsolid (solid_append (solid_cons rfl solid_nil) (hpower _))
          | cons d tail =>
            have hmore : Solid (d :: tail) := fun e he => hsolid e (List.mem_cons_of_mem c he)
            refine ⟨by simpa [startsWithDigit] using hc, ?_⟩
            simp only [String.toList_append, String.toList_ofList, List.append_assoc]
            exact solid_append
              (solid_cons (hsolid c (by simp)) (solid_cons rfl hmore))
              (solid_append (solid_cons rfl solid_nil) (hpower _))

/-- The text of a number: a minus sign or not, and then a text that starts with a digit. -/
theorem text_cases (n : Number) :
    ∃ body, IsUnsigned body ∧ (n.text.toList = body ∨ n.text.toList = '-' :: body) := by
  cases n with
  | whole value =>
    cases value with
    | ofNat n => exact ⟨_, isUnsigned_digits n, .inl String.toList_ofList⟩
    | negSucc n =>
      refine ⟨_, isUnsigned_digits (n + 1), .inr ?_⟩
      simp [Number.text, Decimal.ofInt, Decimal.ofNat]
  | double value =>
    refine ⟨_, isUnsigned_magnitudeText value, ?_⟩
    rw [Number.text, doubleText]
    split
    · exact .inr (by simp)
    · exact .inl rfl

/-! ## A number as a value -/

theorem skipBlanks_cons {c : Char} (h : isBlank c = false) (tail : List Char) :
    skipBlanks (c :: tail) = c :: tail := by simp [skipBlanks, h]

/-- **A number where a value is expected.** -/
theorem value_number {n : Number} (rest : List Char) (fuel depth : Nat) :
    Scan.value (fuel + 1) depth (n.text.toList ++ rest)
      = (signed (n.text.toList ++ rest)).change .number := by
  obtain ⟨body, hbody, htext⟩ := text_cases n
  cases body with
  | nil => cases hbody.starts
  | cons c tail =>
    rcases htext with htext | htext
    · have hc : c.isDigit = true := hbody.starts
      rw [htext, List.cons_append, Scan.value, skipBlanks_cons (isBlank_of_isDigit hc)]
      have hne : ∀ d : Char, d.isDigit = false → c ≠ d := by
        intro d hd he
        rw [he, hd] at hc
        cases hc
      simp [signed, hne 'n' rfl, hne 't' rfl, hne 'f' rfl, hne '-' rfl, hne '"' rfl, hne '[' rfl,
        hne '\x7b' rfl, hc]
    · rw [htext, List.cons_append, Scan.value, skipBlanks_cons (by decide)]
      rfl

theorem signed_extends {text rest : List Char} (h : EndsNumber rest) :
    Extends text rest (signed text) (signed (text ++ rest)) := by
  cases text with
  | nil => exact .error
  | cons c text =>
    by_cases hminus : c = '-'
    · subst hminus
      exact (number_extends h).of_suffix (List.suffix_cons _ _)
    · refine (number_extends h).of_eq (b := Scan.number false (c :: text)) ?_ ?_
      · simp [signed, hminus]
      · simp [signed, hminus]

/-- **What a number reads as on its own, it reads as in front of anything that closes it.** -/
theorem value_of_rereads {n m : Number} (h : n.Rereads m) {rest : List Char} (hr : EndsNumber rest)
    (fuel depth : Nat) :
    Scan.value (fuel + 1) depth (n.text.toList ++ rest) = .ok (.number m, rest) := by
  have hsigned : signed (n.text.toList ++ rest) = .ok (m, rest) := by
    obtain ⟨-, happend⟩ := signed_extends hr _ _ h
    exact happend
  rw [value_number, hsigned]
  rfl

/-- The text of a number holds no blanks. -/
theorem isBlank_of_mem_text {n : Number} {c : Char} (h : c ∈ n.text.toList) :
    isBlank c = false := by
  obtain ⟨body, hbody, htext | htext⟩ := text_cases n
  · exact hbody.solid c (htext ▸ h)
  · rcases List.mem_cons.1 (htext ▸ h) with rfl | hmem
    · rfl
    · exact hbody.solid c hmem

/-- **A number whose text parses as a number reads back as that number.** -/
theorem rereads_of_parse {n m : Number} (h : parse n.text = .ok (.number m)) : n.Rereads m := by
  have hnil : EndsNumber [] := fun c tail he => by cases he
  have hvalue := value_number (n := n) [] (4 * n.text.toList.length + 3) depthLimit
  rw [List.append_nil] at hvalue
  rw [Number.Rereads]
  simp only [parse, hvalue] at h
  cases hs : signed n.text.toList with
  | error fault => simp [hs, Scanned.change, Scanned.andThen, finish] at h
  | ok scanned =>
    obtain ⟨read, left⟩ := scanned
    obtain ⟨hsuffix, -⟩ := signed_extends hnil _ _ hs
    -- a character left over is no blank, so it would be a trailing one
    cases left with
    | nil => simpa [hs, Scanned.change, Scanned.andThen, finish, skipBlanks] using h
    | cons c left =>
      have hc : isBlank c = false := isBlank_of_mem_text (hsuffix.subset (by simp))
      simp [hs, Scanned.change, Scanned.andThen, finish, skipBlanks_cons hc] at h

end Phrasebook.Json
