import Phrasebook.Json.Scan
import Phrasebook.Json.Reader

/-!
# Proofs/Json/Numbers — a number is read the same whatever closes it

The scanner of numbers looks at the text behind a number only to see that the number is over.  So a
number that reads back on its own reads back in front of a comma or a line break too.
-/

namespace Phrasebook.Json

namespace Scan

variable {α : Type} {text rest tail : List Char}

/-- No character goes on with a number here. -/
def EndsNumber (rest : List Char) : Prop :=
  ∀ c tail, rest = c :: tail → c.isDigit = false ∧ c ≠ '.' ∧ c ≠ 'e' ∧ c ≠ 'E'

/-- What the first scan reads of a text, the second one reads of the text with `rest` behind it. -/
def Extends (text rest : List Char) (short long : Scanned α) : Prop :=
  ∀ result left, short = .ok (result, left) → left <:+ text ∧ long = .ok (result, left ++ rest)

theorem Extends.error {fault : Fault} {long : Scanned α} :
    Extends text rest (.error fault) long := fun _ _ h => by cases h

theorem Extends.ok {result : α} (h : tail <:+ text) :
    Extends text rest (.ok (result, tail)) (.ok (result, tail ++ rest)) := by
  intro _ _ he
  cases he
  exact ⟨h, rfl⟩

theorem Extends.of_suffix {short long : Scanned α} (h : Extends tail rest short long)
    (hs : tail <:+ text) : Extends text rest short long := fun result left he =>
  ⟨(h result left he).1.trans hs, (h result left he).2⟩

theorem Extends.of_eq {a b c d : Scanned α} (h : Extends text rest b d) (hab : a = b)
    (hcd : c = d) : Extends text rest a c := by rwa [hab, hcd]

/-! ## Runs of digits -/

theorem EndsNumber.startsWithDigit (h : EndsNumber rest) : startsWithDigit rest = false := by
  cases rest with
  | nil => rfl
  | cons c tail => exact (h c tail rfl).1

theorem startsWithDigit_append (h : EndsNumber rest) :
    startsWithDigit (text ++ rest) = startsWithDigit text := by
  cases text with
  | nil => exact h.startsWithDigit
  | cons c text => rfl

theorem dropWhile_isDigit (h : startsWithDigit rest = false) :
    rest.dropWhile Char.isDigit = rest := by
  cases rest with
  | nil => rfl
  | cons c tail => exact List.dropWhile_cons_of_neg (by simpa [startsWithDigit] using h)

theorem dropWhile_isDigit_append (h : startsWithDigit rest = false) :
    (text ++ rest).dropWhile Char.isDigit = text.dropWhile Char.isDigit ++ rest := by
  induction text with
  | nil => exact dropWhile_isDigit h
  | cons c text ih => by_cases hc : c.isDigit <;> simp [hc, ih]

theorem takeWhile_isDigit_append (h : EndsNumber rest) :
    (text ++ rest).takeWhile Char.isDigit = text.takeWhile Char.isDigit := by
  induction text with
  | nil =>
    cases rest with
    | nil => rfl
    | cons c tail => simp [(h c tail rfl).1]
  | cons c text ih => by_cases hc : c.isDigit <;> simp [hc, ih]

theorem takeDigits_suffix {significand count : Nat} :
    (takeDigits significand count text).2.2 <:+ text := by
  induction text generalizing significand count with
  | nil => exact List.suffix_refl _
  | cons c text ih =>
    rw [takeDigits]
    split
    · exact ih.trans (List.suffix_cons c text)
    · exact List.suffix_refl _

theorem takeDigits_append (h : EndsNumber rest) {significand count : Nat} :
    takeDigits significand count (text ++ rest)
      = ((takeDigits significand count text).1, (takeDigits significand count text).2.1,
          (takeDigits significand count text).2.2 ++ rest) := by
  induction text generalizing significand count with
  | nil =>
    cases rest with
    | nil => rfl
    | cons c tail => simp [takeDigits, (h c tail rfl).1]
  | cons c text ih =>
    rw [List.cons_append, takeDigits, takeDigits]
    split
    · exact ih
    · rfl

theorem exponentDigits_suffix {exponent : Nat} : (exponentDigits exponent text).2 <:+ text := by
  induction text generalizing exponent with
  | nil => exact List.suffix_refl _
  | cons c text ih =>
    simp only [exponentDigits]
    split
    · split
      · exact ih.trans (List.suffix_cons c text)
      · exact List.suffix_cons c text
    · exact List.suffix_refl _

theorem exponentDigits_append (h : EndsNumber rest) {exponent : Nat} :
    exponentDigits exponent (text ++ rest)
      = ((exponentDigits exponent text).1, (exponentDigits exponent text).2 ++ rest) := by
  induction text generalizing exponent with
  | nil =>
    cases rest with
    | nil => rfl
    | cons c tail => simp [exponentDigits, (h c tail rfl).1]
  | cons c text ih =>
    simp only [List.cons_append, exponentDigits]
    split
    · split
      · exact ih
      · rfl
    · rfl

/-! ## The parts of a number -/

theorem double_extends {negative : Bool} {significand : Nat} {exponent : Int} :
    Extends text rest (double negative significand exponent text)
      (double negative significand exponent (text ++ rest)) := by
  rw [double, double]
  split
  · exact .ok (List.suffix_refl _)
  · exact .error

theorem exponentSign_suffix : (exponentSign text).2 <:+ text := by
  rw [exponentSign.eq_def]
  split
  · exact List.suffix_cons _ _
  · exact List.suffix_cons _ _
  · exact List.suffix_refl _

theorem exponentSign_append {c : Char} :
    exponentSign (c :: text ++ rest)
      = ((exponentSign (c :: text)).1, (exponentSign (c :: text)).2 ++ rest) := by
  by_cases hplus : c = '+'
  · subst hplus
    rfl
  by_cases hminus : c = '-'
  · subst hminus
    rfl
  simp [exponentSign, hplus, hminus]

theorem exponentPart_extends (h : EndsNumber rest) {negative : Bool} {significand : Nat}
    {start : Int} :
    Extends text rest (exponentPart negative significand start text)
      (exponentPart negative significand start (text ++ rest)) := by
  cases text with
  | nil => exact .error
  | cons c text =>
    have hsuffix : (exponentSign (c :: text)).2 <:+ c :: text := exponentSign_suffix
    simp only [exponentPart, exponentSign_append]
    cases hs : (exponentSign (c :: text)).2 with
    | nil => exact .error
    | cons d digits =>
      rw [hs] at hsuffix
      simp only [List.cons_append, exponentDigits_append h]
      split
      · have hd : (exponentDigits (Decimal.digitValue d) digits).2 <:+ c :: text :=
          exponentDigits_suffix.trans ((List.suffix_cons d digits).trans hsuffix)
        cases he : exponentDigits (Decimal.digitValue d) digits with
        | mk exponent behind =>
          rw [he] at hd
          cases exponent with
          | some exponent => exact double_extends.of_suffix hd
          | none =>
            dsimp only
            split
            · exact .error
            · rw [dropWhile_isDigit_append h.startsWithDigit]
              exact .ok ((List.dropWhile_suffix _).trans hd)
      · exact .error

/-- Behind the digits of a fraction stand an exponent or the end. -/
theorem fractionPart_extends (h : EndsNumber rest) {negative : Bool} {significand : Nat}
    {start : Int} :
    Extends text rest (fractionPart negative significand start text)
      (fractionPart negative significand start (text ++ rest)) := by
  have hs : (takeDigits significand 0 text).2.2 <:+ text := takeDigits_suffix
  simp only [fractionPart, takeDigits_append h, startsWithDigit_append h]
  split
  · split
    · exact .error
    · exact .error
  · have hd : (takeDigits significand 0 text).2.2.dropWhile Char.isDigit <:+ text :=
      (List.dropWhile_suffix _).trans hs
    rw [dropWhile_isDigit_append h.startsWithDigit]
    cases hm : (takeDigits significand 0 text).2.2.dropWhile Char.isDigit with
    | nil =>
      refine double_extends.of_suffix (List.nil_suffix) |>.of_eq rfl ?_
      cases rest with
      | nil => rfl
      | cons c tail =>
        obtain ⟨-, -, he, hE⟩ := h c tail rfl
        simp [he, hE]
    | cons c behind =>
      rw [hm] at hd
      by_cases he : c = 'e'
      · subst he
        exact (exponentPart_extends h).of_suffix ((List.suffix_cons _ _).trans hd)
      by_cases hE : c = 'E'
      · subst hE
        exact (exponentPart_extends h).of_suffix ((List.suffix_cons _ _).trans hd)
      have hdouble : Extends text rest
          (double negative (takeDigits significand 0 text).1
            (start - (takeDigits significand 0 text).2.1) (c :: behind))
          (double negative (takeDigits significand 0 text).1
            (start - (takeDigits significand 0 text).2.1) (c :: behind ++ rest)) :=
        double_extends.of_suffix hd
      refine hdouble.of_eq ?_ ?_
      · simp [he, hE]
      · simp [he, hE]

theorem numberTail_extends (h : EndsNumber rest) {negative : Bool} {significand skipped : Nat} :
    Extends text rest (numberTail negative significand skipped text)
      (numberTail negative significand skipped (text ++ rest)) := by
  have hplain : Extends text rest
      (if skipped = 0 then .ok (wholeNumber negative significand, text)
        else double negative significand skipped text)
      (if skipped = 0 then .ok (wholeNumber negative significand, text ++ rest)
        else double negative significand skipped (text ++ rest)) := by
    split
    · exact .ok (List.suffix_refl _)
    · exact double_extends
  cases text with
  | nil =>
    refine hplain.of_eq rfl ?_
    cases rest with
    | nil => rfl
    | cons c tail =>
      obtain ⟨-, hpoint, he, hE⟩ := h c tail rfl
      simp [numberTail, hpoint, he, hE]
  | cons c text =>
    by_cases hpoint : c = '.'
    · subst hpoint
      exact (fractionPart_extends h).of_suffix (List.suffix_cons _ _)
    by_cases he : c = 'e'
    · subst he
      exact (exponentPart_extends h).of_suffix (List.suffix_cons _ _)
    by_cases hE : c = 'E'
    · subst hE
      exact (exponentPart_extends h).of_suffix (List.suffix_cons _ _)
    refine hplain.of_eq ?_ ?_
    · simp [numberTail, hpoint, he, hE]
    · simp [numberTail, hpoint, he, hE]

/-- A number that starts with a digit other than zero. -/
theorem number_digit {c : Char} (hzero : c ≠ '0') (hc : c.isDigit = true) {negative : Bool} :
    number negative (c :: text)
      = numberTail negative (takeDigits 0 0 (c :: text)).1
          ((takeDigits 0 0 (c :: text)).2.2.takeWhile Char.isDigit).length
          ((takeDigits 0 0 (c :: text)).2.2.dropWhile Char.isDigit) := by
  simp [number, hc]

/-- A number starts with a digit. -/
theorem number_other {c : Char} (hc : c.isDigit = false) {negative : Bool} :
    number negative (c :: text) = .error (faultAfter .invalidNumber (c :: text)) := by
  have hzero : c ≠ '0' := by
    intro he
    rw [he] at hc
    cases hc
  simp [number, hc]

/-- **A number is read the same whatever closes it.** -/
theorem number_extends (h : EndsNumber rest) {negative : Bool} :
    Extends text rest (number negative text) (number negative (text ++ rest)) := by
  cases text with
  | nil => exact .error
  | cons c text =>
    by_cases hzero : c = '0'
    · subst hzero
      simp only [List.cons_append, number, startsWithDigit_append h]
      split
      · exact .error
      · exact (numberTail_extends h).of_suffix (List.suffix_cons _ _)
    cases hc : c.isDigit with
    | false =>
      rw [number_other hc]
      exact .error
    | true =>
      have hs : (takeDigits 0 0 (c :: text)).2.2 <:+ c :: text := takeDigits_suffix
      rw [List.cons_append, number_digit hzero hc, number_digit hzero hc, ← List.cons_append,
        takeDigits_append h, takeWhile_isDigit_append h,
        dropWhile_isDigit_append h.startsWithDigit]
      exact (numberTail_extends h).of_suffix ((List.dropWhile_suffix _).trans hs)

end Scan

end Phrasebook.Json
