import Phrasebook.Json.Scan
import Phrasebook.Json.Writer

/-!
# Proofs/Json/Strings — a written string reads back

Each character of a string is escaped on its own, so it is enough that the scanner takes the escape
of one character back to that character and goes on behind it.
-/

namespace Phrasebook.Json

/-- The lower-case hexadecimal digits are read as their values. -/
theorem hexValue?_hexDigit : ∀ {n : Nat}, n < 16 → Scan.hexValue? (hexDigit n) = some n := by
  decide

/-- Controls are escaped by two digits behind two zeros. -/
theorem hex4?_control {c : Char} (h : c.toNat < 0x20) :
    Scan.hex4? '0' '0' (hexDigit (c.toNat / 16)) (hexDigit (c.toNat % 16)) = some c.toNat := by
  have hzero : Scan.hexValue? '0' = some 0 := rfl
  have hhigh : Scan.hexValue? (hexDigit (c.toNat / 16)) = some (c.toNat / 16) :=
    hexValue?_hexDigit (by omega)
  have hlow : Scan.hexValue? (hexDigit (c.toNat % 16)) = some (c.toNat % 16) :=
    hexValue?_hexDigit (by omega)
  rw [Scan.hex4?, hzero, hhigh, hlow]
  exact congrArg some (by omega)

/-- A quote ends the string. -/
theorem string_quoteMark (rest : List Char) : Scan.string ('"' :: rest) = .ok ([], rest) := by
  unfold Scan.string
  rw [if_pos rfl]

/-- A character that needs no escape stands for itself. -/
theorem string_plain {c : Char} (hquote : c ≠ '"') (hslash : c ≠ '\\') (hcontrol : ¬c.toNat < 0x20)
    (rest : List Char) : Scan.string (c :: rest) = Scan.withChar c (Scan.string rest) := by
  rw [Scan.string.eq_def]
  simp only [hquote, hslash, hcontrol, if_false]

/-- A control is read from its code. -/
theorem string_control {c : Char} (h : c.toNat < 0x20) (rest : List Char) :
    Scan.string ('\\' :: 'u' :: '0' :: '0' :: hexDigit (c.toNat / 16) :: hexDigit (c.toNat % 16)
      :: rest) = Scan.withChar c (Scan.string rest) := by
  have hlow : Scan.isLowSurrogate c.toNat = false := by
    simp [Scan.isLowSurrogate]
    omega
  have hhigh : Scan.isHighSurrogate c.toNat = false := by
    simp [Scan.isHighSurrogate]
    omega
  rw [Scan.string.eq_def]
  simp [hex4?_control h, hlow, hhigh]

/-- **The escape of a character reads back as the character.** -/
theorem string_escapeChar (c : Char) (rest : List Char) :
    Scan.string (escapeChar c ++ rest) = Scan.withChar c (Scan.string rest) := by
  by_cases hquote : c = '"'
  · subst hquote; rfl
  by_cases hslash : c = '\\'
  · subst hslash; rfl
  by_cases hbackspace : c = '\x08'
  · subst hbackspace; rfl
  by_cases hfeed : c = '\x0c'
  · subst hfeed; rfl
  by_cases hline : c = '\n'
  · subst hline; rfl
  by_cases hreturn : c = '\r'
  · subst hreturn; rfl
  by_cases htab : c = '\t'
  · subst htab; rfl
  rw [escapeChar, if_neg hquote, if_neg hslash, if_neg hbackspace, if_neg hfeed, if_neg hline,
    if_neg hreturn, if_neg htab]
  by_cases hcontrol : c.toNat < 0x20
  · rw [if_pos hcontrol]
    exact string_control hcontrol rest
  · rw [if_neg hcontrol]
    exact string_plain hquote hslash hcontrol rest

/-- **The characters of a quoted text read back as the text**, up to the closing quote. -/
theorem string_escaped (chars rest : List Char) :
    Scan.string (chars.flatMap escapeChar ++ '"' :: rest) = .ok (chars, rest) := by
  induction chars with
  | nil => exact string_quoteMark rest
  | cons c chars ih =>
    rw [List.flatMap_cons, List.append_assoc, string_escapeChar, ih]
    rfl

/-- The characters of a quoted text. -/
theorem toList_quote (text : String) :
    (quote text).toList = '"' :: (text.toList.flatMap escapeChar ++ ['"']) := by
  simp [quote]

end Phrasebook.Json
