import Phrasebook.Json.Fault
import Phrasebook.Json.Number

/-!
# Json/Scan — the smallest pieces of a JSON text

Each scanner takes the text that is left and gives back what it read with the text behind it, or the
fault that stopped it.  Blanks, words, strings and numbers are scanned here; `skipString` and
`skipNumber` read over a piece whose value nobody needs, and check less than the scanners do.
-/

namespace Phrasebook.Json

/-- What a scanner gives back: a result and the text behind it, or a fault. -/
abbrev Scanned (α : Type) := Except Fault (α × List Char)

/-- Goes on with the result and the text behind it, unless a fault stopped the scan. -/
def Scanned.andThen {α β : Type} (scanned : Scanned α) (next : α → List Char → Scanned β) :
    Scanned β :=
  match scanned with
  | .ok (result, rest) => next result rest
  | .error fault => .error fault

/-- Changes the result of a scan. -/
def Scanned.change {α β : Type} (scanned : Scanned α) (f : α → β) : Scanned β :=
  scanned.andThen fun result rest => .ok (f result, rest)

namespace Scan

/-- Space, tab, line feed and carriage return separate the pieces of a JSON text. -/
def isBlank (c : Char) : Bool := c = ' ' || c = '\n' || c = '\t' || c = '\r'

/-- The text behind its leading blanks. -/
def skipBlanks (text : List Char) : List Char := text.dropWhile isBlank

/-- Reads the rest of a word such as `null`. -/
def word : List Char → List Char → Scanned Unit
  | [], text => .ok ((), text)
  | _ :: _, [] => .error (faultAt .endInValue [])
  | c :: rest, d :: text =>
    if c = d then word rest text else .error (faultAfter .expectedIdent (d :: text))

/-! ## Strings -/

/-- The value of a hexadecimal digit. -/
def hexValue? (c : Char) : Option Nat :=
  if c.isDigit then some (c.toNat - '0'.toNat)
  else if 'a' ≤ c ∧ c ≤ 'f' then some (c.toNat - 'a'.toNat + 10)
  else if 'A' ≤ c ∧ c ≤ 'F' then some (c.toNat - 'A'.toNat + 10)
  else none

/-- The number written by four hexadecimal digits. -/
def hex4? (a b c d : Char) : Option Nat :=
  match hexValue? a, hexValue? b, hexValue? c, hexValue? d with
  | some a, some b, some c, some d => some (((a * 16 + b) * 16 + c) * 16 + d)
  | _, _, _, _ => none

/-- The fault of a Unicode escape that is not four hexadecimal digits: four bytes are looked at, and
a text that has fewer has ended. -/
def hexFault (text : List Char) : Fault :=
  if Text.byteCount text < 4 then ⟨.endInString, 0⟩ else ⟨.invalidEscape, Text.byteCount text - 4⟩

/-- The character that a simple escape stands for. -/
def simpleEscape? : Char → Option Char
  | '"' => some '"'
  | '\\' => some '\\'
  | '/' => some '/'
  | 'b' => some '\x08'
  | 'f' => some '\x0c'
  | 'n' => some '\n'
  | 'r' => some '\r'
  | 't' => some '\t'
  | _ => none

/-- A code unit that opens a pair. -/
def isHighSurrogate (unit : Nat) : Bool := 0xd800 ≤ unit && unit ≤ 0xdbff

/-- A code unit that closes a pair. -/
def isLowSurrogate (unit : Nat) : Bool := 0xdc00 ≤ unit && unit ≤ 0xdfff

/-- The character that a pair of code units stands for. -/
def joinSurrogates (high low : Nat) : Char :=
  Char.ofNat ((high - 0xd800) * 0x400 + (low - 0xdc00) + 0x10000)

/-- Puts a character in front of what was scanned. -/
def withChar (c : Char) (scanned : Scanned (List Char)) : Scanned (List Char) :=
  scanned.change (c :: ·)

/-- The characters of a string up to its closing quote. -/
def string : List Char → Scanned (List Char)
  | [] => .error (faultAt .endInString [])
  | c :: rest =>
    if c = '"' then .ok ([], rest)
    else if c = '\\' then
      match rest with
      | [] => .error (faultAt .endInString [])
      | 'u' :: a :: b :: c :: d :: rest =>
        match hex4? a b c d with
        | none => .error (hexFault (a :: b :: c :: d :: rest))
        | some unit =>
          if isLowSurrogate unit then .error (faultAt .loneSurrogate rest)
          else if isHighSurrogate unit then
            match rest with
            | '\\' :: 'u' :: e :: f :: g :: h :: rest =>
              match hex4? e f g h with
              | none => .error (hexFault (e :: f :: g :: h :: rest))
              | some low =>
                if isLowSurrogate low then withChar (joinSurrogates unit low) (string rest)
                else .error (faultAt .loneSurrogate rest)
            | '\\' :: 'u' :: rest => .error (hexFault rest)
            | '\\' :: c :: rest => .error (faultAfter .unexpectedEndOfHexEscape (c :: rest))
            | ['\\'] => .error (faultAt .endInString [])
            | c :: rest => .error (faultAfter .unexpectedEndOfHexEscape (c :: rest))
            | [] => .error (faultAt .endInString [])
          else withChar (Char.ofNat unit) (string rest)
      | 'u' :: rest => .error (hexFault rest)
      | e :: rest =>
        match simpleEscape? e with
        | some c => withChar c (string rest)
        | none => .error (faultAfter .invalidEscape (e :: rest))
    else if c.toNat < 0x20 then .error (faultAt .controlCharacter rest)
    else withChar c (string rest)

/-- Reads over a string up to its closing quote; what its escapes stand for is not asked. -/
def skipString : List Char → Scanned Unit
  | [] => .error (faultAt .endInString [])
  | c :: rest =>
    if c = '"' then .ok ((), rest)
    else if c = '\\' then
      match rest with
      | [] => .error (faultAt .endInString [])
      | 'u' :: a :: b :: c :: d :: rest =>
        if (hex4? a b c d).isSome then skipString rest
        else .error (hexFault (a :: b :: c :: d :: rest))
      | 'u' :: rest => .error (hexFault rest)
      | e :: rest =>
        if (simpleEscape? e).isSome then skipString rest
        else .error (faultAfter .invalidEscape (e :: rest))
    else if c.toNat < 0x20 then .error (faultAt .controlCharacter (c :: rest))
    else skipString rest

/-! ## Numbers -/

/-- The largest whole number of 64 bits. -/
def wholeLimit : Nat := Nat.pow 2 64 - 1

/-- Extends `significand` by leading digits of the text while it fits in 64 bits, and counts them.
-/
def takeDigits (significand count : Nat) : List Char → Nat × Nat × List Char
  | [] => (significand, count, [])
  | c :: rest =>
    let next := significand * 10 + Decimal.digitValue c
    if c.isDigit ∧ next ≤ wholeLimit then takeDigits next (count + 1) rest
    else (significand, count, c :: rest)

/-- Whether the text starts with a digit. -/
def startsWithDigit : List Char → Bool
  | c :: _ => c.isDigit
  | [] => false

/-- The double nearest to a power of ten. -/
def tenTo (power : Nat) : Float := Float.ofScientific 1 false power

/-- Divides by `10 ^ 308` until the negative exponent is one that doubles have; `none` for a
positive exponent beyond the range of doubles. -/
def scaleInto (fuel : Nat) (value : Float) (exponent : Int) : Option Float :=
  if exponent.natAbs ≤ 308 then
    if 0 ≤ exponent then
      let scaled := value * tenTo exponent.natAbs
      if scaled.isInf then none else some scaled
    else some (value / tenTo exponent.natAbs)
  else if value == 0 then some value
  else if 0 ≤ exponent then none
  else
    match fuel with
    | 0 => some 0
    | fuel + 1 => scaleInto fuel (value / tenTo 308) (exponent + 308)

/-- The double for `significand · 10 ^ exponent`: both factors are rounded, then their product. -/
def double (negative : Bool) (significand : Nat) (exponent : Int) (rest : List Char) :
    Scanned Number :=
  match scaleInto 8 (Float.ofNat significand) exponent with
  | some value => .ok (.double (if negative then -value else value), rest)
  | none => .error (faultAt .numberOutOfRange rest)

/-- The largest exponent that is counted exactly. -/
def exponentLimit : Nat := Nat.pow 2 31 - 1

/-- The digits of an exponent whose value so far is `exponent`; `none` stands for a value beyond the
limit, with the text behind the digit that went beyond it. -/
def exponentDigits (exponent : Nat) : List Char → Option Nat × List Char
  | [] => (some exponent, [])
  | c :: rest =>
    if c.isDigit then
      let next := exponent * 10 + Decimal.digitValue c
      if next ≤ exponentLimit then exponentDigits next rest else (none, rest)
    else (some exponent, c :: rest)

/-- The sign of an exponent, with the text behind it. -/
def exponentSign : List Char → Bool × List Char
  | '+' :: rest => (false, rest)
  | '-' :: rest => (true, rest)
  | rest => (false, rest)

/-- The rest of a number behind its `e`. -/
def exponentPart (negative : Bool) (significand : Nat) (start : Int) (text : List Char) :
    Scanned Number :=
  let (isBelow, text) := exponentSign text
  match text with
  | [] => .error (faultAt .endInValue [])
  | c :: rest =>
    if c.isDigit then
      match exponentDigits (Decimal.digitValue c) rest with
      | (some exponent, rest) =>
        double negative significand (if isBelow then start - exponent else start + exponent) rest
      | (none, rest) =>
        if significand ≠ 0 ∧ isBelow = false then .error (faultAt .numberOutOfRange rest)
        else .ok (.double (if negative then -0.0 else 0.0), rest.dropWhile Char.isDigit)
    else .error (faultAfter .invalidNumber (c :: rest))

/-- The rest of a number behind its point. -/
def fractionPart (negative : Bool) (significand : Nat) (start : Int) (text : List Char) :
    Scanned Number :=
  let (significand, count, rest) := takeDigits significand 0 text
  if count = 0 ∧ startsWithDigit rest = false then
    match rest with
    | [] => .error (faultAt .endInValue [])
    | _ :: _ => .error (faultAfter .invalidNumber rest)
  else
    match rest.dropWhile Char.isDigit with
    | 'e' :: rest => exponentPart negative significand (start - count) rest
    | 'E' :: rest => exponentPart negative significand (start - count) rest
    | rest => double negative significand (start - count) rest

/-- A whole number: zero with a sign and everything below the 64-bit range become doubles. -/
def wholeNumber (negative : Bool) (significand : Nat) : Number :=
  if negative = false then .whole significand
  else if 0 < significand ∧ significand ≤ Nat.pow 2 63 then .whole (-significand)
  else .double (-(Float.ofNat significand))

/-- The rest of a number behind its whole digits, `skipped` of which did not fit. -/
def numberTail (negative : Bool) (significand skipped : Nat) : List Char → Scanned Number
  | '.' :: rest => fractionPart negative significand skipped rest
  | 'e' :: rest => exponentPart negative significand skipped rest
  | 'E' :: rest => exponentPart negative significand skipped rest
  | rest =>
    if skipped = 0 then .ok (wholeNumber negative significand, rest)
    else double negative significand skipped rest

/-- A number behind its sign. -/
def number (negative : Bool) : List Char → Scanned Number
  | [] => .error (faultAt .endInValue [])
  | '0' :: rest =>
    if startsWithDigit rest then .error (faultAfter .invalidNumber rest)
    else numberTail negative 0 0 rest
  | c :: rest =>
    if c.isDigit then
      let (significand, _, rest) := takeDigits 0 0 (c :: rest)
      let dropped := rest.takeWhile Char.isDigit
      numberTail negative significand dropped.length (rest.dropWhile Char.isDigit)
    else .error (faultAfter .invalidNumber (c :: rest))

/-- Reads over the digits of an exponent. -/
def skipExponent (text : List Char) : Scanned Unit :=
  match (exponentSign text).2 with
  | [] => .error (faultAt .invalidNumber [])
  | c :: rest =>
    if c.isDigit then .ok ((), rest.dropWhile Char.isDigit)
    else .error (faultAfter .invalidNumber (c :: rest))

/-- Reads over what may follow the digits of a number. -/
def skipAfterDigits : List Char → Scanned Unit
  | 'e' :: rest => skipExponent rest
  | 'E' :: rest => skipExponent rest
  | rest => .ok ((), rest)

/-- Reads over a number behind its sign, whatever its size. -/
def skipNumber (text : List Char) : Scanned Unit :=
  match text with
  | [] => .error (faultAt .invalidNumber [])
  | c :: rest =>
    if c.isDigit = false then .error (faultAfter .invalidNumber (c :: rest))
    else if c = '0' ∧ startsWithDigit rest then .error (faultAfter .invalidNumber rest)
    else
      match rest.dropWhile Char.isDigit with
      | '.' :: rest =>
        if startsWithDigit rest then skipAfterDigits (rest.dropWhile Char.isDigit)
        else .error (faultAfter .invalidNumber rest)
      | rest => skipAfterDigits rest

end Scan

end Phrasebook.Json
