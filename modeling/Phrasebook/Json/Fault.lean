import Phrasebook.Text.Search
import Phrasebook.Text.Decimal

/-!
# Json/Fault — what is wrong with a JSON text, and where

A reader that stops reports a `Fault`: the cause, and how many bytes of the text lie behind the
place of the fault.  `Fault.locate` turns this into a line and a column of the whole text: lines
are counted from one, and the column is the number of bytes of the line up to the fault.
-/

namespace Phrasebook.Json

/-- Why a text is not the JSON that was asked for. -/
inductive Cause where
  | endInValue
  | endInList
  | endInObject
  | endInString
  | expectedValue
  | expectedColon
  | expectedCommaOrBrace
  | expectedCommaOrBracket
  | keyMustBeString
  | expectedIdent
  | trailingComma
  | trailingCharacters
  | invalidNumber
  | numberOutOfRange
  | invalidEscape
  | unexpectedEndOfHexEscape
  | loneSurrogate
  | controlCharacter
  | tooDeep
  | wrongType (found expected : String)
  | duplicateField (name : String)
  deriving DecidableEq

/-- The wording of a cause. -/
def Cause.message : Cause → String
  | endInValue => "EOF while parsing a value"
  | endInList => "EOF while parsing a list"
  | endInObject => "EOF while parsing an object"
  | endInString => "EOF while parsing a string"
  | expectedValue => "expected value"
  | expectedColon => "expected `:`"
  | expectedCommaOrBrace => "expected `,` or `\x7d`"
  | expectedCommaOrBracket => "expected `,` or `]`"
  | keyMustBeString => "key must be a string"
  | expectedIdent => "expected ident"
  | trailingComma => "trailing comma"
  | trailingCharacters => "trailing characters"
  | invalidNumber => "invalid number"
  | numberOutOfRange => "number out of range"
  | invalidEscape => "invalid escape"
  | unexpectedEndOfHexEscape => "unexpected end of hex escape"
  | loneSurrogate => "lone leading surrogate in hex escape"
  | controlCharacter => "control character (\\u0000-\\u001F) found while parsing a string"
  | tooDeep => "recursion limit exceeded"
  | wrongType found expected => "invalid type: " ++ found ++ ", expected " ++ expected
  | duplicateField name => "duplicate field `" ++ name ++ "`"

/-- A cause with the number of bytes that lie behind it. -/
structure Fault where
  cause : Cause
  left : Nat
  deriving DecidableEq

/-- A fault at the start of the text that is left. -/
def faultAt (cause : Cause) (left : List Char) : Fault := ⟨cause, Text.byteCount left⟩

/-- A fault that includes the first byte of the text that is left, if there is one. -/
def faultAfter (cause : Cause) (left : List Char) : Fault := ⟨cause, Text.byteCount left - 1⟩

/-- A fault with its place in the text. -/
structure ReadError where
  cause : Cause
  line : Nat
  column : Nat
  deriving DecidableEq

/-- The wording of a fault with its place. -/
def ReadError.message (error : ReadError) : String :=
  error.cause.message ++ " at line " ++ Decimal.ofNat error.line ++ " column " ++
    Decimal.ofNat error.column

/-- Line and column behind the first `count` bytes, where `line` and `column` are those at the
start. -/
def locate (line column : Nat) : List Char → Nat → Nat × Nat
  | [], _ => (line, column)
  | c :: rest, count =>
    if count = 0 then (line, column)
    else if count < c.utf8Size then (line, column + count)
    else if c = '\n' then locate (line + 1) 0 rest (count - 1)
    else locate line (column + c.utf8Size) rest (count - c.utf8Size)

/-- The place of a fault in the text that was read. -/
def Fault.locate (fault : Fault) (text : List Char) : ReadError :=
  let (line, column) := Json.locate 1 0 text (Text.byteCount text - fault.left)
  ⟨fault.cause, line, column⟩

end Phrasebook.Json
