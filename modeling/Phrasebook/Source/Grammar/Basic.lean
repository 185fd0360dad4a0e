import Phrasebook.Source.Dialect
import Phrasebook.Source.Token
import Phrasebook.Source.Tree

/-!
# Source/Grammar/Basic — parsers and what they share

A parser moves a cursor and gives a result, or fails; a failure leaves no trace, so that another
parser can be tried at the same place.  The constructs of the language contain each other: a
`Grammar` holds the parsers for the kinds of constructs, and every module of the grammar builds
one kind from a grammar for what stands inside of it.
-/

namespace Phrasebook.Source

/-- A parser for a construct. -/
abbrev Parser := StateT Cursor Option

/-- The parsers for what a construct may contain. -/
structure Grammar where
  dialect : Dialect
  /-- A bound on the number of pieces in a row. -/
  bound : Nat
  /-- An expression without commas; the flag says whether `in` is an operator. -/
  assignment : Bool → Parser Tree
  /-- An operand with the signs in front of and behind it. -/
  unary : Parser Tree
  /-- A statement. -/
  statement : Parser Tree
  /-- A type. -/
  type : Parser Tree
  /-- What a declaration may bind: a name or a pattern. -/
  binding : Parser Tree
  /-- A markup element, from behind its first bracket to its last one. -/
  element : Parser Tree
  /-- A class from its name on. -/
  classRest : Parser Tree

namespace Parser

/-- The token at the cursor. -/
def token : Parser Token := return (← get).token

/-- Moves to the next token. -/
def next : Parser Unit := modify Cursor.advance

/-- Whether a line ended before the token. -/
def lineEnded : Parser Bool := return (← get).lineEnded

/-- The cursor at the next token. -/
def ahead : Parser Cursor := return (← get).advance

/-- Goes on only if the condition holds. -/
def require (condition : Bool) : Parser Unit := if condition then pure () else failure

/-- Whether the token is this sign. -/
def atSign (sign : String) : Parser Bool := return (← token) == .sign sign

/-- Whether the token is this keyword. -/
def atWord (word : String) : Parser Bool := return (← token) == .word word false

/-- Moves over a sign. -/
def sign (text : String) : Parser Unit := do
  require (← atSign text)
  next

/-- Moves over a keyword. -/
def word (text : String) : Parser Unit := do
  require (← atWord text)
  next

/-- Moves over a sign if it is there. -/
def acceptSign (text : String) : Parser Bool := do
  if ← atSign text then
    next
    return true
  else return false

/-- Moves over a keyword if it is there. -/
def acceptWord (text : String) : Parser Bool := do
  if ← atWord text then
    next
    return true
  else return false

/-- Moves over a name of any kind, keywords included. -/
def anyName : Parser String := do
  match ← token with
  | .word text _ =>
    next
    return text
  | _ => failure

/-- Keywords that are never names. -/
def keywords : List String :=
  ["break", "case", "catch", "class", "const", "continue", "debugger", "default", "delete", "do",
    "else", "enum", "export", "extends", "false", "finally", "for", "function", "if", "import", "in",
    "instanceof", "new", "null", "return", "super", "switch", "this", "throw", "true", "try",
    "typeof", "var", "void", "while", "with"]

/-- The text of a token that can name something. -/
def nameOf? : Token → Option String
  | .word text escaped => if !escaped && keywords.contains text then none else some text
  | _ => none

/-- Moves over a name that is no keyword. -/
def name : Parser String := do
  match nameOf? (← token) with
  | some text =>
    next
    return text
  | none => failure

/-- Moves over a quoted text. -/
def text : Parser String := do
  match ← token with
  | .text content =>
    next
    return content
  | _ => failure

/-- The result of a parser, or nothing with the cursor left where it is. -/
def attempt {α : Type} (parser : Parser α) : Parser (Option α) :=
  (some <$> parser) <|> pure none

/-- Whether a parser works here; the cursor is left where it is. -/
def fits {α : Type} (parser : Parser α) : Parser Bool := do
  let cursor ← get
  match ← attempt parser with
  | some _ =>
    set cursor
    return true
  | none => return false

/-- The results of a step until it gives none. -/
def collect {α : Type} (step : Parser (Option α)) : Nat → Parser (List α)
  | 0 => failure
  | bound + 1 => do
    match ← step with
    | none => return []
    | some result => return result :: (← collect step bound)

/-- Items with commas between them up to a closing sign; a comma may follow the last one. -/
def commaList {α : Type} (bound : Nat) (close : String) (item : Parser α) : Parser (List α) := do
  let results ← collect (do
    if ← atSign close then return none
    let result ← item
    unless ← acceptSign "," do require (← atSign close)
    return some result) bound
  sign close
  return results

/-- One or more items with commas between them. -/
def commaItems {α : Type} (bound : Nat) (item : Parser α) : Parser (List α) := do
  let first ← item
  let rest ← collect (do if ← acceptSign "," then return some (← item) else return none) bound
  return first :: rest

/-- The end of a statement: a semicolon, which may be left out before a brace, at the end of a
line and at the end of the text. -/
def endStatement : Parser Unit := do
  if ← acceptSign ";" then return
  let cursor ← get
  require (cursor.token == .sign "\x7d" || cursor.token == .ending || cursor.lineEnded)

/-- Any of several parsers, the first that works. -/
def firstOf {α : Type} : List (Parser α) → Parser α
  | [] => failure
  | parser :: rest => parser <|> firstOf rest

end Parser

/-- A construct without parts that matter. -/
def Tree.leaf : Tree := .other []

namespace Grammar

open Phrasebook.Source.Parser

/-- An expression with commas. -/
def expression (g : Grammar) (allowIn : Bool) : Parser Tree := do
  match ← commaItems g.bound (g.assignment allowIn) with
  | [single] => return single
  | several => return .other several

/-- A block of statements, braces included. -/
def block (g : Grammar) : Parser Tree := do
  sign "\x7b"
  let statements ← collect (do
    if ← atSign "\x7d" then return none else return some (← g.statement)) g.bound
  sign "\x7d"
  return .other statements

/-- The slots of a template with the chunks between them, from behind a sign that a chunk follows.
-/
def templateTail (g : Grammar) : Nat → Parser (List Chunk × List Tree)
  | 0 => failure
  | bound + 1 => do
    let cursor ← get
    match readChunk (' ' :: cursor.after) cursor.after with
    | none => failure
    | some chunk =>
      set (Cursor.start chunk.rest)
      if chunk.isLast then return ([chunk], [])
      else
        let slot ← g.expression true
        require (← atSign "\x7d")
        let (chunks, slots) ← g.templateTail bound
        return (chunk :: chunks, slot :: slots)

/-- A template, from its opening backquote. -/
def template (g : Grammar) : Parser (List Chunk × List Tree) := do
  require (← atSign "\x60")
  g.templateTail g.bound

/-- A template without a tag, whose escapes must be well-formed. -/
def plainTemplate (g : Grammar) : Parser Tree := do
  let (chunks, slots) ← g.template
  require (chunks.all (·.points.isSome))
  return .other slots

/-- A template behind its tag and the types that the tag is applied to. -/
def taggedTemplate (g : Grammar) (tag : Tree) (types : List Tree) : Parser Tree := do
  let (chunks, slots) ← g.template
  return .tagged tag types (chunks.map Chunk.text?) slots

end Grammar

end Phrasebook.Source
