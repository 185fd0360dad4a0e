import Phrasebook.Source.Grammar.Statements

/-!
# Source/Grammar — the grammar as a whole

`grammar` ties the parsers of all constructs together: each of them finds the parsers for its
parts in the grammar one level below.  A text is never nested more deeply than it is long, so a
level that is computed from its length is enough.
-/

namespace Phrasebook.Source

open Phrasebook.Source.Parser

/-- The parsers for constructs that are nested at most as deeply as a level says. -/
def grammar (dialect : Dialect) : Nat → Grammar
  | 0 =>
    { dialect, bound := 0, assignment := fun _ => failure, unary := failure, statement := failure,
      type := failure, binding := failure, element := failure, classRest := failure }
  | level + 1 =>
    { dialect
      bound := level + 1
      assignment := fun allowIn cursor => (grammar dialect level).assignmentBody allowIn cursor
      unary := fun cursor => (grammar dialect level).unaryBody cursor
      statement := fun cursor => (grammar dialect level).statementBody cursor
      type := fun cursor => (grammar dialect level).typeBody cursor
      binding := fun cursor => (grammar dialect level).bindingBody cursor
      element := fun cursor => (grammar dialect level).elementBody cursor
      classRest := fun cursor => (grammar dialect level).classBody cursor }

/-- A level that is enough for a text of a length. -/
def levelFor (length : Nat) : Nat := 4 * length + 16

/-- The text behind a first line that names an interpreter. -/
def skipInterpreterLine : List Char → List Char
  | '#' :: '!' :: rest => rest.dropWhile (!isLineEnd ·)
  | text => text

/-- The items of a module up to the end of the text. -/
def Grammar.moduleBody (g : Grammar) : Parser Tree := do
  let items ← collect (do
    if (← token) == .ending then return none else return some (← g.moduleItem)) g.bound
  return .other items

/-- The tree of a source text, or nothing if it is malformed. -/
def Tree.parse? (dialect : Dialect) (code : String) : Option Tree :=
  let text := code.toList
  let parser := (grammar dialect (levelFor text.length)).moduleBody
  (parser.run (Cursor.start (skipInterpreterLine text))).map Prod.fst

end Phrasebook.Source
