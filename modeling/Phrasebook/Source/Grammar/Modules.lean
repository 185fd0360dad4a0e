import Phrasebook.Source.Grammar.Bindings
import Phrasebook.Source.Grammar.Expressions

/-!
# Source/Grammar/Modules — imports and exports

Only what is exported can hold usages: a declaration, an expression, or the members of a namespace.
-/

namespace Phrasebook.Source.Grammar

open Phrasebook.Source.Parser

/-- What an import says about the module behind its name. -/
def importAttributes (g : Grammar) : Parser Unit := do
  if g.dialect.typed && !(← lineEnded) && ((← atWord "with") || (← atWord "assert")) then
    next
    sign "\x7b"
    let pair : Parser Unit := do
      match ← token with
      | .word .. | .text _ => next
      | _ => failure
      sign ":"
      let _ ← text
    let _ ← commaList g.bound "\x7d" pair

/-- The name of a module at the end of an import or an export. -/
def moduleName (g : Grammar) : Parser Unit := do
  let _ ← text
  g.importAttributes
  endStatement

/-- A name or a quoted text, as modules have them for what they share. -/
def sharedName : Parser Unit := do
  match ← token with
  | .word .. | .text _ => next
  | _ => failure

/-- One of the names in braces: possibly marked as a type, possibly renamed. -/
def sharedItem (g : Grammar) : Parser Unit := do
  let plain : Parser Unit := do
    sharedName
    if ← acceptWord "as" then sharedName
    require ((← atSign ",") || (← atSign "\x7d"))
  let asType : Parser Unit := do
    require g.dialect.typed
    word "type"
    plain
  plain <|> asType

/-- Names in braces. -/
def sharedItems (g : Grammar) : Parser Unit := do
  sign "\x7b"
  let _ ← commaList g.bound "\x7d" g.sharedItem

/-- All of a module under one name. -/
def wholeModule : Parser Unit := do
  sign "*"
  word "as"
  let _ ← name

/-- What an import takes from a module, and the module. -/
def importFrom (g : Grammar) : Parser Unit := do
  let parts := wholeModule <|> g.sharedItems
  let named : Parser Unit := do
    let _ ← name
    if ← acceptSign "," then parts
  named <|> parts
  word "from"
  g.moduleName

/-- A module or a member of a namespace under a new name. -/
def importAlias (g : Grammar) : Parser Tree := do
  require g.dialect.typed
  let _ ← name
  sign "="
  let required : Parser Unit := do
    word "require"
    sign "("
    let _ ← text
    sign ")"
  required <|> (do let _ ← g.typeName)
  endStatement
  return .leaf

/-- An import behind its keyword. -/
def importRest (g : Grammar) : Parser Tree := do
  let bare : Parser Tree := do
    g.moduleName
    return .leaf
  let taken : Parser Tree := do
    g.importFrom
    return .leaf
  let ofTypes : Parser Tree := do
    require g.dialect.typed
    word "type"
    g.importAlias <|> taken
  firstOf [bare, g.importAlias, taken, ofTypes]

/-- Whether a token shows that the word before it starts a declaration: it is a name, or a keyword
that another declaration starts with. -/
def followsDeclarationWord (token : Token) : Bool :=
  match token with
  | .word text false =>
    (nameOf? token).isSome || ["var", "const", "function", "class", "enum"].contains text
  | _ => (nameOf? token).isSome

/-- Whether the word at the cursor starts a declaration: most of these words are also names, and
then what follows tells. -/
def startsDeclaration (g : Grammar) : Parser Bool := do
  let cursor ← ahead
  match ← token with
  | .word text false =>
    if ["var", "let", "const", "function", "class"].contains text then return true
    else if text == "async" then return cursor.token == .word "function" false
    else if !g.dialect.typed then return false
    else if text == "enum" then return true
    else if text == "global" then return cursor.token == .sign "\x7b"
    else if ["abstract", "interface", "type", "namespace", "module", "declare"].contains text then
      match cursor.token with
      | .text _ => return !cursor.lineEnded
      | follower => return followsDeclarationWord follower && !cursor.lineEnded
    else return false
  | _ => return false

/-- What a module exports by default. -/
def exportedDefault (g : Grammar) : Parser Tree := do
  let expressed : Parser Tree := do
    let value ← g.assignment true
    endStatement
    return value
  let abstractClass : Parser Tree := do
    require g.dialect.typed
    word "abstract"
    word "class"
    g.classRest
  let function : Parser Tree := do
    let _ ← acceptWord "async"
    word "function"
    let _ ← acceptSign "*"
    let _ ← attempt name
    g.functionRest
  let interface : Parser Tree := do
    require g.dialect.typed
    require (← atWord "interface")
    g.statement
  match ← token with
  | .word "class" false => g.classExpression
  | .word "abstract" false => abstractClass <|> expressed
  | .word "function" false => function
  | .word "async" false => function <|> expressed
  | .word "interface" false => interface <|> expressed
  | _ => expressed

/-- Names that are exported, possibly from another module. -/
def exportedNames (g : Grammar) : Parser Tree := do
  if g.dialect.typed then
    let _ ← acceptWord "type"
  if ← acceptSign "*" then
    if ← acceptWord "as" then sharedName
    word "from"
    g.moduleName
  else
    g.sharedItems
    if ← acceptWord "from" then g.moduleName else endStatement
  return .leaf

/-- An export behind its keyword. -/
def exportRest (g : Grammar) : Parser Tree := do
  let declared : Parser Tree := do
    require (← g.startsDeclaration)
    g.statement
  match ← token with
  | .word "default" false =>
    next
    g.exportedDefault
  | .sign "=" =>
    require g.dialect.typed
    next
    let value ← g.expression true
    endStatement
    return value
  | .word "as" false =>
    require g.dialect.typed
    next
    word "namespace"
    let _ ← name
    endStatement
    return .leaf
  | .word "import" false =>
    next
    let ofTypes : Parser Tree := do
      word "type"
      g.importAlias
    g.importAlias <|> ofTypes
  | .word "type" false => g.exportedNames <|> declared
  | .sign _ => g.exportedNames
  | _ => declared

/-- What a module may contain: an import, an export or a statement. -/
def moduleItem (g : Grammar) : Parser Tree := do
  match ← token with
  | .word "import" false =>
    match (← ahead).token with
    | .sign "(" | .sign "." => g.statement
    | _ =>
      next
      g.importRest
  | .word "export" false =>
    next
    g.exportRest
  | _ => g.statement

/-- The items of a namespace, braces included. -/
def namespaceBlock (g : Grammar) : Parser Tree := do
  sign "\x7b"
  let items ← collect (do
    if ← atSign "\x7d" then return none else return some (← g.moduleItem)) g.bound
  sign "\x7d"
  return .other items

end Phrasebook.Source.Grammar
