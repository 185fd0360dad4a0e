import Phrasebook.Source.Grammar.Classes
import Phrasebook.Source.Grammar.Modules

/-!
# Source/Grammar/Statements — statements and declarations

The parts of a statement stand in its tree in the order of the text, except that a loop lists its
condition before its body even where the condition stands last.
-/

namespace Phrasebook.Source.Grammar

open Phrasebook.Source.Parser

/-- An expression in parentheses. -/
def parenthesized (g : Grammar) : Parser Tree := do
  sign "("
  let inner ← g.expression true
  sign ")"
  return inner

/-! ## Declarations -/

/-- A variable with its type and value. -/
def declarator (g : Grammar) (allowIn : Bool) : Parser Tree := do
  let target ← g.binding
  if g.dialect.typed then
    let _ ← acceptSign "!"
  let type ← g.optionalAnnotation
  let value ← g.initializer allowIn
  return .other (target :: type ++ value)

/-- Moves over the word that variables are declared with. -/
def variableWord (g : Grammar) : Parser Unit := do
  let startsBinding (token : Token) : Bool :=
    (nameOf? token).isSome || token == .sign "\x7b" || token == .sign "["
  match ← token with
  | .word "var" false | .word "const" false => next
  | .word "let" false =>
    require (startsBinding (← ahead).token)
    next
  | .word "using" false =>
    require g.dialect.typed
    let cursor ← ahead
    require (!cursor.lineEnded && (nameOf? cursor.token).isSome)
    require (cursor.token != .word "of" false)
    next
  | .word "await" false =>
    next
    require (g.dialect.typed && !(← lineEnded))
    word "using"
    require (!(← lineEnded) && (nameOf? (← token)).isSome)
  | _ => failure

/-- The variables of a declaration. -/
def declarators (g : Grammar) (allowIn : Bool) : Parser Tree := do
  g.variableWord
  return .other (← commaItems g.bound (g.declarator allowIn))

/-- A declaration of variables. -/
def variableStatement (g : Grammar) : Parser Tree := do
  let declared ← g.declarators true
  endStatement
  return declared

/-- A declaration of a function. -/
def functionDeclaration (g : Grammar) : Parser Tree := do
  if ← acceptWord "async" then require !(← lineEnded)
  word "function"
  let _ ← acceptSign "*"
  let _ ← name
  g.functionRest

/-- A declaration of a class. -/
def classDeclaration (g : Grammar) : Parser Tree := do
  if g.dialect.typed then
    let _ ← acceptWord "abstract"
  word "class"
  require (nameOf? (← token)).isSome
  g.classRest

/-- A declaration of an interface. -/
def interfaceDeclaration (g : Grammar) : Parser Tree := do
  word "interface"
  require !(← lineEnded)
  let _ ← name
  let generic ← g.optionalTypeParameters
  let parents ← if ← acceptWord "extends" then commaItems g.bound g.typeName else pure []
  let members ← g.objectType
  return .other (generic ++ parents ++ [members])

/-- A declaration of a name for a type. -/
def typeDeclaration (g : Grammar) : Parser Tree := do
  word "type"
  require !(← lineEnded)
  let _ ← name
  let generic ← g.optionalTypeParameters
  sign "="
  let type ← g.type
  endStatement
  return .other (generic ++ [type])

/-- A member of an enumeration. -/
def enumMember (g : Grammar) : Parser Tree := do
  let key ← g.memberName
  return .other (key :: (← g.initializer true))

/-- A declaration of an enumeration. -/
def enumDeclaration (g : Grammar) : Parser Tree := do
  let _ ← acceptWord "const"
  word "enum"
  let _ ← name
  sign "\x7b"
  return .other (← commaList g.bound "\x7d" g.enumMember)

/-- A declaration of a namespace, or of what a module consists of. -/
def namespaceDeclaration (g : Grammar) : Parser Tree := do
  let named : Parser Tree := do
    require ((← atWord "namespace") || (← atWord "module"))
    next
    require !(← lineEnded)
    let _ ← name
    let _ ← collect (do
      if ← acceptSign "." then
        let _ ← anyName
        return some ()
      else return none) g.bound
    g.namespaceBlock
  let quoted : Parser Tree := do
    word "module"
    require !(← lineEnded)
    let _ ← text
    if ← atSign "\x7b" then g.namespaceBlock
    else
      endStatement
      return .leaf
  let all : Parser Tree := do
    word "global"
    g.namespaceBlock
  firstOf [named, quoted, all]

/-- A declaration that nothing is generated for. -/
def ambientDeclaration (g : Grammar) : Parser Tree := do
  word "declare"
  require !(← lineEnded)
  require (← g.startsDeclaration)
  g.statement

/-! ## Control -/

/-- A condition with its two branches. -/
def ifStatement (g : Grammar) : Parser Tree := do
  word "if"
  let condition ← g.parenthesized
  let yes ← g.statement
  let no ← if ← acceptWord "else" then pure [← g.statement] else pure []
  return .other (condition :: yes :: no)

/-- The head of a loop behind its opening parenthesis. -/
def loopHead (g : Grammar) : Parser (List Tree) := do
  let start : Parser (List Tree) := do
    let declared : Parser (List Tree) := return [← g.declarators false]
    let expressed : Parser (List Tree) := return [← g.expression false]
    if ← atSign ";" then return [] else declared <|> expressed
  let part (close : String) : Parser (List Tree) := do
    if ← acceptSign close then return []
    else
      let part ← g.expression true
      sign close
      return [part]
  let first ← start
  if ← acceptWord "of" then
    let values ← g.assignment true
    sign ")"
    return first ++ [values]
  else if ← acceptWord "in" then
    let object ← g.expression true
    sign ")"
    return first ++ [object]
  else
    sign ";"
    let condition ← part ";"
    let step ← part ")"
    return first ++ condition ++ step

/-- A loop with a head. -/
def forStatement (g : Grammar) : Parser Tree := do
  word "for"
  let _ ← acceptWord "await"
  sign "("
  let head ← g.loopHead
  return .other (head ++ [← g.statement])

/-- A loop with a condition. -/
def whileStatement (g : Grammar) : Parser Tree := do
  word "while"
  let condition ← g.parenthesized
  return .other [condition, ← g.statement]

/-- A loop whose condition stands behind its body. -/
def doStatement (g : Grammar) : Parser Tree := do
  word "do"
  let body ← g.statement
  word "while"
  let condition ← g.parenthesized
  let _ ← acceptSign ";"
  return .other [condition, body]

/-- A statement whose names may be members of an object. -/
def withStatement (g : Grammar) : Parser Tree := do
  word "with"
  let object ← g.parenthesized
  return .other [object, ← g.statement]

/-- One of the cases of a switch. -/
def switchCase (g : Grammar) : Parser Tree := do
  let value ←
    if ← acceptWord "default" then pure []
    else
      word "case"
      pure [← g.expression true]
  sign ":"
  let statements ← collect (do
    if (← atWord "case") || (← atWord "default") || (← atSign "\x7d") then return none
    else return some (← g.statement)) g.bound
  return .other (value ++ statements)

/-- A switch. -/
def switchStatement (g : Grammar) : Parser Tree := do
  word "switch"
  let value ← g.parenthesized
  sign "\x7b"
  let cases ← collect (do
    if ← atSign "\x7d" then return none else return some (← g.switchCase)) g.bound
  sign "\x7d"
  return .other (value :: cases)

/-- A block with what happens when it fails or ends. -/
def tryStatement (g : Grammar) : Parser Tree := do
  word "try"
  let body ← g.block
  let caught : Parser (List Tree) := do
    word "catch"
    let parameter ←
      if ← acceptSign "(" then
        let target ← g.binding
        let type ← g.optionalAnnotation
        sign ")"
        pure (target :: type)
      else pure []
    return parameter ++ [← g.block]
  let handler ← if ← atWord "catch" then caught else pure []
  let ending ← if ← acceptWord "finally" then pure [← g.block] else pure []
  require !(handler ++ ending).isEmpty
  return .other (body :: handler ++ ending)

/-- A statement that leaves a function, with a value or without. -/
def returnStatement (g : Grammar) : Parser Tree := do
  word "return"
  let value ← (do endStatement; pure []) <|> (do
    let value ← g.expression true
    endStatement
    pure [value])
  return .other value

/-- A statement that raises a value. -/
def throwStatement (g : Grammar) : Parser Tree := do
  word "throw"
  require !(← lineEnded)
  let value ← g.expression true
  endStatement
  return value

/-- A statement that leaves a loop or one round of it. -/
def jumpStatement : Parser Tree := do
  next
  unless ← lineEnded do
    let _ ← attempt name
  endStatement
  return .leaf

/-- A statement under a label. -/
def labelledStatement (g : Grammar) : Parser Tree := do
  let _ ← name
  sign ":"
  g.statement

/-- An expression as a statement. -/
def expressionStatement (g : Grammar) : Parser Tree := do
  let value ← g.expression true
  endStatement
  return value

/-- A statement that starts with a name or another value. -/
def labelledOrExpression (g : Grammar) : Parser Tree := do
  if (← ahead).token == .sign ":" then g.labelledStatement else g.expressionStatement

/-! ## Statements -/

/-- Whether a declaration that only code with types has stands at the cursor. -/
def atTypedDeclaration (g : Grammar) : Parser Bool := do
  match ← token with
  | .word "const" false =>
    return g.dialect.typed && (← ahead).token == .word "enum" false
  | .word text false =>
    let shared := ["var", "let", "function", "class", "async"]
    return g.dialect.typed && !shared.contains text && (← g.startsDeclaration)
  | _ => return false

/-- A declaration that only code with types has. -/
def typedDeclaration (g : Grammar) : Parser Tree := do
  match ← token with
  | .word "interface" false => g.interfaceDeclaration
  | .word "type" false => g.typeDeclaration
  | .word "enum" false | .word "const" false => g.enumDeclaration
  | .word "namespace" false | .word "module" false | .word "global" false =>
    g.namespaceDeclaration
  | .word "declare" false => g.ambientDeclaration
  | .word "abstract" false => g.classDeclaration
  | _ => failure

/-- A statement that starts with a word. -/
def wordStatement (g : Grammar) (word : String) : Parser Tree :=
  match word with
  | "var" | "const" => g.variableStatement
  | "function" => g.functionDeclaration
  | "class" => g.classDeclaration
  | "if" => g.ifStatement
  | "for" => g.forStatement
  | "while" => g.whileStatement
  | "do" => g.doStatement
  | "with" => g.withStatement
  | "switch" => g.switchStatement
  | "try" => g.tryStatement
  | "return" => g.returnStatement
  | "throw" => g.throwStatement
  | "break" | "continue" => jumpStatement
  | "debugger" => do
    next
    endStatement
    return .leaf
  | "let" | "using" | "await" => do
    if ← fits g.variableWord then g.variableStatement else g.labelledOrExpression
  | "async" => do
    if ← atAsyncFunction then g.functionDeclaration else g.labelledOrExpression
  | _ => g.labelledOrExpression

/-- A statement. -/
def statementBody (g : Grammar) : Parser Tree := do
  match ← token with
  | .sign "\x7b" => g.block
  | .sign ";" =>
    next
    return .leaf
  | .word word false =>
    if ← g.atTypedDeclaration then g.typedDeclaration else g.wordStatement word
  | _ => g.expressionStatement

end Phrasebook.Source.Grammar
