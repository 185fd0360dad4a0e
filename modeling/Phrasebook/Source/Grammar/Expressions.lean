import Phrasebook.Source.Grammar.Bindings
import Phrasebook.Source.Grammar.Markup

/-!
# Source/Grammar/Expressions — expressions

An operand is a value with accesses, calls and templates behind it (`operand`) and signs around it
(`unaryBody`); operands are joined by operators, a condition or an assignment (`assignmentBody`).
Which operator binds more tightly does not matter here, since the parts of an expression stand in
the same order either way.  Types that something is applied to stand in front of its arguments, and
come behind them in the tree.

Inside of an optional chain neither members nor calls count as such: `a?.b.c` is no access of `c`.
-/

namespace Phrasebook.Source.Grammar

open Phrasebook.Source.Parser

/-! ## Arrow functions -/

/-- The body of an arrow function: a block or an expression. -/
def arrowBody (g : Grammar) (allowIn : Bool) : Parser Tree := do
  require !(← lineEnded)
  sign "=>"
  if ← atSign "\x7b" then g.block else g.assignment allowIn

/-- An arrow function from its parameters on, those of types included. -/
def arrowRest (g : Grammar) (allowIn : Bool) : Parser Tree := do
  let generic ← g.optionalTypeParameters
  let parameters ← g.parameters
  let result ← g.optionalResult
  let body ← g.arrowBody allowIn
  return .other (parameters :: body :: generic ++ result)

/-- An arrow function with one name for a parameter. -/
def namedArrow (g : Grammar) (allowIn : Bool) : Parser Tree := do
  let _ ← name
  g.arrowBody allowIn

/-- An arrow function marked as asynchronous. -/
def asyncArrow (g : Grammar) (allowIn : Bool) : Parser Tree := do
  word "async"
  require !(← lineEnded)
  match ← token with
  | .sign "(" | .sign "<" => g.arrowRest allowIn
  | _ => g.namedArrow allowIn

/-! ## Lists and objects -/

/-- An argument, or an item of a list. -/
def spreadable (g : Grammar) : Parser Tree := do
  let _ ← acceptSign "..."
  g.assignment true

/-- The arguments of a call, parentheses included. -/
def arguments (g : Grammar) : Parser (List Tree) := do
  sign "("
  commaList g.bound ")" g.spreadable

/-- An item of a list; a place may be left empty. -/
def listItem (g : Grammar) : Parser Tree := do
  if ← atSign "," then return .leaf else g.spreadable

/-- A member of an object that is a function. -/
def objectMethod (g : Grammar) : Parser Tree := do
  let modifier : Parser Unit := do
    match ← token with
    | .word "async" false =>
      let cursor ← ahead
      require !cursor.lineEnded
      require (cursor.token == .sign "*" || (← modifies))
      next
    | .word "get" false | .word "set" false =>
      require (← modifies)
      next
    | _ => failure
  let _ ← attempt modifier
  let _ ← acceptSign "*"
  let key ← g.memberName
  require ((← atSign "(") || (g.dialect.typed && (← atSign "<")))
  return .other [key, ← g.functionRest]

/-- A member of an object. -/
def objectMember (g : Grammar) : Parser Tree := do
  if ← acceptSign "..." then g.assignment true
  else
    let keyed : Parser Tree := do
      let key ← g.memberName
      sign ":"
      return .other [key, ← g.assignment true]
    let short : Parser Tree := do
      let _ ← anyName
      let default ← g.initializer true
      require ((← atSign ",") || (← atSign "\x7d"))
      return .other default
    match ← token with
    | .privateName _ => failure
    | _ => firstOf [g.objectMethod, short, keyed]

/-! ## Values -/

/-- An operand as far as it was read. -/
structure Operand where
  tree : Tree
  /-- Whether it is inside of an optional chain. -/
  chained : Bool := false
  /-- Whether a value can be assigned to it. -/
  isTarget : Bool := false

/-- A function expression, from the keyword on. -/
def functionExpression (g : Grammar) : Parser Tree := do
  let _ ← acceptWord "async"
  word "function"
  let _ ← acceptSign "*"
  let _ ← attempt name
  g.functionWithBody

/-- A class expression, from the keyword on. -/
def classExpression (g : Grammar) : Parser Tree := do
  word "class"
  g.classRest

/-- A regular expression; the cursor is at its opening slash. -/
def regularExpression : Parser Tree := do
  match (← get).here with
  | '/' :: rest =>
    match skipPattern false rest with
    | some rest =>
      set (Cursor.start rest)
      return .leaf
    | none => failure
  | _ => failure

/-- Whether a function marked as asynchronous stands at the cursor. -/
def atAsyncFunction : Parser Bool := do
  let cursor ← ahead
  return (← atWord "async") && cursor.token == .word "function" false && !cursor.lineEnded

/-- A value that starts with a name or a keyword. -/
def namedValue (g : Grammar) : Parser Operand := do
  match ← token with
  | .word "function" false => return { tree := ← g.functionExpression }
  | .word "class" false => return { tree := ← g.classExpression }
  | .word "this" false | .word "null" false | .word "true" false | .word "false" false =>
    next
    return { tree := .leaf }
  | _ =>
    if ← atAsyncFunction then return { tree := ← g.functionExpression }
    else return { tree := .name (← name), isTarget := true }

/-- An expression in parentheses, behind the opening one; a comma may follow it. -/
def inParentheses (g : Grammar) : Parser Tree := do
  let inner ← g.expression true
  let _ ← acceptSign ","
  sign ")"
  return .other [inner]

/-- What an expression starts with. -/
def value (g : Grammar) : Parser Operand := do
  match ← token with
  | .word .. => g.namedValue
  | .number | .text _ | .privateName _ =>
    next
    return { tree := .leaf }
  | .sign "(" =>
    next
    return { tree := ← g.inParentheses, isTarget := true }
  | .sign "[" =>
    next
    return { tree := .other (← commaList g.bound "]" g.listItem), isTarget := true }
  | .sign "\x7b" =>
    next
    return { tree := .other (← commaList g.bound "\x7d" g.objectMember), isTarget := true }
  | .sign "\x60" => return { tree := ← g.plainTemplate }
  | .sign "/" | .sign "/=" => return { tree := ← regularExpression }
  | .sign "<" =>
    require g.dialect.markup
    next
    let element ← g.element
    next
    return { tree := element }
  | _ => failure

/-! ## Accesses, calls and templates behind a value -/

/-- Signs that a value can start with, and angle brackets. -/
def valueSigns : List String :=
  ["<", ">", "+", "-", "(", "[", "\x7b", "\x60", "!", "~", "++", "--", "/", "/=", "@"]

/-- Whether the token can follow type arguments that no call follows: it stands on a new line, or it
is an operator or another sign that no value starts with. -/
def followsTypeArguments : Parser Bool := do
  let cursor ← get
  if cursor.lineEnded then return true
  match cursor.token with
  | .ending => return true
  | .word text false => return ["as", "satisfies", "in", "instanceof", "extends"].contains text
  | .sign text =>
    return !(valueSigns.contains text)
  | _ => return false

/-- An access of a member; inside of a chain it is none. -/
def Operand.member (operand : Operand) (property : String) : Operand :=
  if operand.chained then { operand with tree := .other [operand.tree], isTarget := true }
  else { operand with tree := .member operand.tree property, isTarget := true }

/-- An operand with more parts. -/
def Operand.with (operand : Operand) (parts : List Tree) : Operand :=
  { operand with tree := .other (operand.tree :: parts), isTarget := true }

/-- A call; inside of a chain it is none. -/
def Operand.call (operand : Operand) (arguments : List Tree) : Operand :=
  if operand.chained then operand.with arguments
  else { tree := .call operand.tree arguments }

/-- What stands behind a dot: a name, which is accessed, or a private one. -/
def accessRest (operand : Operand) : Parser Operand := do
  match ← token with
  | .privateName _ =>
    next
    return operand.with []
  | _ => return operand.member (← anyName)

/-- An expression in square brackets. -/
def computedAccess (g : Grammar) (operand : Operand) : Parser Operand := do
  sign "["
  let index ← g.expression true
  sign "]"
  return operand.with [index]

/-- Type arguments, with the call or the template that they belong to.  Where no call is allowed
they may not stand in front of one. -/
def applyTypes (g : Grammar) (allowCall : Bool) (operand : Operand) : Parser Operand := do
  let types ← g.typeArguments
  if ← atSign "(" then
    require allowCall
    return operand.call ((← g.arguments) ++ [types])
  else if ← atSign "\x60" then
    return { tree := ← g.taggedTemplate operand.tree [types] }
  else
    require (← followsTypeArguments)
    return { tree := .other [operand.tree, types], isTarget := true }

/-- What stands behind the sign of an optional chain. -/
def chainRest (g : Grammar) (operand : Operand) : Parser Operand := do
  let chained := { operand with chained := true }
  match ← token with
  | .sign "(" => return chained.call (← g.arguments)
  | .sign "[" => g.computedAccess chained
  | .sign "<" =>
    require g.dialect.typed
    let types ← g.typeArguments
    return chained.call ((← g.arguments) ++ [types])
  | _ => accessRest chained

/-- One access, call or template behind an operand, if there is one. -/
def accessStep (g : Grammar) (allowCall : Bool) (operand : Operand) : Parser (Option Operand) := do
  match ← token with
  | .sign "." =>
    next
    return some (← accessRest operand)
  | .sign "?." =>
    next
    return some (← g.chainRest operand)
  | .sign "[" => return some (← g.computedAccess operand)
  | .sign "(" =>
    if allowCall then return some (operand.call (← g.arguments)) else return none
  | .sign "\x60" =>
    return some { tree := ← g.taggedTemplate operand.tree [] }
  | .sign "!" =>
    if g.dialect.typed && !(← lineEnded) then
      next
      return some { operand with tree := .other [operand.tree], isTarget := true }
    else return none
  | .sign "<" =>
    if g.dialect.typed then attempt (g.applyTypes allowCall operand) else return none
  | _ => return none

/-- The accesses, calls and templates behind an operand. -/
def accesses (g : Grammar) (allowCall : Bool) (operand : Operand) : Nat → Parser Operand
  | 0 => failure
  | bound + 1 => do
    match ← g.accessStep allowCall operand with
    | some operand => g.accesses allowCall operand bound
    | none => return operand

/-- What `import` stands for in an expression: a call that loads a module, or what is known of this
one. -/
def importValue (g : Grammar) : Parser Operand := do
  word "import"
  if ← acceptSign "." then
    word "meta"
    return { tree := .leaf }
  else return { tree := .other (← g.arguments) }

/-- What `super` stands for: it is called, or a member of it is accessed, which is never a marker.
-/
def superValue (g : Grammar) : Parser Operand := do
  word "super"
  match ← token with
  | .sign "(" => return { tree := .other (← g.arguments) }
  | .sign "." =>
    next
    match ← token with
    | .privateName _ => next
    | _ => let _ ← anyName
    return { tree := .leaf, isTarget := true }
  | .sign "[" =>
    next
    let index ← g.expression true
    sign "]"
    return { tree := .other [index], isTarget := true }
  | _ => failure

/-- The type arguments in front of the arguments of a new object, if there are any. -/
def newTypes (g : Grammar) : Parser (List Tree) := do
  let typed : Parser Tree := do
    require g.dialect.typed
    let types ← g.typeArguments
    require (← atSign "(")
    return types
  return (← attempt typed).toList

/-- A new object: the callee without calls, and the arguments if there are any. -/
def newValue (g : Grammar) : Nat → Parser Operand
  | 0 => failure
  | bound + 1 => do
    word "new"
    if ← acceptSign "." then
      word "target"
      return { tree := .leaf }
    else
      let callee ←
        if ← atWord "new" then g.newValue bound
        else if ← atWord "import" then g.importValue
        else if ← atWord "super" then g.superValue
        else g.value
      let callee ← g.accesses false callee g.bound
      let types ← g.newTypes
      let arguments ← if ← atSign "(" then g.arguments else pure []
      return { tree := .other (callee.tree :: arguments ++ types) }

/-- A value with all that stands behind it. -/
def operand (g : Grammar) : Parser Operand := do
  let start ←
    if ← atWord "new" then g.newValue g.bound
    else if ← atWord "import" then g.importValue
    else if ← atWord "super" then g.superValue
    else g.value
  g.accesses true start g.bound

/-! ## Operators -/

/-- A type assertion in front of an operand. -/
def assertion (g : Grammar) : Parser Tree := do
  sign "<"
  let type ← if ← acceptWord "const" then pure Tree.leaf else g.type
  sign ">"
  let operand ← g.unary
  return .other [operand, type]

/-- An operand with the signs in front of and behind it. -/
def signedOperand (g : Grammar) : Parser Operand := do
  let signed : Parser Operand := do
    next
    return { tree := .other [← g.unary] }
  let postfixed : Parser Operand := do
    let operand ← g.operand
    if !(← lineEnded) && ((← atSign "++") || (← atSign "--")) then
      next
      return { tree := .other [operand.tree] }
    else return operand
  match ← token with
  | .sign text =>
    if ["!", "~", "+", "-", "++", "--"].contains text then signed
    else if text == "<" && g.dialect.typed && !g.dialect.markup then
      return { tree := ← g.assertion, isTarget := true }
    else postfixed
  | .word text false =>
    if ["typeof", "void", "delete", "await"].contains text then signed else postfixed
  | _ => postfixed

/-- An operand with the signs in front of and behind it, as a tree. -/
def unaryBody (g : Grammar) : Parser Tree := return (← g.signedOperand).tree

/-- An operator that is made of angle brackets: whether it assigns, and the text behind it. -/
def angleOperator : List Char → Bool × List Char
  | '<' :: '<' :: '=' :: rest => (true, rest)
  | '<' :: '<' :: rest => (false, rest)
  | '<' :: '=' :: rest => (false, rest)
  | '<' :: rest => (false, rest)
  | '>' :: '>' :: '>' :: '=' :: rest => (true, rest)
  | '>' :: '>' :: '>' :: rest => (false, rest)
  | '>' :: '>' :: '=' :: rest => (true, rest)
  | '>' :: '>' :: rest => (false, rest)
  | '>' :: '=' :: rest => (false, rest)
  | '>' :: rest => (false, rest)
  | rest => (false, rest)

/-- Signs that join two operands. -/
def joiningSigns : List String :=
  ["??", "||", "&&", "|", "^", "&", "==", "!=", "===", "!==", "+", "-", "*", "/", "%", "**"]

/-- Signs that assign. -/
def assigningSigns : List String :=
  ["=", "+=", "-=", "*=", "/=", "%=", "**=", "&&=", "||=", "??=", "&=", "|=", "^="]

/-- A type behind an operand, if there is one: the operand stays what it is. -/
def ascription (g : Grammar) : Parser (Option Tree) := do
  if g.dialect.typed && !(← lineEnded) && ((← atWord "as") || (← atWord "satisfies")) then
    next
    if ← acceptWord "const" then return some .leaf else return some (← g.type)
  else return none

/-- An operator and the operand behind it, if there is one. -/
def joinedOperand (g : Grammar) (allowIn : Bool) : Parser (Option Tree) := do
  match ← token with
  | .sign text =>
    if joiningSigns.contains text then
      next
      return some (← g.unary)
    else if text == "<" || text == ">" then
      match angleOperator (← get).here with
      | (true, _) => return none
      | (false, rest) =>
        set (Cursor.start rest)
        return some (← g.unary)
    else return none
  | .word "instanceof" false =>
    next
    return some (← g.unary)
  | .word "in" false =>
    if allowIn then
      next
      return some (← g.unary)
    else return none
  | _ => return none

/-- Operands joined by operators, with the types behind them. -/
def joined (g : Grammar) (allowIn : Bool) : Parser Operand := do
  let first ← g.signedOperand
  let types ← collect g.ascription g.bound
  let joinedOrTyped : Parser (Option Tree) := do
    match ← g.joinedOperand allowIn with
    | some operand => return some operand
    | none => g.ascription
  match types, ← collect joinedOrTyped g.bound with
  | [], [] => return first
  | types, [] => return { tree := .other (first.tree :: types), isTarget := true }
  | types, rest => return { tree := .other (first.tree :: types ++ rest) }

/-- What stands behind the question mark of a condition.  In `a ? (b) : c => d` the colon belongs
to the condition and not to the arrow function `(b) : c => d`. -/
def alternatives (g : Grammar) (allowIn : Bool) : Parser (List Tree) := do
  let split (yes : Parser Tree) : Parser (List Tree) := do
    let yes ← yes
    sign ":"
    return [yes, ← g.assignment allowIn]
  if ← atSign "(" then split (g.assignment true) <|> split (Operand.tree <$> g.joined true)
  else split (g.assignment true)

/-- An expression with a condition, if it has one. -/
def conditional (g : Grammar) (allowIn : Bool) : Parser Operand := do
  let condition ← g.joined allowIn
  if ← acceptSign "?" then
    return { tree := .other (condition.tree :: (← g.alternatives allowIn)) }
  else return condition

/-- The value of an assignment, if one follows. -/
def assignedValue (g : Grammar) (allowIn : Bool) : Parser (Option Tree) := do
  match ← token with
  | .sign text =>
    if assigningSigns.contains text then
      next
      return some (← g.assignment allowIn)
    else if text == "<" || text == ">" then
      match angleOperator (← get).here with
      | (true, rest) =>
        set (Cursor.start rest)
        return some (← g.assignment allowIn)
      | (false, _) => return none
    else return none
  | _ => return none

/-- An expression with a condition or an assignment. -/
def plainAssignment (g : Grammar) (allowIn : Bool) : Parser Tree := do
  let target ← g.conditional allowIn
  match ← if target.isTarget then g.assignedValue allowIn else pure none with
  | some value => return .other [target.tree, value]
  | none => return target.tree

/-- What a generator gives out, if anything. -/
def yielded (g : Grammar) (allowIn : Bool) : Parser Tree := do
  word "yield"
  let isEnd ← do
    match ← token with
    | .ending => pure true
    | .sign text => pure ([")", "]", "\x7d", ",", ";", ":"].contains text)
    | .word text false => pure (text == "in" || text == "of")
    | _ => pure false
  if isEnd || (← lineEnded) then return .leaf
  else
    let _ ← acceptSign "*"
    g.assignment allowIn

/-- An expression without commas. -/
def assignmentBody (g : Grammar) (allowIn : Bool) : Parser Tree := do
  let plain := g.plainAssignment allowIn
  match ← token with
  | .word "yield" false => g.yielded allowIn
  | .word "async" false => firstOf [g.asyncArrow allowIn, g.namedArrow allowIn, plain]
  | .word .. =>
    if (← ahead).token == .sign "=>" then g.namedArrow allowIn else plain
  | .sign "(" => g.arrowRest allowIn <|> plain
  | .sign "<" =>
    if !g.dialect.typed then plain
    else if g.dialect.markup then plain <|> g.arrowRest allowIn
    else g.arrowRest allowIn <|> plain
  | _ => plain

end Phrasebook.Source.Grammar
