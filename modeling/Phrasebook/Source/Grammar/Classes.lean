import Phrasebook.Source.Grammar.Bindings
import Phrasebook.Source.Grammar.Expressions

/-!
# Source/Grammar/Classes — classes

A class lists its members before what it extends, so usages inside of it come before those in the
head; the types of the head come last.
-/

namespace Phrasebook.Source.Grammar

open Phrasebook.Source.Parser

/-- Words that can stand in front of a member. -/
def memberModifiers (g : Grammar) : List String :=
  if g.dialect.typed then
    ["static", "accessor", "declare", "abstract", "readonly", "override", "public", "private",
      "protected"]
  else ["static"]

/-- Moves over a word that modifies the member behind it. -/
def memberModifier (g : Grammar) : Parser Bool := do
  match ← token with
  | .word text false =>
    if g.memberModifiers.contains text && ((← modifies) || (← ahead).token == .sign "*") then
      next
      return true
    else return false
  | _ => return false

/-- Moves over the words and the sign that make a member a function of a special kind, if they are
there. -/
def methodModifier : Parser Bool := do
  let word ← do
    match ← token with
    | .word "async" false =>
      let cursor ← ahead
      pure (!cursor.lineEnded && (cursor.token == .sign "*" || (← modifies)))
    | .word "get" false | .word "set" false => modifies
    | _ => pure false
  if word then next
  let starred ← acceptSign "*"
  return word || starred

/-- A member that has a name: a function or a property. -/
def namedMember (g : Grammar) : Parser Tree := do
  let isMethod ← methodModifier
  let key ← g.memberName
  if g.dialect.typed && !isMethod then
    if (← atSign "?") || (← atSign "!") then next
  if (← atSign "(") || (g.dialect.typed && (← atSign "<")) then
    return .other [key, ← g.functionRest]
  else if isMethod then failure
  else
    let type ← g.optionalAnnotation
    let value ← g.initializer true
    endStatement
    return .other (key :: value ++ type)

/-- A member of a class. -/
def classMember (g : Grammar) : Parser Tree := do
  if ← acceptSign ";" then return .leaf
  else if (← atWord "static") && (← ahead).token == .sign "\x7b" then
    next
    g.block
  else
    let _ ← collect (do if ← g.memberModifier then return some () else return none) g.bound
    let signature : Parser Tree := do
      require g.dialect.typed
      let member ← g.indexSignature
      endStatement
      return member
    signature <|> g.namedMember

/-- What a class extends, and the types it is applied to. -/
def superclass (g : Grammar) : Parser (List Tree × List Tree) := do
  if ← acceptWord "extends" then
    let parent ← g.operand
    return ([parent.tree], ← g.optionalTypeArguments)
  else return ([], [])

/-- What a class implements. -/
def implemented (g : Grammar) : Parser (List Tree) := do
  if g.dialect.typed && (← atWord "implements") then
    next
    commaItems g.bound g.typeName
  else return []

/-- A class from its name on. -/
def classBody (g : Grammar) : Parser Tree := do
  let named : Parser Unit := do
    require ((← name) != "implements")
  let _ ← attempt named
  let generic ← g.optionalTypeParameters
  let parent ← g.superclass
  let types ← g.implemented
  sign "\x7b"
  let members ← collect (do
    if ← atSign "\x7d" then return none else return some (← g.classMember)) g.bound
  sign "\x7d"
  return .other (members ++ parent.1 ++ generic ++ parent.2 ++ types)

end Phrasebook.Source.Grammar
