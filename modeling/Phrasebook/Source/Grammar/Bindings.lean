import Phrasebook.Source.Grammar.Types

/-!
# Source/Grammar/Bindings — names, patterns, parameters and functions

A declaration binds a name or takes a value apart by a pattern.  Patterns hold expressions in their
defaults and computed names.  The tree of a function lists its types last, behind the body.
-/

namespace Phrasebook.Source.Grammar

open Phrasebook.Source.Parser

/-- The value behind an equals sign, if there is one. -/
def initializer (g : Grammar) (allowIn : Bool) : Parser (List Tree) := do
  if ← acceptSign "=" then return [← g.assignment allowIn] else return []

/-- A target with its default. -/
def bindingElement (g : Grammar) : Parser Tree := do
  let target ← g.binding
  return .other (target :: (← g.initializer true))

/-- What a pattern takes out of an object. -/
def bindingProperty (g : Grammar) : Parser Tree := do
  if ← acceptSign "..." then g.binding
  else
    let keyed : Parser Tree := do
      let key ← g.memberName
      sign ":"
      return .other [key, ← g.bindingElement]
    let short : Parser Tree := do
      let _ ← name
      return .other (← g.initializer true)
    keyed <|> short

/-- What a pattern takes out of a list; a place may be left empty. -/
def bindingItem (g : Grammar) : Parser Tree := do
  if ← atSign "," then return .leaf
  else if ← acceptSign "..." then g.binding
  else g.bindingElement

/-- A name or a pattern. -/
def bindingBody (g : Grammar) : Parser Tree := do
  match ← token with
  | .sign "\x7b" =>
    next
    return .other (← commaList g.bound "\x7d" g.bindingProperty)
  | .sign "[" =>
    next
    return .other (← commaList g.bound "]" g.bindingItem)
  | _ =>
    let _ ← name
    return .leaf

/-- Words that turn a parameter of a constructor into a member. -/
def parameterModifiers : List String := ["public", "private", "protected", "readonly", "override"]

/-- Moves over a word that modifies the parameter behind it. -/
def parameterModifier : Parser Bool := do
  match ← token with
  | .word text false =>
    if parameterModifiers.contains text then
      match (← ahead).token with
      | .word .. | .sign "\x7b" | .sign "[" =>
        next
        return true
      | _ => return false
    else return false
  | _ => return false

/-- A parameter of a function. -/
def parameter (g : Grammar) : Parser Tree := do
  if g.dialect.typed then
    let _ ← collect (do if ← parameterModifier then return some () else return none) g.bound
  if ← acceptSign "..." then
    let target ← g.binding
    return .other (target :: (← g.optionalAnnotation))
  else
    let target ←
      if g.dialect.typed && (← atWord "this") then
        next
        pure Tree.leaf
      else g.binding
    if g.dialect.typed then
      let _ ← acceptSign "?"
    let type ← g.optionalAnnotation
    let default ← g.initializer true
    return .other (target :: type ++ default)

/-- The parameters of a function. -/
def parameters (g : Grammar) : Parser Tree := do
  sign "("
  return .other (← commaList g.bound ")" g.parameter)

/-- A function from its parameters on; where types are allowed its body may be left out. -/
def functionRest (g : Grammar) : Parser Tree := do
  let generic ← g.optionalTypeParameters
  let parameters ← g.parameters
  let result ← g.optionalResult
  let body ←
    if ← atSign "\x7b" then pure [← g.block]
    else
      require g.dialect.typed
      endStatement
      pure []
  return .other (parameters :: body ++ generic ++ result)

/-- A function from its parameters on, with its body. -/
def functionWithBody (g : Grammar) : Parser Tree := do
  let generic ← g.optionalTypeParameters
  let parameters ← g.parameters
  let result ← g.optionalResult
  let body ← g.block
  return .other (parameters :: body :: generic ++ result)

end Phrasebook.Source.Grammar
