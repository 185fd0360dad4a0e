import Phrasebook.Source.Grammar.Types

/-!
# Source/Grammar/Markup — markup elements

An element has a name, attributes and children; between the brackets and braces of its children
stands text, which holds no usages.  A closing bracket must repeat the name.  The parser of an
element starts behind its first bracket and stops at its last one, since what follows can be text
or code.
-/

namespace Phrasebook.Source.Grammar

open Phrasebook.Source.Parser

/-- The text behind a name of markup, which may hold dashes. -/
def markupWord : Parser String := do
  let cursor ← get
  match cursor.token with
  | .word .. =>
    let isPart := fun c => isNamePart c || c = '-'
    set (Cursor.start (cursor.here.dropWhile isPart))
    return String.ofList (cursor.here.takeWhile isPart)
  | _ => failure

/-- The name of an element: a word, one with a namespace, or a member. -/
def elementName (g : Grammar) : Parser String := do
  let first ← markupWord
  if ← acceptSign ":" then return first ++ ":" ++ (← markupWord)
  else
    let members ← collect (do
      if ← acceptSign "." then return some ("." ++ (← markupWord)) else return none) g.bound
    return first ++ String.join members

/-- The value of an attribute: a quoted text without escapes, an expression in braces or an element.
The cursor is at the equals sign. -/
def elementAttributeValue (g : Grammar) : Parser Tree := do
  let quotedBy (quote : Char) (rest : List Char) : Parser Tree := do
    match rest.dropWhile (· ≠ quote) with
    | [] => failure
    | _ :: rest =>
      set (Cursor.start rest)
      return .leaf
  match skipBlanks .plain false (← get).after with
  | some (_, '"' :: rest) => quotedBy '"' rest
  | some (_, '\x27' :: rest) => quotedBy '\x27' rest
  | _ =>
    next
    if ← acceptSign "\x7b" then
      let value ← g.expression true
      sign "\x7d"
      return value
    else
      sign "<"
      let value ← g.element
      next
      return value

/-- An attribute. -/
def elementAttribute (g : Grammar) : Parser Tree := do
  if ← acceptSign "\x7b" then
    sign "..."
    let value ← g.assignment true
    sign "\x7d"
    return value
  else
    let _ ← markupWord
    if ← acceptSign ":" then
      let _ ← markupWord
    if ← atSign "=" then g.elementAttributeValue else return .leaf

/-- A child in braces: an expression, a list of children that is spread, or nothing.  The cursor is
behind the opening brace. -/
def childInBraces (g : Grammar) : Parser Tree := do
  if ← atSign "\x7d" then return .leaf
  else
    let _ ← acceptSign "..."
    g.expression true

/-- The children of an element, from behind a sign that text follows, up to the bracket that opens
the closing one. -/
def children (g : Grammar) : Nat → Parser (List Tree)
  | 0 => failure
  | bound + 1 => do
    let rest := (← get).after.dropWhile fun c => c ≠ '<' && c ≠ '\x7b'
    match rest with
    | [] => failure
    | '\x7b' :: rest =>
      set (Cursor.start rest)
      let child ← g.childInBraces
      require (← atSign "\x7d")
      return child :: (← g.children bound)
    | _ :: rest =>
      set (Cursor.start rest)
      if ← atSign "/" then return []
      else
        let child ← g.element
        return child :: (← g.children bound)

/-- The rest of an element behind its name: attributes, children and the closing bracket. -/
def elementRest (g : Grammar) (name : String) : Parser Tree := do
  let types ← g.optionalTypeArguments
  let attributes ← collect (do
    match ← token with
    | .word .. | .sign "\x7b" => return some (← g.elementAttribute)
    | _ => return none) g.bound
  if ← acceptSign "/" then
    require (← atSign ">")
    return .other (attributes ++ types)
  else
    require (← atSign ">")
    let children ← g.children g.bound
    sign "/"
    require ((← g.elementName) == name)
    require (← atSign ">")
    return .other (attributes ++ types ++ children)

/-- An element, or a fragment, which has neither name nor attributes. -/
def elementBody (g : Grammar) : Parser Tree := do
  if ← atSign ">" then
    let children ← g.children g.bound
    sign "/"
    require (← atSign ">")
    return .other children
  else
    let name ← g.elementName
    g.elementRest name

end Phrasebook.Source.Grammar
