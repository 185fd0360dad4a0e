import Phrasebook.Source.Grammar.Basic

/-!
# Source/Grammar/Types — types

Types hold usages only where they hold expressions, in computed names; their trees list these.
-/

namespace Phrasebook.Source.Grammar

open Phrasebook.Source.Parser

/-- The types between angle brackets. -/
def typeArguments (g : Grammar) : Parser Tree := do
  sign "<"
  let types ← commaList g.bound ">" g.type
  require !types.isEmpty
  return .other types

/-- The types between angle brackets, if they are there. -/
def optionalTypeArguments (g : Grammar) : Parser (List Tree) := do
  if g.dialect.typed && (← atSign "<") then return [← g.typeArguments] else return []

/-- Moves over a word as long as something that can be modified follows it in the same list. -/
def typeParameterModifier : Parser Bool := do
  match ← token with
  | .word "const" false | .word "in" false | .word "out" false =>
    match (← ahead).token with
    | .word text _ =>
      if text == "extends" then return false
      next
      return true
    | _ => return false
  | _ => return false

/-- One parameter of a generic construct. -/
def typeParameter (g : Grammar) : Parser Tree := do
  let _ ← collect (do if ← typeParameterModifier then return some () else return none) g.bound
  let _ ← anyName
  let bound ← if ← acceptWord "extends" then pure [← g.type] else pure []
  let default ← if ← acceptSign "=" then pure [← g.type] else pure []
  return .other (bound ++ default)

/-- The parameters of a generic construct, in angle brackets. -/
def typeParameters (g : Grammar) : Parser Tree := do
  sign "<"
  let parameters ← commaList g.bound ">" g.typeParameter
  require !parameters.isEmpty
  return .other parameters

/-- The parameters of a generic construct, if it is one. -/
def optionalTypeParameters (g : Grammar) : Parser (List Tree) := do
  if g.dialect.typed && (← atSign "<") then return [← g.typeParameters] else return []

/-- A name in square brackets or a name of another kind, as members have them. -/
def memberName (g : Grammar) : Parser Tree := do
  match ← token with
  | .word .. | .text _ | .number | .privateName _ =>
    next
    return .leaf
  | .sign "[" =>
    next
    let name ← g.assignment true
    sign "]"
    return .other [name]
  | _ => failure

/-- What a function may say about its result: a type, or what is known of an argument when it
returns. -/
def resultType (g : Grammar) : Parser Tree := do
  let asserted : Parser Tree := do
    word "asserts"
    require !(← lineEnded)
    match ← token with
    | .word .. => next
    | _ => failure
    if ← acceptWord "is" then g.type else return .leaf
  let known : Parser Tree := do
    let _ ← anyName
    require !(← lineEnded)
    word "is"
    g.type
  asserted <|> known <|> g.type

/-- The type behind a colon. -/
def annotation (g : Grammar) : Parser Tree := do
  sign ":"
  g.type

/-- The type behind a colon, if there is one and types are allowed. -/
def optionalAnnotation (g : Grammar) : Parser (List Tree) := do
  if g.dialect.typed && (← atSign ":") then return [← g.annotation] else return []

/-- The result behind a colon, if there is one and types are allowed. -/
def optionalResult (g : Grammar) : Parser (List Tree) := do
  if g.dialect.typed && (← atSign ":") then
    next
    return [← g.resultType]
  else return []

/-- A parameter of a function type. -/
def typedParameter (g : Grammar) : Parser Tree := do
  let _ ← acceptSign "..."
  let target ← if ← acceptWord "this" then pure Tree.leaf else g.binding
  let _ ← acceptSign "?"
  let type ← g.optionalAnnotation
  return .other (target :: type)

/-- The parameters of a function type. -/
def typedParameters (g : Grammar) : Parser Tree := do
  sign "("
  return .other (← commaList g.bound ")" g.typedParameter)

/-- A function type. -/
def functionType (g : Grammar) : Parser Tree := do
  let generic ← g.optionalTypeParameters
  let parameters ← g.typedParameters
  sign "=>"
  let result ← g.resultType
  return .other (parameters :: generic ++ [result])

/-- The type of a constructor. -/
def constructorType (g : Grammar) : Parser Tree := do
  let _ ← acceptWord "abstract"
  word "new"
  g.functionType

/-- The parameters and the result of a member that can be called. -/
def signature (g : Grammar) : Parser Tree := do
  let generic ← g.optionalTypeParameters
  let parameters ← g.typedParameters
  let result ← g.optionalResult
  return .other (parameters :: result ++ generic)

/-- Whether a word modifies the member behind it: a member name follows. -/
def modifies : Parser Bool := do
  match (← ahead).token with
  | .word .. | .text _ | .number | .privateName _ | .sign "[" => return true
  | _ => return false

/-- An index signature. -/
def indexSignature (g : Grammar) : Parser Tree := do
  sign "["
  let _ ← name
  let key ← g.annotation
  sign "]"
  let value ← g.optionalAnnotation
  return .other (key :: value)

/-- A member of an object type. -/
def typeMember (g : Grammar) : Parser Tree := do
  let called : Parser Tree := do
    require ((← atSign "(") || (← atSign "<"))
    g.signature
  let constructed : Parser Tree := do
    word "new"
    require ((← atSign "(") || (← atSign "<"))
    g.signature
  let named : Parser Tree := do
    if (← atWord "readonly") && (← modifies) then next
    let accessor : Parser Unit := do
      require ((← atWord "get") || (← atWord "set"))
      require (← modifies)
      next
    let _ ← attempt accessor
    let indexed := g.indexSignature
    let plain : Parser Tree := do
      let key ← g.memberName
      let _ ← acceptSign "?"
      if (← atSign "(") || (← atSign "<") then return .other [key, ← g.signature]
      else return .other (key :: (← g.optionalAnnotation))
    indexed <|> plain
  let member ← called <|> constructed <|> named
  unless (← acceptSign ",") do endStatement
  return member

/-- The members of an object type, braces included. -/
def objectType (g : Grammar) : Parser Tree := do
  sign "\x7b"
  let members ← collect (do
    if ← atSign "\x7d" then return none else return some (← g.typeMember)) g.bound
  sign "\x7d"
  return .other members

/-- Moves over a plus or a minus if it is there. -/
def acceptPlusOrMinus : Parser Bool := do
  if ← acceptSign "+" then return true else acceptSign "-"

/-- A type that is computed for each key. -/
def mappedType (g : Grammar) : Parser Tree := do
  sign "\x7b"
  if ← acceptPlusOrMinus then word "readonly"
  else
    if (← atWord "readonly") && (← ahead).token == .sign "[" then next
  sign "["
  let _ ← anyName
  word "in"
  let keys ← g.type
  let renamed ← if ← acceptWord "as" then pure [← g.type] else pure []
  sign "]"
  if ← acceptPlusOrMinus then sign "?"
  else
    let _ ← acceptSign "?"
  let value ← g.optionalAnnotation
  let _ ← acceptSign ";"
  let _ ← acceptSign ","
  sign "\x7d"
  return .other (keys :: renamed ++ value)

/-- A member of a tuple type. -/
def tupleMember (g : Grammar) : Parser Tree := do
  let labelled : Parser Tree := do
    let _ ← acceptSign "..."
    let _ ← anyName
    let _ ← acceptSign "?"
    g.annotation
  let plain : Parser Tree := do
    let _ ← acceptSign "..."
    let type ← g.type
    let _ ← acceptSign "?"
    return type
  labelled <|> plain

/-- A name with the members behind it, and the types it is applied to. -/
def typeName (g : Grammar) : Parser Tree := do
  let _ ← anyName
  let _ ← collect (do
    if ← acceptSign "." then
      let _ ← anyName
      return some ()
    else return none) g.bound
  if !(← lineEnded) && (← atSign "<") then return .other [← g.typeArguments] else return .leaf

/-- The type of a module that is imported. -/
def importType (g : Grammar) : Parser Tree := do
  word "import"
  sign "("
  let source ← g.type
  let attributes ← if ← acceptSign "," then pure [← g.assignment true] else pure []
  let _ ← acceptSign ","
  sign ")"
  let members ← if ← acceptSign "." then pure [← g.typeName] else g.optionalTypeArguments
  return .other (source :: attributes ++ members)

/-- The type of a value. -/
def queriedType (g : Grammar) : Parser Tree := do
  word "typeof"
  if ← atWord "import" then g.importType
  else
    match ← token with
    | .privateName _ => failure
    | _ =>
      let _ ← anyName
      let _ ← collect (do
        if ← acceptSign "." then
          match ← token with
          | .privateName _ => next
          | _ => let _ ← anyName
          return some ()
        else return none) g.bound
      if !(← lineEnded) && (← atSign "<") then return .other [← g.typeArguments] else return .leaf

/-- A template in a type; its slots are types. -/
def templateType (g : Grammar) : Parser Tree := do
  require (← atSign "\x60")
  let rec slots : Nat → Parser (List Tree)
    | 0 => failure
    | bound + 1 => do
      let cursor ← get
      match readChunk (' ' :: cursor.after) cursor.after with
      | none => failure
      | some chunk =>
        set (Cursor.start chunk.rest)
        if chunk.isLast then return []
        else
          let slot ← g.type
          require (← atSign "\x7d")
          return slot :: (← slots bound)
  return .other (← slots g.bound)

/-- A type that stands alone. -/
def primaryType (g : Grammar) : Parser Tree := do
  match ← token with
  | .text _ | .number =>
    next
    return .leaf
  | .sign "-" =>
    next
    require ((← token) == .number)
    next
    return .leaf
  | .sign "\x60" => g.templateType
  | .sign "[" =>
    next
    return .other (← commaList g.bound "]" g.tupleMember)
  | .sign "\x7b" => g.mappedType <|> g.objectType
  | .sign "(" =>
    next
    let type ← g.type
    sign ")"
    return type
  | .word "typeof" false => g.queriedType
  | .word "import" false => g.importType
  | .word text escaped =>
    if !escaped && ["void", "null", "this", "true", "false"].contains text then
      next
      return .leaf
    else
      require (nameOf? (.word text escaped)).isSome
      g.typeName
  | _ => failure

/-- A type with the brackets behind it. -/
def postfixType (g : Grammar) : Parser Tree := do
  let first ← g.primaryType
  let rest ← collect (do
    if !(← lineEnded) && (← atSign "[") then
      next
      if ← acceptSign "]" then return some Tree.leaf
      else
        let index ← g.type
        sign "]"
        return some index
    else return none) g.bound
  return .other (first :: rest)

/-- A type with the words in front of it. -/
def prefixedType (g : Grammar) : Nat → Parser Tree
  | 0 => failure
  | bound + 1 => do
    match ← token with
    | .word "keyof" false | .word "unique" false | .word "readonly" false =>
      next
      g.prefixedType bound
    | .word "infer" false =>
      next
      let _ ← name
      let constraint : Parser Tree := do
        word "extends"
        let type ← g.prefixedType bound
        require !(← atSign "?")
        return type
      return .other (← attempt constraint).toList
    | _ => g.postfixType

/-- Types joined by a sign, which may also stand in front of the first one. -/
def joinedTypes (g : Grammar) (joint : String) (item : Parser Tree) : Parser Tree := do
  let _ ← acceptSign joint
  let first ← item
  let rest ← collect (do
    if ← acceptSign joint then return some (← item) else return none) g.bound
  return .other (first :: rest)

/-- A type without a condition, functions included. -/
def unconditionalType (g : Grammar) : Parser Tree := do
  let startsFunction ← do
    match ← token with
    | .sign "<" | .sign "(" => pure true
    | _ => pure false
  let startsConstructor :=
    (← atWord "new") || ((← atWord "abstract") && (← ahead).token == .word "new" false)
  let item := g.prefixedType g.bound
  let joined := g.joinedTypes "|" (g.joinedTypes "&" item)
  if startsConstructor then g.constructorType
  else if startsFunction then g.functionType <|> joined
  else joined

/-- A type, with a condition if one follows. -/
def typeBody (g : Grammar) : Parser Tree := do
  let checked ← g.unconditionalType
  if !(← lineEnded) && (← atWord "extends") then
    next
    let bound ← g.unconditionalType
    sign "?"
    let yes ← g.type
    sign ":"
    let no ← g.type
    return .other [checked, bound, yes, no]
  else return checked

end Phrasebook.Source.Grammar
