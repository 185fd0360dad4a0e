import Phrasebook.Json.Value

/-!
# Entry — what a catalog holds for one key

The JSON value of a key is classified once, when the catalog is read: a string is a scalar
translation, an object whose known fields have the right types is a plural rule set, `null` is an
entry that waits for its translation, and anything else is kept as it is but is not a translation.
`Entry.toJson` writes an entry back: known plural fields first and in one order, unknown ones behind
them in the order they were read.
-/

namespace Phrasebook

/-- The two operations that resolve a key. -/
inductive Kind where
  | scalar
  | plural
  deriving DecidableEq

/-- The name of an operation. -/
def Kind.name : Kind → String
  | scalar => "scalar"
  | plural => "plural"

/-- A plural rule set: up to four texts, the count above which `many` applies, and the fields that
no rule is about. -/
structure PluralRules where
  zero : Option String := none
  one : Option String := none
  other : Option String := none
  many : Option String := none
  manyLimit : Option Json.Number := none
  extra : List (String × Json) := []
  deriving DecidableEq

/-- A text that is present and not empty. -/
def nonEmpty (text : Option String) : Option String := text.filter (· ≠ "")

namespace PluralRules

/-- The text for no item at all; an empty text counts as absent. -/
def zeroText (rules : PluralRules) : Option String := nonEmpty rules.zero

/-- The text for one item. -/
def oneText (rules : PluralRules) : Option String := nonEmpty rules.one

/-- The text for any other count. -/
def otherText (rules : PluralRules) : Option String := nonEmpty rules.other

/-- The text for counts above the limit. -/
def manyText (rules : PluralRules) : Option String := nonEmpty rules.many

/-- The limit above which `many` applies; zero counts as absent. -/
def limit (rules : PluralRules) : Option Float :=
  (rules.manyLimit.map Json.Number.toDouble).filter (· != 0)

/-- The rule set that stands for a missing plural translation until somebody writes one. -/
def skeleton : PluralRules where
  zero := some "🛑 zero 🛑"
  one := some "🛑 one 🛑"
  other := some "🛑 # items 🛑"
  many := some "🛑 many 🛑"
  manyLimit := some (.whole 50)

/-- The names of the fields that rules are about, in the order in which they are written. -/
def knownFields : List String := ["zero", "one", "+2", "many", "manyLimit"]

/-- The optional text that a field holds; `none` if it holds something else. -/
def textField? (name : String) (fields : List (String × Json)) : Option (Option String) :=
  match Fields.get? name fields with
  | none => some none
  | some .null => some none
  | some (.string text) => some (some text)
  | some _ => none

/-- The optional number that a field holds; `none` if it holds something else. -/
def numberField? (name : String) (fields : List (String × Json)) : Option (Option Json.Number) :=
  match Fields.get? name fields with
  | none => some none
  | some .null => some none
  | some (.number n) => some (some n)
  | some _ => none

/-- The rule set that an object denotes: each known field is absent, `null` or of its type. -/
def ofFields? (fields : List (String × Json)) : Option PluralRules := do
  let zero ← textField? "zero" fields
  let one ← textField? "one" fields
  let other ← textField? "+2" fields
  let many ← textField? "many" fields
  let manyLimit ← numberField? "manyLimit" fields
  return { zero, one, other, many, manyLimit,
           extra := fields.filter fun field => !knownFields.contains field.1 }

/-- The fields of an optional text: one or none. -/
def textFields (name : String) (text : Option String) : List (String × Json) :=
  (text.map fun text => (name, Json.string text)).toList

/-- A rule set as the fields of an object. -/
def toFields (rules : PluralRules) : List (String × Json) :=
  textFields "zero" rules.zero ++ textFields "one" rules.one ++ textFields "+2" rules.other ++
    textFields "many" rules.many ++
    (rules.manyLimit.map fun n => ("manyLimit", Json.number n)).toList ++ rules.extra

end PluralRules

/-- What a catalog holds for one key. -/
inductive Entry where
  | scalar (text : String)
  | plural (rules : PluralRules)
  | null
  | invalid (value : Json)
  deriving DecidableEq

namespace Entry

/-- The entry that a JSON value denotes. -/
def classify : Json → Entry
  | .null => .null
  | .string text => .scalar text
  | .object fields =>
    match PluralRules.ofFields? fields with
    | some rules => .plural rules
    | none => .invalid (.object fields)
  | value => .invalid value

/-- An entry as the JSON value that is written for it. -/
def toJson : Entry → Json
  | scalar text => .string text
  | plural rules => .object rules.toFields
  | null => .null
  | invalid value => value

/-- The operation that an entry answers, if it is a translation. -/
def kind : Entry → Option Kind
  | scalar _ => some .scalar
  | plural _ => some .plural
  | null => none
  | invalid _ => none

/-- Whether the entry is a plural rule set. -/
def isPlural : Entry → Bool
  | plural _ => true
  | _ => false

/-- Whether the entry waits for its translation. -/
def isNull : Entry → Bool
  | null => true
  | _ => false

end Entry

end Phrasebook
