import Phrasebook.Template
import Phrasebook.Interpolation
import Phrasebook.Catalog.Text

/-!
# Resolution — the text that a call site shows

A call site gives a template and slot values, and a plural one a count.  Its canonical key is
looked up in a catalog; an entry of the right kind gives the text, whose slot markers are filled,
and no entry or an empty text gives the fallback.  An entry of the wrong kind is an error.
-/

namespace Phrasebook

/-- A text, or another one if it is empty. -/
def orElseText (text fallback : String) : String := if text = "" then fallback else text

/-- A text with its slots filled; without arguments it is shown as it is. -/
def fillSlots (text : String) (arguments : List String) : String :=
  if arguments.isEmpty then text else Interpolation.interpolate text arguments

/-- The sign that the count replaces in the texts of a rule set. -/
def countPlaceholder : Char := '#'

/-- A text with the count in the place of its first placeholder. -/
def withCount (text : String) (count : Int) : String :=
  String.ofList (Text.replaceFirst countPlaceholder (Decimal.ofInt count).toList text.toList)

/-- Whether the count lies above the limit of a rule set. -/
def PluralRules.isMany (rules : PluralRules) (count : Int) : Bool :=
  match rules.limit with
  | some limit => limit < Float.ofInt count
  | none => false

/-- **The text of a rule set for a count**: the one for zero or one item if it is that count and the
text is there, else the one for many if the count is above the limit, else the general one. -/
def PluralRules.select (rules : PluralRules) (count : Int) : Option String :=
  match (if count = 0 then rules.zeroText else none) with
  | some text => some text
  | none =>
    match (if count = 1 then rules.oneText else none) with
    | some text => some text
    | none =>
      match (if rules.isMany count then rules.manyText else none) with
      | some text => some text
      | none => rules.otherText.map (withCount · count)

namespace Catalog

/-- The text of a scalar call site. -/
def resolveScalar (catalog : Catalog) (template : Template) (arguments : List String) :
    Except Error String :=
  let fallback := template.fallback arguments
  match catalog.get? template.key with
  | none => .ok fallback
  | some .null => .ok fallback
  | some (.scalar text) => .ok (orElseText (fillSlots text arguments) fallback)
  | some (.plural _) => .error (.kindMismatch template.key .plural)
  | some (.invalid value) => .error (.invalidEntry template.key value)

/-- What a plural call site shows, and whether its rule set had no text for the count. -/
structure PluralText where
  text : String
  noRule : Bool := false
  deriving DecidableEq

/-- The text of a plural call site. -/
def resolvePlural (catalog : Catalog) (template : Template) (count : Int)
    (arguments : List String) : Except Error PluralText :=
  let fallback := template.fallback arguments
  match catalog.get? template.key with
  | none => .ok { text := fallback }
  | some .null => .ok { text := fallback }
  | some (.scalar text) =>
    if text = "" then .ok { text := fallback } else .error (.kindMismatch template.key .scalar)
  | some (.plural rules) =>
    match rules.select count with
    | some text => .ok { text := orElseText (fillSlots text arguments) fallback }
    | none => .ok { text := fallback, noRule := true }
  | some (.invalid value) => .error (.invalidEntry template.key value)

end Catalog

end Phrasebook
