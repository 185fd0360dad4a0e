import Phrasebook.Text.Search
import Phrasebook.Text.Decimal

/-!
# Template — the literal structure of one tagged template

A tagged template is a list of literal segments with a slot between any two neighbours.  Its
**canonical key** names the slots by position (`Hello {1}, you have {2} messages`), so the key does
not depend on what is put into them.  Its **fallback** is the text shown when no catalog has an
entry: the segments with the slot values written in, cut at the first variant marker `~~`.
-/

namespace Phrasebook

/-- What introduces a variant suffix, as in `Save~~toolbar`. -/
def variantMarker : List Char := ['~', '~']

/-- The marker of the slot with the given number. -/
def slotMarker (slot : Nat) : String := "\x7b" ++ Decimal.ofNat slot ++ "\x7d"

/-- The segments with slot markers between neighbours, numbered from `slot`. -/
def keyFrom (slot : Nat) : List String → String
  | [] => ""
  | [segment] => segment
  | segment :: next :: rest => segment ++ slotMarker slot ++ keyFrom (slot + 1) (next :: rest)

/-- The canonical key of a list of segments: slots are numbered from one. -/
def canonicalKey (segments : List String) : String := keyFrom 1 segments

/-- Each segment followed by its value, as long as there are values. -/
def interleave : List String → List String → String
  | [], _ => ""
  | segment :: rest, [] => segment ++ interleave rest []
  | segment :: rest, value :: values => segment ++ value ++ interleave rest values

/-- A text without its variant suffix. -/
def withoutVariant (text : String) : String :=
  String.ofList (Text.before variantMarker text.toList)

/-- The text a call site shows when no catalog has an entry for it. -/
def fallbackText (segments values : List String) : String :=
  withoutVariant (interleave segments values)

/-- A tagged template: at least one literal segment, and a slot between any two neighbours. -/
structure Template where
  segments : List String
  nonempty : segments ≠ []

namespace Template

/-- The template with these segments; no segment at all means the empty text. -/
def ofSegments : List String → Template
  | [] => ⟨[""], by simp⟩
  | segment :: rest => ⟨segment :: rest, by simp⟩

/-- How many slots the template has. -/
def slotCount (template : Template) : Nat := template.segments.length - 1

/-- The canonical key of the template. -/
def key (template : Template) : String := canonicalKey template.segments

/-- The fallback text of the template for these slot values. -/
def fallback (template : Template) (values : List String) : String :=
  fallbackText template.segments values

end Template

end Phrasebook
