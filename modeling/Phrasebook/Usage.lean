import Phrasebook.Template
import Phrasebook.Entry
import Phrasebook.KeySet

/-!
# Usage — the keys that source code uses

A usage is one marked template of a source file: the operation it calls for and its literal
segments. `KeyUsages` collects the keys of many usages, apart for the two operations; collecting
does not depend on the order, so files can be read one by one and their results joined.
-/

namespace Phrasebook

/-- One marked template of a source file. -/
structure Usage where
  kind : Kind
  segments : List String
  deriving DecidableEq

namespace Usage

/-- The canonical key of a usage. -/
def key (usage : Usage) : String := canonicalKey usage.segments

/-- How many slots stand between the segments. -/
def slotCount (usage : Usage) : Nat := usage.segments.length - 1

end Usage

/-- The keys used as scalar and as plural. -/
structure KeyUsages where
  scalar : KeySet
  plural : KeySet
  deriving DecidableEq

namespace KeyUsages

/-- No keys. -/
def empty : KeyUsages := ⟨.empty, .empty⟩

/-- Adds the key of a usage. -/
def add (usages : KeyUsages) (usage : Usage) : KeyUsages :=
  match usage.kind with
  | .scalar => { usages with scalar := usages.scalar.insert usage.key }
  | .plural => { usages with plural := usages.plural.insert usage.key }

/-- The keys of a list of usages. -/
def ofList (list : List Usage) : KeyUsages := list.foldl add empty

/-- The keys of either. -/
def merge (a b : KeyUsages) : KeyUsages := ⟨a.scalar.union b.scalar, a.plural.union b.plural⟩

/-- Whether no key is used. -/
def isEmpty (usages : KeyUsages) : Bool := usages.scalar.isEmpty && usages.plural.isEmpty

/-- Whether the key is used as scalar. -/
def isScalar (usages : KeyUsages) (key : String) : Bool := usages.scalar.contains key

/-- Whether the key is used as plural. -/
def isPlural (usages : KeyUsages) (key : String) : Bool := usages.plural.contains key

/-- All keys that are used. -/
def allKeys (usages : KeyUsages) : KeySet := usages.scalar.union usages.plural

/-- The keys that are used both ways. -/
def ambiguousKeys (usages : KeyUsages) : KeySet := usages.scalar.inter usages.plural

end KeyUsages

end Phrasebook
