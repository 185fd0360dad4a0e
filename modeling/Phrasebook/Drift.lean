import Phrasebook.Catalog.Basic
import Phrasebook.Usage

/-!
# Drift — how a catalog differs from the keys that source code uses

`Catalog.diff` compares a catalog with the used keys.  Plural keys always need a rule set; in the
default locale, whose source text is its translation, scalar keys need no entry and an entry that
only waits for one is redundant.  The key `""` closes every file and is no translation.
`Catalog.fix` patches a catalog so that it matches, unless nothing but the marker of an earlier
fix is left to do.
-/

namespace Phrasebook

/-- The differences between the used keys and a catalog. -/
structure CatalogDiff where
  /-- Keys to be added, sorted. -/
  missing : List String := []
  /-- Keys that are unused or redundant, in catalog order. -/
  extra : List String := []
  /-- Plural keys whose entry is no rule set, in catalog order. -/
  invalidPlural : List String := []
  /-- Scalar keys whose entry is a rule set or no translation, in catalog order. -/
  kindMismatch : List String := []
  deriving DecidableEq

namespace CatalogDiff

/-- Whether keys must be added or removed. -/
def hasDrift (diff : CatalogDiff) : Bool := !diff.missing.isEmpty || !diff.extra.isEmpty

/-- Whether entries are of the wrong kind. -/
def hasInvalidEntries (diff : CatalogDiff) : Bool :=
  !diff.invalidPlural.isEmpty || !diff.kindMismatch.isEmpty

/-- Whether there is no difference at all. -/
def isClean (diff : CatalogDiff) : Bool := !diff.hasDrift && !diff.hasInvalidEntries

/-- Whether the marker of an earlier fix is the only key to add or remove. -/
def onlyMarkerLeft (diff : CatalogDiff) : Bool :=
  diff.missing.isEmpty && diff.extra == [Catalog.markerKey]

end CatalogDiff

namespace Catalog

/-- The plural keys whose entry is no rule set. -/
def invalidPlurals (catalog : Catalog) (usages : KeyUsages) : List String :=
  (catalog.entries.filter fun (key, entry) => usages.isPlural key && !entry.isPlural).map Prod.fst

/-- Whether an entry serves a key the way source code uses it. -/
def serves (usages : KeyUsages) (isDefault : Bool) (key : String) (entry : Entry) : Bool :=
  (usages.isScalar key && !(isDefault && entry.isNull)) || (usages.isPlural key && entry.isPlural)

/-- The keys that no usage needs. -/
def extraKeys (catalog : Catalog) (usages : KeyUsages) (isDefault : Bool) : List String :=
  (catalog.entries.filter fun (key, entry) =>
    key != sentinelKey && !serves usages isDefault key entry).map Prod.fst

/-- Whether an entry is a rule set or no translation, which scalar usages cannot resolve. -/
def refusesScalar : Entry → Bool
  | .plural _ => true
  | .invalid _ => true
  | _ => false

/-- The keys that are used as scalar only and cannot be resolved as scalar. -/
def mismatchedKeys (catalog : Catalog) (usages : KeyUsages) : List String :=
  (catalog.entries.filter fun (key, entry) =>
    key != sentinelKey && usages.isScalar key && !usages.isPlural key &&
      refusesScalar entry).map Prod.fst

/-- The keys that a catalog must have. -/
def requiredKeys (usages : KeyUsages) (isDefault : Bool) : KeySet :=
  if isDefault then usages.plural else usages.allKeys

/-- The differences between a catalog and the used keys, and the catalog without the plural keys
that have no rule set: these are missing, so that a fix writes them anew. -/
def diff (catalog : Catalog) (usages : KeyUsages) (isDefault : Bool) : CatalogDiff × Catalog :=
  let invalidPlural := catalog.invalidPlurals usages
  let kept := catalog.eraseAll invalidPlural
  ({ missing := (requiredKeys usages isDefault).toList.filter (!kept.contains ·)
     extra := kept.extraKeys usages isDefault
     invalidPlural
     kindMismatch := kept.mismatchedKeys usages }, kept)

end Catalog

/-- What a fix did to a catalog. -/
inductive FixOutcome where
  | keysAdded
  | translationsFixed
  | upToDate
  /-- Only the marker is left; the catalog is not touched. -/
  | hasMissingTranslations
  deriving DecidableEq

/-- The wording of an outcome. -/
def FixOutcome.message : FixOutcome → String
  | keysAdded => "keys were added"
  | translationsFixed => "translations fixed"
  | upToDate => "up to date"
  | hasMissingTranslations => "has missing translations"

namespace Catalog

/-- The entry that a fix writes for a missing key. -/
def placeholder (usages : KeyUsages) (key : String) : Entry :=
  if usages.isPlural key then .plural PluralRules.skeleton else .null

/-- The catalog with the marker at its end, unless it has one. -/
def withMarker (catalog : Catalog) : Catalog :=
  if catalog.contains markerKey then catalog else catalog.insert markerKey (.scalar markerText)

/-- The catalog with a placeholder for each of these keys. -/
def addPlaceholders (catalog : Catalog) (usages : KeyUsages) (missing : List String) : Catalog :=
  missing.foldl (fun catalog key => catalog.insert key (placeholder usages key)) catalog

/-- Patches a catalog that went through `diff`: missing keys are added below the marker, extra keys
other than the marker are removed, and the sentinel is moved to the end. -/
def fix (catalog : Catalog) (diff : CatalogDiff) (usages : KeyUsages) : FixOutcome × Catalog :=
  if diff.onlyMarkerLeft then (.hasMissingTranslations, catalog)
  else
    let open_ := catalog.erase sentinelKey
    let marked := if diff.missing.isEmpty then open_ else open_.withMarker
    let filled := marked.addPlaceholders usages diff.missing
    let unused := diff.extra.filter (· ≠ markerKey)
    let trimmed := filled.eraseAll unused
    let patched := trimmed.insert sentinelKey (.scalar "")
    let outcome :=
      if !diff.missing.isEmpty then FixOutcome.keysAdded
      else if !diff.invalidPlural.isEmpty || unused.any filled.contains then .translationsFixed
      else .upToDate
    (outcome, patched)

end Catalog

end Phrasebook
