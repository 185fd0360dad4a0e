import Phrasebook.Entry

/-!
# Catalog/Basic — locale catalogs as ordered maps

A catalog maps canonical keys to entries and remembers their order: a key that is inserted anew
stands last, one that is replaced keeps its place, and a removal leaves the order of the others
alone.  That keys are distinct is part of the type.
-/

namespace Phrasebook

/-- The catalog of one locale. -/
structure Catalog where
  entries : List (String × Entry)
  distinct : (Fields.names entries).Nodup
  deriving DecidableEq

namespace Catalog

/-- The key that closes every written catalog, with the empty text. -/
def sentinelKey : String := ""

/-- The key of the marker that stands above keys added by a fix. -/
def markerKey : String := "👇 missing translations 👇"

/-- The text of the marker. -/
def markerText : String := "🛑 delete this line 🛑"

/-- The catalog without entries. -/
def empty : Catalog := ⟨[], List.nodup_nil⟩

/-- The entry of a key. -/
def get? (catalog : Catalog) (key : String) : Option Entry := Fields.get? key catalog.entries

/-- Whether the key has an entry. -/
def contains (catalog : Catalog) (key : String) : Bool := (catalog.get? key).isSome

/-- Sets the entry of a key: in its place if the key is known, else at the end. -/
def insert (catalog : Catalog) (key : String) (entry : Entry) : Catalog :=
  ⟨Fields.put key entry catalog.entries, Fields.nodup_names_put catalog.distinct⟩

/-- Removes a key and keeps the order of the others. -/
def erase (catalog : Catalog) (key : String) : Catalog :=
  ⟨Fields.without key catalog.entries, Fields.nodup_names_without catalog.distinct⟩

/-- Sets the entry of a key and answers the one that it had. -/
def getThenInsert? (catalog : Catalog) (key : String) (entry : Entry) : Option Entry × Catalog :=
  (catalog.get? key, catalog.insert key entry)

/-- Removes a key and answers the entry that it had. -/
def getThenErase? (catalog : Catalog) (key : String) : Option Entry × Catalog :=
  (catalog.get? key, catalog.erase key)

/-- Removes several keys. -/
def eraseAll (catalog : Catalog) (keys : List String) : Catalog := keys.foldl erase catalog

/-- The keys in order. -/
def keys (catalog : Catalog) : List String := Fields.names catalog.entries

/-- The number of keys. -/
def size (catalog : Catalog) : Nat := catalog.entries.length

/-- The catalog that the fields of an object denote. -/
def ofFields (fields : List (String × Json)) : Catalog :=
  fields.foldl (fun catalog (key, value) => catalog.insert key (Entry.classify value)) empty

/-- The entries as the fields of an object. -/
def toFields (catalog : Catalog) : List (String × Json) :=
  catalog.entries.map fun (key, entry) => (key, entry.toJson)

/-- Whether two catalogs have the same keys with the same entries, in whatever order. -/
def sameEntries (a b : Catalog) : Bool :=
  a.size == b.size && a.entries.all fun (key, entry) => b.get? key == some entry

end Catalog

end Phrasebook
