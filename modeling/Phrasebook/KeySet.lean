/-!
# KeySet — sorted sets of keys

A key set lists its keys in strictly increasing order, so equal sets are equal lists and a key is
listed once.
-/

namespace Phrasebook

/-- A set of keys. -/
structure KeySet where
  toList : List String
  sorted : toList.Pairwise (· < ·)
  deriving DecidableEq

namespace KeySet

/-- Puts a key into its place of an increasing list. -/
def place (key : String) : List String → List String
  | [] => [key]
  | x :: rest =>
    if key < x then key :: x :: rest
    else if key = x then x :: rest
    else x :: place key rest

theorem mem_place {key y : String} {keys : List String} :
    y ∈ place key keys ↔ y = key ∨ y ∈ keys := by
  induction keys with
  | nil => simp [place]
  | cons x rest ih =>
    unfold place
    split
    · simp
    · split
      · subst_vars
        simp
      · simp only [List.mem_cons, ih]
        grind

theorem lt_of_not_lt {a b : String} (h : ¬a < b) (hne : a ≠ b) : b < a :=
  String.not_le.1 fun hle => hne (String.le_antisymm hle (String.not_lt.1 h))

/-- **Placing a key keeps the list increasing.** -/
theorem sorted_place {key : String} {keys : List String} (h : keys.Pairwise (· < ·)) :
    (place key keys).Pairwise (· < ·) := by
  induction keys with
  | nil => simp [place]
  | cons x rest ih =>
    have hx := List.pairwise_cons.1 h
    unfold place
    split
    · rename_i hlt
      refine List.pairwise_cons.2 ⟨fun y hy => ?_, h⟩
      rcases List.mem_cons.1 hy with rfl | hy
      · exact hlt
      · exact String.lt_trans hlt (hx.1 y hy)
    · split
      · exact h
      · rename_i hlt hne
        refine List.pairwise_cons.2 ⟨fun y hy => ?_, ih hx.2⟩
        rcases mem_place.1 hy with rfl | hy
        · exact lt_of_not_lt hlt hne
        · exact hx.1 y hy

/-- The set without keys. -/
def empty : KeySet := ⟨[], List.Pairwise.nil⟩

/-- Adds a key. -/
def insert (set : KeySet) (key : String) : KeySet := ⟨place key set.toList, sorted_place set.sorted⟩

/-- The set of the keys of a list. -/
def ofList (keys : List String) : KeySet := keys.foldl insert empty

/-- Whether the key is in the set. -/
def contains (set : KeySet) (key : String) : Bool := set.toList.contains key

/-- Removes a key. -/
def erase (set : KeySet) (key : String) : KeySet :=
  ⟨set.toList.filter (· ≠ key), set.sorted.sublist List.filter_sublist⟩

/-- The keys of either set. -/
def union (a b : KeySet) : KeySet := b.toList.foldl insert a

/-- The keys of both sets. -/
def inter (a b : KeySet) : KeySet :=
  ⟨a.toList.filter b.contains, a.sorted.sublist List.filter_sublist⟩

/-- Whether the set has no keys. -/
def isEmpty (set : KeySet) : Bool := set.toList.isEmpty

end KeySet

end Phrasebook
