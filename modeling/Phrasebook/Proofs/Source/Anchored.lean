import Phrasebook.Proofs.Source.Place
import Phrasebook.Source.Tree

/-!
# Proofs/Source/Anchored — trees whose markers stand in a text

A tree does not record where its parts come from.  It is anchored in a text if the text has a place
for each name that can be a marker: followed by a parenthesis for the callee of a call, and by a
backquote for the tag of a template, which has a slot between any two chunks.  **Then the text has a
place for each usage of the tree** (`Tree.Anchored.usages`).
-/

namespace Phrasebook.Source

/-- Whether the text has a place where the sign stands behind the name. -/
def Marked (text : List Char) (name : String) (sign : Char) : Prop :=
  ∃ place : Place, place.Shows name sign text

namespace Tree

mutual

/-- The text has a place for each callee and each tag of the tree, and its templates have slots just
between their chunks. -/
def Anchored (text : List Char) : Tree → Prop
  | name _ => True
  | member object _ => Anchored text object
  | call callee arguments =>
    (∀ name, callee.markerName? = some name → Marked text name '(') ∧
      Anchored text callee ∧ AllAnchored text arguments
  | tagged tag types chunks slots =>
    (∀ name, tag.markerName? = some name → Marked text name '\x60') ∧
      Anchored text tag ∧ AllAnchored text types ∧ AllAnchored text slots ∧
      chunks.length = slots.length + 1
  | other parts => AllAnchored text parts

/-- The trees are anchored in the text. -/
def AllAnchored (text : List Char) : List Tree → Prop
  | [] => True
  | tree :: rest => Anchored text tree ∧ AllAnchored text rest

end

theorem allAnchored_iff {text : List Char} {trees : List Tree} :
    AllAnchored text trees ↔ ∀ tree ∈ trees, Anchored text tree := by
  induction trees with
  | nil => simp [AllAnchored]
  | cons tree rest ih => simp [AllAnchored, ih]

/-- A tag that marks an operation has its place. -/
theorem Anchored.kind {text : List Char} {markers : Markers} {tag : Tree} {kind : Kind}
    (hname : ∀ name, tag.markerName? = some name → Marked text name '\x60')
    (htag : tag.Anchored text) (h : tag.kind? markers = some kind) :
    Marked text (markers.name kind) kind.sign := by
  unfold kind? at h
  split at h
  · next hscalar =>
    cases h
    exact hname _ hscalar
  · split at h
    · next callee arguments _ =>
      split at h
      · next hplural =>
        cases h
        rw [Anchored] at htag
        exact htag.1 _ hplural
      · cases h
    · cases h

mutual

/-- **The text has a place for each usage of an anchored tree.** -/
theorem Anchored.usages {text : List Char} {markers : Markers} :
    ∀ {tree : Tree}, tree.Anchored text →
      ∀ usage ∈ tree.usages markers, Marked text (markers.name usage.kind) usage.kind.sign
  | name _, _, usage, husage => by simp [Tree.usages] at husage
  | member object _, h, usage, husage => by
    rw [Anchored] at h
    rw [Tree.usages] at husage
    exact Anchored.usages h usage husage
  | call callee arguments, h, usage, husage => by
    rw [Anchored] at h
    rw [Tree.usages, List.mem_append] at husage
    obtain husage | husage := husage
    · exact Anchored.usages h.2.1 usage husage
    · exact AllAnchored.usages h.2.2 usage husage
  | tagged tag types chunks slots, h, usage, husage => by
    rw [Anchored] at h
    rw [Tree.usages, List.mem_append, List.mem_append, List.mem_append] at husage
    obtain husage | husage | husage | husage := husage
    · rw [Option.mem_toList, usage?] at husage
      split at husage
      · next kind segments hkind _ =>
        cases husage
        exact h.2.1.kind h.1 hkind
      · cases husage
    · exact Anchored.usages h.2.1 usage husage
    · exact AllAnchored.usages h.2.2.1 usage husage
    · exact AllAnchored.usages h.2.2.2.1 usage husage
  | other parts, h, usage, husage => by
    rw [Anchored] at h
    rw [Tree.usages] at husage
    exact AllAnchored.usages h usage husage

theorem AllAnchored.usages {text : List Char} {markers : Markers} :
    ∀ {trees : List Tree}, AllAnchored text trees →
      ∀ usage ∈ usagesOfAll markers trees, Marked text (markers.name usage.kind) usage.kind.sign
  | [], _, usage, husage => by simp [usagesOfAll] at husage
  | tree :: rest, h, usage, husage => by
    rw [AllAnchored] at h
    rw [usagesOfAll, List.mem_append] at husage
    obtain husage | husage := husage
    · exact Anchored.usages h.1 usage husage
    · exact AllAnchored.usages h.2 usage husage

end

end Tree

end Phrasebook.Source
