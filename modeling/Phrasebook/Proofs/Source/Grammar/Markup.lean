import Phrasebook.Proofs.Source.Grammar.Types
import Phrasebook.Source.Grammar.Markup

/-!
# Proofs/Source/Grammar/Markup — elements keep to their text

Between its tags an element is plain text, which is skipped and not read as tokens: up to the next
tag or brace for children, up to the same quote for an attribute, and to the end of a hyphenated
word.  Where the parser goes on is then an end of what was skipped.
-/

set_option synthInstance.maxSize 4096

namespace Phrasebook.Source.Grammar

open Phrasebook.Source.Parser

variable {text : List Char} {g : Grammar} [g.Sound]

/-- A word of markup may hold dashes, so its end is looked for in the text. -/
instance : Keeps text markupWord := by
  rw [markupWord]
  refine .seq fun cursor hcursor => ?_
  split
  · exact .and_then (keeps_set_start ((List.dropWhile_suffix _).trans hcursor.holds.here))
      fun _ _ => inferInstance
  · infer_instance

instance : Keeps text g.elementName := by
  rw [elementName]
  infer_instance

/-- A quoted text ends inside of the text that it starts in. -/
theorem keeps_quoted {quote first : Char} {rest : List Char} (hrest : first :: rest <:+ text) :
    Keeps text (match rest.dropWhile (· ≠ quote) with
      | [] => failure
      | _ :: rest => do
        set (Cursor.start rest)
        return .leaf : Parser Tree) := by
  split
  · infer_instance
  · next after h =>
    have hafter : after <:+ rest := (List.suffix_cons _ _).trans (h ▸ List.dropWhile_suffix _)
    have htext := (suffix_cons_of_suffix hafter).trans hrest
    exact .and_then (keeps_set_start htext) fun _ _ => inferInstance

/-- A quoted value has no escapes, so it ends at the next quote of its kind. -/
instance : Keeps text g.elementAttributeValue := by
  rw [elementAttributeValue]
  refine .seq fun cursor hcursor => ?_
  split
  · next h => exact keeps_quoted ((skipBlanks_suffix h).trans hcursor.holds.after)
  · next h => exact keeps_quoted ((skipBlanks_suffix h).trans hcursor.holds.after)
  · infer_instance

instance : Keeps text g.elementAttribute := by
  rw [elementAttribute]
  infer_instance

instance : Keeps text g.childInBraces := by
  rw [childInBraces]
  infer_instance

/-- By the bound: a child starts where the text in front of it is passed over. -/
instance (bound : Nat) : Keeps text (g.children bound) := by
  induction bound with
  | zero =>
    rw [children]
    infer_instance
  | succ bound ih =>
    rw [children]
    refine .seq fun cursor hcursor => ?_
    dsimp only
    have hbehind {c : Char} {rest : List Char}
        (h : (cursor.after.dropWhile fun c => c ≠ '<' && c ≠ '\x7b') = c :: rest) : rest <:+ text :=
      ((List.suffix_cons _ _).trans (h ▸ List.dropWhile_suffix _)).trans hcursor.holds.after
    split
    · infer_instance
    · next h => exact .and_then (keeps_set_start (hbehind h)) fun _ _ => inferInstance
    · next h => exact .and_then (keeps_set_start (hbehind h)) fun _ _ => inferInstance

/-- Attributes, types and children are the parts; the names of the two brackets are none. -/
instance (name : String) : Keeps text (g.elementRest name) := by
  rw [elementRest]
  refine .seq fun types _ => .and_then (.collect (.seq fun token _ => ?_) _)
    fun _ _ => inferInstance
  split <;> infer_instance

/-- **An element keeps to its text**, and so does a fragment. -/
instance : Keeps text g.elementBody := by
  rw [elementBody]
  infer_instance

instance (name : String) : Nameless (g.elementRest name) := by
  rw [elementRest]
  infer_instance

/-- An element is no name, so a template behind one has no marker. -/
instance : Nameless g.elementBody := by
  rw [elementBody]
  infer_instance

end Phrasebook.Source.Grammar
