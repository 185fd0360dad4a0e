import Phrasebook.Proofs.Source.Grammar.Expressions
import Phrasebook.Source.Grammar.Modules

/-!
# Proofs/Source/Grammar/Modules — imports and exports keep to their text

What starts like an import or an export can be an ordinary statement, and a name can be a modifier:
the parser looks one token further, or tries the one and then the other from the same cursor.
-/

set_option synthInstance.maxSize 4096

namespace Phrasebook.Source.Grammar

open Phrasebook.Source.Parser

variable {text : List Char} {g : Grammar} [g.Sound]

/-- An attribute is a key with a text, so it has no tree. -/
instance : Keeps text g.importAttributes := by
  rw [importAttributes]
  refine .seq fun _ _ => .seq fun _ _ => .seq fun _ _ => ?_
  split
  · refine .seq fun _ _ => .seq fun _ _ => .and_then (.commaList (.seq fun token _ => ?_) _ _)
      fun _ _ => inferInstance
    split <;> infer_instance
  · infer_instance

/-- The name of a module is a text, in which there are no markers. -/
instance : Keeps text g.moduleName := by
  rw [moduleName]
  infer_instance

/-- A name or a text is passed over. -/
instance : Keeps text sharedName := by
  rw [sharedName]
  refine .seq fun token _ => ?_
  split <;> infer_instance

/-- The word `type` can be a name here, so it is tried as one first. -/
instance : Keeps text g.sharedItem := by
  rw [sharedItem]
  infer_instance

/-- The names in braces have no tree. -/
instance : Keeps text g.sharedItems := by
  rw [sharedItems]
  infer_instance

/-- The name for a whole module has no tree. -/
instance : Keeps text wholeModule := by
  rw [wholeModule]
  infer_instance

/-- An import names what it takes and where from, and has no tree for either. -/
instance : Keeps text g.importFrom := by
  rw [importFrom]
  infer_instance

/-- The tree is a leaf, as the other name is one of a module or of a type. -/
instance : Keeps text g.importAlias := by
  rw [importAlias]
  infer_instance

/-- Each of the four forms gives a leaf. -/
instance : Keeps text g.importRest := by
  rw [importRest]
  infer_instance

/-- The word and the token behind it are looked at, and the cursor stays in its place. -/
instance : Keeps text g.startsDeclaration := by
  rw [startsDeclaration]
  refine .seq fun cursor _ => .seq fun token _ => ?_
  split
  · split_ifs
    all_goals try infer_instance
    split <;> infer_instance
  · infer_instance

/-- A word that can also be a name is tried as a declaration first, and then as an expression. -/
instance : Keeps text g.exportedDefault := by
  rw [exportedDefault]
  refine .seq fun token _ => ?_
  split <;> infer_instance

/-- Names alone are exported here, so the tree is a leaf. -/
instance : Keeps text g.exportedNames := by
  rw [exportedNames]
  infer_instance

/-- What is exported is a declaration, an expression or a list of names. -/
instance : Keeps text g.exportRest := by
  rw [exportRest]
  refine .seq fun token _ => ?_
  split <;> infer_instance

/-- An import that is called or has a member is an expression, as the token ahead tells. -/
instance : Keeps text g.moduleItem := by
  rw [moduleItem]
  refine .seq fun token _ => ?_
  split
  · refine .seq fun cursor _ => ?_
    split <;> infer_instance
  · infer_instance
  · infer_instance

/-- The items are collected up to the closing brace. -/
instance : Keeps text g.namespaceBlock := by
  rw [namespaceBlock]
  infer_instance

end Phrasebook.Source.Grammar
