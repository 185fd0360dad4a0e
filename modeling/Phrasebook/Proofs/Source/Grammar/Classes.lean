import Phrasebook.Proofs.Source.Grammar.Expressions
import Phrasebook.Source.Grammar.Classes

/-!
# Proofs/Source/Grammar/Classes — classes keep to their text

A class is no name, so what stands behind it marks nothing.
-/

set_option synthInstance.maxSize 4096

namespace Phrasebook.Source.Grammar

open Phrasebook.Source.Parser

variable {text : List Char} {g : Grammar} [g.Sound]

/-- A word is a modifier if a member follows, so the token ahead is looked at. -/
instance : Keeps text g.memberModifier := by
  rw [memberModifier]
  refine .seq fun token _ => ?_
  split <;> infer_instance

/-- The words and the sign of a method are passed over. -/
instance : Keeps text methodModifier := by
  rw [methodModifier]
  refine .seq fun token _ => ?_
  dsimp only
  split <;> infer_instance

/-- A property has a value and a type beside its key, and a method the parts of a function. -/
instance : Keeps text g.namedMember := by
  rw [namedMember]
  infer_instance

/-- An index signature is tried first, since a computed name starts like one. -/
instance : Keeps text g.classMember := by
  rw [classMember]
  infer_instance

/-- What is extended and what it is applied to come apart, and each is a list of parts. -/
instance : Keeps text g.superclass := by
  rw [superclass]
  infer_instance

/-- What is implemented are types. -/
instance : Keeps text g.implemented := by
  rw [implemented]
  infer_instance

/-- **A class keeps to its text**; its own name is passed over. -/
instance : Keeps text g.classBody := by
  rw [classBody]
  infer_instance

/-- So a class marks nothing by its name. -/
instance : Nameless g.classBody := by
  rw [classBody]
  infer_instance

end Phrasebook.Source.Grammar
