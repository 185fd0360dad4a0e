import Phrasebook.Proofs.Source.Grammar.Types
import Phrasebook.Source.Grammar.Bindings

/-!
# Proofs/Source/Grammar/Bindings — patterns and functions keep to their text

A function is no name, so what stands behind it marks nothing.
-/

set_option synthInstance.maxSize 4096

namespace Phrasebook.Source.Grammar

open Phrasebook.Source.Parser

variable {text : List Char} {g : Grammar} [g.Sound]

/-- A value is a part only where an equals sign stands. -/
instance (allowIn : Bool) : Keeps text (g.initializer allowIn) := by
  rw [initializer]
  infer_instance

/-- A target and its default are the parts. -/
instance : Keeps text g.bindingElement := by
  rw [bindingElement]
  infer_instance

/-- A key with a target is tried before a name that is both. -/
instance : Keeps text g.bindingProperty := by
  rw [bindingProperty]
  infer_instance

/-- A place that is left empty has a leaf. -/
instance : Keeps text g.bindingItem := by
  rw [bindingItem]
  infer_instance

/-- **A pattern keeps to its text**; a name that is bound marks nothing, and has a leaf. -/
instance : Keeps text g.bindingBody := by
  rw [bindingBody]
  refine .seq fun token _ => ?_
  split <;> infer_instance

/-- A word is a modifier if a name or a pattern follows, so the token ahead is looked at. -/
instance : Keeps text parameterModifier := by
  rw [parameterModifier]
  refine .seq fun token _ => ?_
  split
  · split
    · refine .seq fun cursor _ => ?_
      split <;> infer_instance
    · infer_instance
  · infer_instance

/-- The target, the type and the default are the parts, and `this` has a leaf for a target. -/
instance : Keeps text g.parameter := by
  rw [parameter]
  infer_instance

/-- The parameters in the parentheses are the parts. -/
instance : Keeps text g.parameters := by
  rw [parameters]
  infer_instance

/-- A function may end without a body, and then only its types and parameters are parts. -/
instance : Keeps text g.functionRest := by
  rw [functionRest]
  infer_instance

/-- The body is a part in any case. -/
instance : Keeps text g.functionWithBody := by
  rw [functionWithBody]
  infer_instance

/-- A function is no name, whatever stands in front of its parameters. -/
instance : Nameless g.functionWithBody := by
  rw [functionWithBody]
  infer_instance

end Phrasebook.Source.Grammar
