import Phrasebook.Proofs.Source.Grammar.Operands

/-!
# Proofs/Source/Grammar/Expressions — expressions keep to their text

Behind operands only parts are joined, so nothing new can be a marker.  An operator of angle
brackets is read from the text at the cursor, and what stands behind it is an end of that text.
-/

set_option synthInstance.maxSize 4096

namespace Phrasebook.Source.Grammar

open Phrasebook.Source.Parser

variable {text : List Char} {g : Grammar} [g.Sound]

/-- The operand stands behind its type in the text and before it in the tree. -/
instance : Keeps text g.assertion := by
  rw [assertion]
  infer_instance

/-- An operand with a sign is no name, so only one without signs can end with one. -/
instance : Keeps text g.signedOperand := by
  rw [signedOperand]
  refine .seq fun token _ => ?_
  split
  · infer_instance
  · infer_instance
  · infer_instance

instance : Keeps text g.unaryBody := by
  rw [unaryBody]
  infer_instance

theorem angleOperator_suffix (text : List Char) : (angleOperator text).2 <:+ text := by
  unfold angleOperator
  split <;> grind [suffix_cons_of_suffix]

/-- What stands behind an operator of angle brackets is an end of the text. -/
theorem suffix_behind_angle {cursor : Cursor} {assigns : Bool} {rest : List Char}
    (hcursor : Reached text cursor) (h : angleOperator cursor.here = (assigns, rest)) :
    rest <:+ text := by
  have hrest := angleOperator_suffix cursor.here
  rw [h] at hrest
  exact hrest.trans hcursor.here

/-- The type behind an operand is passed on as a part of what the operand is joined to. -/
instance : Keeps text g.ascription := by
  rw [ascription]
  infer_instance

/-- An operator is a sign, a word, or angle brackets that are read from the text. -/
instance (allowIn : Bool) : Keeps text (g.joinedOperand allowIn) := by
  rw [joinedOperand]
  refine .seq fun token _ => ?_
  split
  · split
    · infer_instance
    · split
      · refine .seq fun cursor hcursor => ?_
        split
        · infer_instance
        · next hangle =>
          have hrest := suffix_behind_angle hcursor.holds hangle
          exact .and_then (keeps_set_start hrest) fun _ _ => inferInstance
      · infer_instance
  · infer_instance
  · infer_instance
  · infer_instance

/-- Operands and types are collected behind the first operand. -/
instance (allowIn : Bool) : Keeps text (g.joined allowIn) := by
  rw [joined]
  refine .seq fun first _ => .seq fun types _ => .and_then (.collect (.seq fun operand? _ => ?_) _)
    fun rest _ => ?_
  · split <;> infer_instance
  · split <;> infer_instance

/-- The two readings of a parenthesis behind the question mark start from the same cursor. -/
instance (allowIn : Bool) : Keeps text (g.alternatives allowIn) := by
  rw [alternatives]
  infer_instance

instance (allowIn : Bool) : Keeps text (g.conditional allowIn) := by
  rw [conditional]
  infer_instance

/-- A sign that assigns may be made of angle brackets, too. -/
instance (allowIn : Bool) : Keeps text (g.assignedValue allowIn) := by
  rw [assignedValue]
  refine .seq fun token _ => ?_
  split
  · split
    · infer_instance
    · split
      · refine .seq fun cursor hcursor => ?_
        split
        · next hangle =>
          have hrest := suffix_behind_angle hcursor.holds hangle
          exact .and_then (keeps_set_start hrest) fun _ _ => inferInstance
        · infer_instance
      · infer_instance
  · infer_instance

/-- Whether a value is looked for depends on the target, and what follows does not. -/
instance (allowIn : Bool) : Keeps text (g.plainAssignment allowIn) := by
  rw [plainAssignment]
  refine .seq fun target _ => ?_
  extract_lets result
  have hresult (value? : Option Tree) (hvalue : Anchored text value?) :
      Keeps text (result value?) := by
    cases value? with
    | none => infer_instance
    | some value =>
      have := hvalue.holds value rfl
      infer_instance
  split <;> exact .seq hresult

instance (allowIn : Bool) : Keeps text (g.yielded allowIn) := by
  rw [yielded]
  refine .seq fun _ _ => .seq fun token _ => ?_
  dsimp only
  split <;> infer_instance

/-- **An expression keeps to its text**: the first token says which readings of it are tried. -/
instance (allowIn : Bool) : Keeps text (g.assignmentBody allowIn) := by
  rw [assignmentBody]
  refine .seq fun token _ => ?_
  split <;> infer_instance

end Phrasebook.Source.Grammar
