import Phrasebook.Proofs.Source.Grammar.Basic
import Phrasebook.Source.Grammar.Types

/-!
# Proofs/Source/Grammar/Types — types keep to their text

Few types contain expressions, and none is a name, so it counts only where the cursor is behind a
type.  Template types read their chunks from the text at the cursor.
-/

set_option synthInstance.maxSize 4096

namespace Phrasebook.Source.Grammar

open Phrasebook.Source.Parser

variable {text : List Char} {g : Grammar} [g.Sound]

/-- The types in the brackets are the parts; that there are any is checked behind them. -/
instance : Keeps text g.typeArguments := by
  rw [typeArguments]
  infer_instance

/-- Where types are not allowed a bracket is left for others to read. -/
instance : Keeps text g.optionalTypeArguments := by
  rw [optionalTypeArguments]
  infer_instance

/-- A word is a modifier if another one follows, so the token ahead is looked at. -/
instance : Keeps text typeParameterModifier := by
  rw [typeParameterModifier]
  refine .seq fun token _ => ?_
  split
  all_goals try infer_instance
  all_goals
    refine .seq fun cursor _ => ?_
    split <;> infer_instance

/-- The bound and the default are types; the name of a parameter is no part. -/
instance : Keeps text g.typeParameter := by
  rw [typeParameter]
  infer_instance

/-- The parameters in the brackets are the parts, and there is one at least. -/
instance : Keeps text g.typeParameters := by
  rw [typeParameters]
  infer_instance

/-- What is not generic has none, and then nothing is read. -/
instance : Keeps text g.optionalTypeParameters := by
  rw [optionalTypeParameters]
  infer_instance

/-- Only a name in square brackets has a part, the expression that computes it. -/
instance : Keeps text g.memberName := by
  rw [memberName]
  refine .seq fun token _ => ?_
  split <;> infer_instance

/-- What is known of an argument has the type behind it for its tree. -/
instance : Keeps text g.resultType := by
  rw [resultType]
  refine .orElse ?_ inferInstance
  refine .seq fun _ _ => .seq fun _ _ => .seq fun _ _ => .seq fun token _ => ?_
  split <;> infer_instance

/-- The colon is passed over. -/
instance : Keeps text g.annotation := by
  unfold annotation
  infer_instance

/-- Without a colon there are no parts. -/
instance : Keeps text g.optionalAnnotation := by
  unfold optionalAnnotation
  infer_instance

/-- Without a colon there are no parts, as for any other type. -/
instance : Keeps text g.optionalResult := by
  rw [optionalResult]
  infer_instance

/-- For `this` there is a leaf in the place of a binding. -/
instance : Keeps text g.typedParameter := by
  rw [typedParameter]
  infer_instance

/-- The parameters in the parentheses are the parts. -/
instance : Keeps text g.typedParameters := by
  rw [typedParameters]
  infer_instance

/-- The parts are the parameters, those of types and the result. -/
instance : Keeps text g.functionType := by
  rw [functionType]
  infer_instance

/-- Behind its words it is a function type. -/
instance : Keeps text g.constructorType := by
  rw [constructorType]
  infer_instance

/-- A member that is called has what a function type has, and may have no result. -/
instance : Keeps text g.signature := by
  rw [signature]
  infer_instance

/-- The token ahead is looked at, and the cursor stays where it is. -/
instance : Keeps text modifies := by
  rw [modifies]
  refine .seq fun cursor _ => ?_
  split <;> infer_instance

/-- The type in the brackets and the one behind them are the parts. -/
instance : Keeps text g.indexSignature := by
  rw [indexSignature]
  infer_instance

/-- The forms of a member are tried in turn, the one with a name last. -/
instance : Keeps text g.typeMember := by
  rw [typeMember]
  infer_instance

/-- Members are collected up to the closing brace. -/
instance : Keeps text g.objectType := by
  rw [objectType]
  infer_instance

/-- A sign is no part, be it there or not. -/
instance : Keeps text acceptPlusOrMinus := by
  rw [acceptPlusOrMinus]
  infer_instance

/-- The two ways to the bracket, with a sign and without, go on alike behind it. -/
instance : Keeps text g.mappedType := by
  rw [mappedType]
  refine .seq fun _ _ => .seq fun signed _ => ?_
  extract_lets rest
  have hrest (result : Unit) : Keeps text (rest result) := by
    refine .seq fun _ _ => .seq fun _ _ => .seq fun _ _ => ?_
    refine .seq fun keys _ => .seq fun renames _ => ?_
    dsimp only
    split <;> infer_instance
  clear_value rest
  infer_instance

/-- The label of a member is passed over if it has one. -/
instance : Keeps text g.tupleMember := by
  rw [tupleMember]
  infer_instance

/-- The members of a name are passed over, and the types it is applied to are parts. -/
instance : Keeps text g.typeName := by
  rw [typeName]
  infer_instance

/-- The attributes are a list, possibly empty, and what follows does not depend on which. -/
instance : Keeps text g.importType := by
  rw [importType]
  refine .seq fun _ _ => .seq fun _ _ => .seq fun source _ => .seq fun comma _ => ?_
  extract_lets rest
  have hrest (attributes : {attributes : List Tree // Anchored text attributes}) :
      Keeps text (rest attributes.1) := by
    dsimp only [rest]
    infer_instance
  clear_value rest
  infer_instance

/-- The value is named by names only, private ones included, and these are no parts. -/
instance : Keeps text g.queriedType := by
  rw [queriedType]
  refine .seq fun _ _ => .seq fun _ _ => ?_
  split
  · infer_instance
  · refine .seq fun token _ => ?_
    split
    · infer_instance
    · refine .seq fun _ _ => .and_then (.collect (.seq fun _ _ => ?_) _) fun _ _ => inferInstance
      split
      · refine .seq fun token _ => ?_
        split <;> infer_instance
      · infer_instance

/-- A chunk is read from the text at the cursor, and what is behind it is an end of that text. -/
instance (bound : Nat) : Keeps text (templateType.slots g bound) := by
  induction bound with
  | zero =>
    rw [templateType.slots]
    infer_instance
  | succ bound ih =>
    rw [templateType.slots]
    refine .seq fun cursor hcursor => ?_
    cases hchunk : readChunk (' ' :: cursor.after) cursor.after with
    | none => infer_instance
    | some chunk =>
      exact .and_then (keeps_set_start (hcursor.holds.chunk hchunk)) fun _ _ => inferInstance

/-- The slots of a template type are types, and the parts of its tree. -/
instance : Keeps text g.templateType := by
  rw [templateType]
  infer_instance

/-- The first token tells the kinds apart, but for the two that start with a brace. -/
instance : Keeps text g.primaryType := by
  rw [primaryType]
  refine .seq fun token _ => ?_
  split <;> infer_instance

/-- The brackets behind a type are empty, or hold one that is a part. -/
instance : Keeps text g.postfixType := by
  rw [postfixType]
  infer_instance

/-- The words in front are passed over one by one, so this goes by their bound. -/
instance (bound : Nat) : Keeps text (g.prefixedType bound) := by
  induction bound with
  | zero =>
    rw [prefixedType]
    infer_instance
  | succ bound ih =>
    rw [prefixedType]
    refine .seq fun token _ => ?_
    split <;> infer_instance

/-- Types that are joined by a sign keep to the text if each of them does. -/
instance {item : Parser Tree} [Keeps text item] (joint : String) :
    Keeps text (g.joinedTypes joint item) := by
  rw [joinedTypes]
  infer_instance

/-- What starts with a bracket may be a function type, which is tried first. -/
instance : Keeps text g.unconditionalType := by
  rw [unconditionalType]
  refine .seq fun token _ => ?_
  split <;> infer_instance

/-- **A type keeps to its text**: a condition has four types for parts. -/
instance : Keeps text g.typeBody := by
  rw [typeBody]
  infer_instance

end Phrasebook.Source.Grammar
