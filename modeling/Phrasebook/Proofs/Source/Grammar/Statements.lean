import Phrasebook.Proofs.Source.Grammar.Classes
import Phrasebook.Proofs.Source.Grammar.Modules
import Phrasebook.Source.Grammar.Statements

/-!
# Proofs/Source/Grammar/Statements — statements keep to their text

A statement is chosen by its first token, and each choice is a sequence of parts that keep to the
text: what is to be shown is only that all the choices are instances.
-/

set_option synthInstance.maxSize 4096

namespace Phrasebook.Source.Grammar

open Phrasebook.Source.Parser

variable {text : List Char} {g : Grammar} [g.Sound]

/-- The parentheses are no part of a tree: it is that of the expression. -/
instance : Keeps text g.parenthesized := by
  rw [parenthesized]
  infer_instance

/-! ## Declarations -/

/-- A variable has its target, its type and its value for parts, whichever are there. -/
instance (allowIn : Bool) : Keeps text (g.declarator allowIn) := by
  rw [declarator]
  infer_instance

/-- The word, and what is looked at behind it, leaves nothing in a tree. -/
instance : Keeps text g.variableWord := by
  rw [variableWord]
  refine .seq fun token _ => ?_
  split <;> infer_instance

/-- The word in front is no part, the variables are. -/
instance (allowIn : Bool) : Keeps text (g.declarators allowIn) := by
  rw [declarators]
  infer_instance

/-- The end of the statement adds nothing to the variables. -/
instance : Keeps text g.variableStatement := by
  rw [variableStatement]
  infer_instance

/-- The name of a function is passed over, so it marks nothing. -/
instance : Keeps text g.functionDeclaration := by
  rw [functionDeclaration]
  infer_instance

/-- From its name on, a class is read by the grammar for what stands inside. -/
instance : Keeps text g.classDeclaration := by
  rw [classDeclaration]
  infer_instance

/-- An interface holds types only, which hold expressions in computed names at most. -/
instance : Keeps text g.interfaceDeclaration := by
  rw [interfaceDeclaration]
  infer_instance

/-- A name for a type has the type and its parameters for parts. -/
instance : Keeps text g.typeDeclaration := by
  rw [typeDeclaration]
  infer_instance

/-- The key can be an expression, and so can the value. -/
instance : Keeps text g.enumMember := by
  rw [enumMember]
  infer_instance

/-- An enumeration is the list of its members. -/
instance : Keeps text g.enumDeclaration := by
  rw [enumDeclaration]
  infer_instance

/-- Three forms are tried in turn, each of them from the first word on. -/
instance : Keeps text g.namespaceDeclaration := by
  rw [namespaceDeclaration]
  infer_instance

/-- Behind `declare` stands an ordinary statement. -/
instance : Keeps text g.ambientDeclaration := by
  rw [ambientDeclaration]
  infer_instance

/-! ## Control -/

/-- The second branch may be left out; then it is no part. -/
instance : Keeps text g.ifStatement := by
  rw [ifStatement]
  infer_instance

/-- What follows the first part of the head tells which of the three kinds it is. -/
instance : Keeps text g.loopHead := by
  rw [loopHead]
  infer_instance

/-- The head of a loop is a list of parts, with the body behind it. -/
instance : Keeps text g.forStatement := by
  rw [forStatement]
  infer_instance

/-- The condition stands before the body, in the text and in the tree. -/
instance : Keeps text g.whileStatement := by
  rw [whileStatement]
  infer_instance

/-- The condition stands before the body in the tree, but a place in the text has no order. -/
instance : Keeps text g.doStatement := by
  rw [doStatement]
  infer_instance

/-- A name in the body may be a member of the object, but a marker is told by its name alone. -/
instance : Keeps text g.withStatement := by
  rw [withStatement]
  infer_instance

/-- A case ends where the next one starts, so its statements are collected up to there. -/
instance : Keeps text g.switchCase := by
  rw [switchCase]
  infer_instance

/-- The cases are collected up to the closing brace. -/
instance : Keeps text g.switchStatement := by
  rw [switchStatement]
  infer_instance

/-- The handler and the ending are lists of parts, one of which may be empty. -/
instance : Keeps text g.tryStatement := by
  rw [tryStatement]
  refine .seq fun _ _ => .seq fun body _ => ?_
  infer_instance

/-- The end of the statement is tried first, and then a value from the same cursor. -/
instance : Keeps text g.returnStatement := by
  rw [returnStatement]
  infer_instance

/-- The tree is the value that is raised. -/
instance : Keeps text g.throwStatement := by
  rw [throwStatement]
  infer_instance

/-- A label is only a name, and leaves nothing in the tree. -/
instance : Keeps text jumpStatement := by
  rw [jumpStatement]
  infer_instance

/-- A label is passed over; the tree is that of the statement. -/
instance : Keeps text g.labelledStatement := by
  rw [labelledStatement]
  infer_instance

/-- The tree is the expression, up to the end of its statement. -/
instance : Keeps text g.expressionStatement := by
  rw [expressionStatement]
  infer_instance

/-- The colon of a label is looked for one token ahead, with the cursor in its place. -/
instance : Keeps text g.labelledOrExpression := by
  rw [labelledOrExpression]
  infer_instance

/-! ## Statements -/

/-- This looks at tokens only. -/
instance : Keeps text g.atTypedDeclaration := by
  rw [atTypedDeclaration]
  refine .seq fun token _ => ?_
  split <;> infer_instance

/-- The first word tells which declaration it is, and each of them keeps to the text. -/
instance : Keeps text g.typedDeclaration := by
  rw [typedDeclaration]
  refine .seq fun token _ => ?_
  split <;> infer_instance

/-- A keyword has its own statement, and any other word starts a label or an expression. -/
instance (word : String) : Keeps text (g.wordStatement word) := by
  unfold wordStatement
  split <;> infer_instance

/-- **A statement keeps to its text**, whichever its first token says it is. -/
instance : Keeps text g.statementBody := by
  rw [statementBody]
  refine .seq fun token _ => ?_
  split <;> infer_instance

end Phrasebook.Source.Grammar
