import Phrasebook.Proofs.Source.Grammar.Statements
import Phrasebook.Source.Grammar

/-!
# Proofs/Source/Grammar — the tree of a text is anchored in it

A grammar of one level more takes its parsers from the level below, so it is sound if that one is.
**The tree of a text is anchored in the text** (`Tree.Anchored.of_parse?`), since the parser starts
in the text and keeps to it.
-/

namespace Phrasebook.Source

open Phrasebook.Source.Parser

/-- The grammar of every level is sound. -/
instance grammar_sound (dialect : Dialect) (level : Nat) : (grammar dialect level).Sound := by
  induction level with
  | zero =>
    rw [grammar]
    constructor
    · exact ⟨dialect, 0, by rw [grammar]⟩
    all_goals
      intros
      infer_instance
  | succ level ih =>
    rw [grammar]
    exact
      { of_level := ⟨dialect, level + 1, by rw [grammar]⟩
        assignment := fun text allowIn =>
          inferInstanceAs (Keeps text ((grammar dialect level).assignmentBody allowIn))
        unary := fun text => inferInstanceAs (Keeps text (grammar dialect level).unaryBody)
        statement := fun text => inferInstanceAs (Keeps text (grammar dialect level).statementBody)
        type := fun text => inferInstanceAs (Keeps text (grammar dialect level).typeBody)
        binding := fun text => inferInstanceAs (Keeps text (grammar dialect level).bindingBody)
        element := fun text => inferInstanceAs (Keeps text (grammar dialect level).elementBody)
        classRest := fun text => inferInstanceAs (Keeps text (grammar dialect level).classBody)
        element_nameless := inferInstanceAs (Nameless (grammar dialect level).elementBody)
        classRest_nameless := inferInstanceAs (Nameless (grammar dialect level).classBody) }

instance {text : List Char} {g : Grammar} [g.Sound] : Keeps text g.moduleBody := by
  rw [Grammar.moduleBody]
  infer_instance

theorem skipInterpreterLine_suffix (text : List Char) : skipInterpreterLine text <:+ text := by
  unfold skipInterpreterLine
  split
  · next rest => exact (List.dropWhile_suffix _).trans ⟨['#', '!'], rfl⟩
  · exact List.suffix_rfl

/-- **The markers of a tree stand in the text that it is the tree of.** -/
theorem Tree.Anchored.of_parse? {dialect : Dialect} {code : String} {tree : Tree}
    (h : Tree.parse? dialect code = some tree) : tree.Anchored code.toList := by
  obtain ⟨⟨_, cursor⟩, hrun, rfl⟩ := Option.map_eq_some_iff.mp h
  have hstart : Reached code.toList (.start (skipInterpreterLine code.toList)) :=
    ⟨_, skipInterpreterLine_suffix _, rfl⟩
  exact (Keeps.keeps hstart hrun).2.holds

end Phrasebook.Source
