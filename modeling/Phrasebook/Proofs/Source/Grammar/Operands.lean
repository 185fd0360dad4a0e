import Phrasebook.Proofs.Source.Grammar.Bindings
import Phrasebook.Proofs.Source.Grammar.Markup
import Phrasebook.Source.Grammar.Expressions

/-!
# Proofs/Source/Grammar/Operands — where markers stand

A tree records no places, so the place of a marker is followed through the parser.  Behind a name
the cursor stands right behind the spelling (`Precedes`), and an operand that is a name *ends*
there (`Operand.Ends`).  A call or a template is read from a cursor at its sign, so its sign marks
the name in front of it (`Precedes.marked`), across type arguments too (`Precedes.types`).

    i18n . __   <T>   (2)
              ^ the operand `i18n.__` ends here
                    ^ and `(` marks it from here

**Each step behind an operand keeps to the text** (`accessStep_stepsFrom`), and **so do all of
them** (`accesses_endsFrom`).
-/

set_option synthInstance.maxSize 4096

namespace Phrasebook.Source.Grammar

open Phrasebook.Source.Parser

variable {text : List Char} {g : Grammar} [hg : g.Sound]

/-! ## Arrow functions, lists and objects -/

instance (allowIn : Bool) : Keeps text (g.arrowBody allowIn) := by
  rw [arrowBody]
  infer_instance

/-- Parameters, body and types are the parts of an arrow function. -/
instance (allowIn : Bool) : Keeps text (g.arrowRest allowIn) := by
  rw [arrowRest]
  infer_instance

instance (allowIn : Bool) : Keeps text (g.namedArrow allowIn) := by
  rw [namedArrow]
  infer_instance

instance (allowIn : Bool) : Keeps text (g.asyncArrow allowIn) := by
  rw [asyncArrow]
  refine .seq fun _ _ => .seq fun _ _ => .seq fun _ _ => .seq fun token _ => ?_
  split <;> infer_instance

instance : Keeps text g.spreadable := by
  rw [spreadable]
  infer_instance

instance : Keeps text g.arguments := by
  rw [arguments]
  infer_instance

instance : Keeps text g.listItem := by
  rw [listItem]
  infer_instance

/-- The words in front of a method are tried and, if no method follows them, taken back. -/
instance : Keeps text g.objectMethod := by
  rw [objectMethod]
  refine .and_then (.attempt (.seq fun token _ => ?_)) fun _ _ => inferInstance
  split <;> infer_instance

instance : Keeps text g.objectMember := by
  rw [objectMember]
  refine .seq fun _ _ => ?_
  split
  · infer_instance
  · refine .seq fun token _ => ?_
    split <;> infer_instance

/-! ## Values -/

instance : Keeps text g.functionExpression := by
  rw [functionExpression]
  infer_instance

instance : Nameless g.functionExpression := by
  rw [functionExpression]
  infer_instance

instance : Keeps text g.classExpression := by
  rw [classExpression]
  infer_instance

instance : Nameless g.classExpression := by
  rw [classExpression]
  infer_instance

/-- A regular expression is passed over in the text, since its signs are no tokens. -/
instance : Keeps text regularExpression := by
  rw [regularExpression]
  refine .seq fun cursor hcursor => ?_
  split
  · next rest hhere =>
    split
    · next after hskip =>
      have hafter : after <:+ '/' :: rest := suffix_cons_of_suffix (skipPattern_suffix hskip)
      have hrest := (hhere ▸ hafter).trans hcursor.holds.here
      exact .and_then (keeps_set_start hrest) fun _ _ => inferInstance
    · infer_instance
  · infer_instance

instance : Nameless regularExpression := by
  rw [regularExpression]
  refine .seq fun cursor => ?_
  split
  · split <;> infer_instance
  · infer_instance

instance : Keeps text atAsyncFunction := by
  rw [atAsyncFunction]
  infer_instance

instance : Keeps text g.inParentheses := by
  rw [inParentheses]
  infer_instance

instance : Nameless g.inParentheses := by
  rw [inParentheses]
  infer_instance

/-! ## Names in front of a cursor -/

/-- The name and then the gap stand in front of the cursor, and blanks can make the gap longer. -/
def Precedes (text : List Char) (name : String) (gap : List Char) (cursor : Cursor) : Prop :=
  ∃ before spelling rest, text = before ++ spelling ++ gap ++ rest ∧ Spells spelling name.toList ∧
    cursor = .start rest ∧
    ∀ blanks behind, rest = blanks ++ behind → Blanks blanks → Gap behind (gap ++ blanks)

/-- A word precedes the cursor behind it. -/
theorem precedes_advance {cursor : Cursor} {name : String} {escaped : Bool}
    (hcursor : Reached text cursor) (h : cursor.token = .word name escaped) :
    Precedes text name [] cursor.advance := by
  obtain ⟨rest, ⟨before, rfl⟩, rfl⟩ := hcursor
  obtain ⟨blanks, spelling, -, hspells, hcut⟩ := start_word h
  refine ⟨before ++ blanks, spelling, (Cursor.start rest).after, ?_, hspells, rfl,
    fun _ _ _ hblanks => .blanks hblanks⟩
  conv_lhs => rw [hcut]
  simp

/-- A sign at the cursor marks the name in front of it. -/
theorem Precedes.marked {name sign : String} {gap : List Char} {cursor : Cursor} {c : Char}
    (h : Precedes text name gap cursor) (htoken : cursor.token = .sign sign)
    (hsign : sign.toList = [c]) : Marked text name c := by
  obtain ⟨before, spelling, rest, rfl, hspells, rfl, hgap⟩ := h
  obtain ⟨blanks, hblanks, hcut⟩ := start_sign htoken
  rw [hsign, List.append_assoc, List.singleton_append] at hcut
  refine ⟨⟨before, spelling, gap ++ blanks, (Cursor.start rest).after⟩, ?_, hspells,
    hgap blanks _ hcut hblanks⟩
  conv_lhs => rw [hcut]
  simp

/-- The text that type arguments are read from. -/
theorem typeArguments_cut {rest : List Char} {types : Tree} {cursor : Cursor}
    (h : g.typeArguments.run (.start rest) = some (types, cursor)) :
    ∃ blanks inside behind, Blanks blanks ∧ rest = blanks ++ '<' :: inside ++ '>' :: behind ∧
      cursor = .start behind := by
  rw [typeArguments] at h
  obtain ⟨_, opened, hopen, hlist⟩ := run_bind_eq_some.mp h
  obtain ⟨parts, closed, hparts, hchecked⟩ := run_bind_eq_some.mp hlist
  obtain ⟨_, _, hrequire, hresult⟩ := run_bind_eq_some.mp hchecked
  obtain ⟨-, rfl⟩ := run_require hrequire
  cases hresult
  obtain ⟨htoken, rfl⟩ := run_sign hopen
  obtain ⟨blanks, hblanks, hcut⟩ := start_sign htoken
  -- the types are read from the text behind the bracket, so the closing one stands in there
  have hopened : Reached (Cursor.start rest).after (Cursor.start rest).advance :=
    ⟨_, List.suffix_rfl, rfl⟩
  obtain ⟨closing, ⟨more, ⟨inside, hinside⟩, rfl⟩, htoken', rfl⟩ := run_commaList hopened hparts
  obtain ⟨blanks', -, hcut'⟩ := start_sign htoken'
  refine ⟨blanks, inside ++ blanks', (Cursor.start more).after, hblanks, ?_, rfl⟩
  conv_lhs => rw [hcut, ← hinside, hcut']
  simp

/-- Type arguments can stand between a name and the sign that marks it. -/
theorem Precedes.types {name : String} {cursor cursor' : Cursor} {types : Tree}
    (h : Precedes text name [] cursor) (hrun : g.typeArguments.run cursor = some (types, cursor')) :
    ∃ gap, Precedes text name gap cursor' := by
  obtain ⟨before, spelling, rest, rfl, hspells, rfl, -⟩ := h
  obtain ⟨blanks, inside, behind, hblanks, rfl, rfl⟩ := typeArguments_cut hrun
  refine ⟨blanks ++ '<' :: inside ++ ['>'], before, spelling, behind, by simp, hspells, rfl, ?_⟩
  rintro blanks' tail rfl hblanks'
  obtain ⟨dialect, level, rfl⟩ := hg.of_level
  rw [List.append_assoc]
  exact .types hblanks hblanks' (by simpa using hrun)

/-! ## Operands -/

/-- An operand that comes from the text; if it is a name, the name precedes the cursor. -/
structure Operand.Ends (text : List Char) (operand : Operand) (cursor : Cursor) : Prop where
  anchored : operand.tree.Anchored text
  precedes : ∀ name, operand.tree.markerName? = some name → Precedes text name [] cursor

instance : Anchorable Operand := ⟨fun text operand => operand.tree.Anchored text⟩

instance {operand : Operand} [hoperand : Anchored text operand] : Anchored text operand.tree :=
  ⟨hoperand.holds⟩

instance {tree : Tree} {chained isTarget : Bool} [htree : Anchored text tree] :
    Anchored text (Operand.mk tree chained isTarget) := ⟨htree.holds⟩

instance {operand : Operand} {parts : List Tree} [Anchored text operand] [Anchored text parts] :
    Anchored text (operand.with parts) := by
  rw [Operand.with]
  infer_instance

/-- An operand that is no name ends anywhere. -/
theorem Operand.Ends.of_nameless {operand : Operand} {cursor : Cursor}
    [htree : Anchored text operand.tree] (hname : operand.tree.markerName? = none) :
    operand.Ends text cursor :=
  ⟨htree.holds, fun name h => by rw [hname] at h; cases h⟩

/-- The operands that the parser gives from the cursor on end where it stops. -/
structure EndsFrom (text : List Char) (cursor : Cursor) (parser : Parser Operand) : Prop where
  ends : ∀ {operand : Operand} {cursor' : Cursor}, parser.run cursor = some (operand, cursor') →
    Reached text cursor' ∧ operand.Ends text cursor'

/-- The operands that the parser gives end where it stops. -/
class KeepsOperand (text : List Char) (parser : Parser Operand) : Prop where
  from_reached : ∀ {cursor : Cursor}, Reached text cursor → EndsFrom text cursor parser

section

variable {α : Type} {cursor : Cursor}

theorem EndsFrom.bind {parser : Parser α} {next : α → Parser Operand}
    (hnext : ∀ result between, parser.run cursor = some (result, between) →
      EndsFrom text between (next result)) : EndsFrom text cursor (parser >>= next) := by
  refine ⟨fun h => ?_⟩
  obtain ⟨result, between, hrun, h⟩ := run_bind_eq_some.mp h
  exact (hnext result between hrun).ends h

theorem EndsFrom.pure {operand : Operand} (hcursor : Reached text cursor)
    (h : operand.Ends text cursor) : EndsFrom text cursor (pure operand) :=
  ⟨fun hrun => by cases hrun; exact ⟨hcursor, h⟩⟩

variable [Anchorable α]

instance {parser : Parser Operand} [hparser : KeepsOperand text parser] : Keeps text parser :=
  ⟨fun hcursor h =>
    have hends := (hparser.from_reached hcursor).ends h
    ⟨hends.1, ⟨hends.2.anchored⟩⟩⟩

theorem EndsFrom.seq {parser : Parser α} {next : α → Parser Operand} [hparser : Keeps text parser]
    (hcursor : Reached text cursor)
    (hnext : ∀ result between, Anchored text result → Reached text between →
      EndsFrom text between (next result)) : EndsFrom text cursor (parser >>= next) :=
  .bind fun result between hrun =>
    have hkeeps := hparser.keeps hcursor hrun
    hnext result between hkeeps.2 hkeeps.1

theorem KeepsOperand.seq {parser : Parser α} {next : α → Parser Operand} [Keeps text parser]
    (hnext : ∀ result, Anchored text result → KeepsOperand text (next result)) :
    KeepsOperand text (parser >>= next) :=
  ⟨fun hcursor => .seq hcursor fun result _ hresult hbetween =>
    (hnext result hresult).from_reached hbetween⟩

instance {parser : Parser α} {next : α → Parser Operand} [Keeps text parser]
    [hnext : ∀ result : {result : α // Anchored text result}, KeepsOperand text (next result.1)] :
    KeepsOperand text (parser >>= next) := .seq fun _ hresult => hnext ⟨_, hresult⟩

instance {first second : Parser Operand} {condition : Prop} [Decidable condition]
    [KeepsOperand text first] [KeepsOperand text second] :
    KeepsOperand text (if condition then first else second) := by
  split <;> infer_instance

instance : KeepsOperand text failure := ⟨fun _ => ⟨fun h => by cases h⟩⟩

theorem keepsOperand_pure {operand : Operand} [Anchored text operand.tree]
    (hname : operand.tree.markerName? = none) : KeepsOperand text (pure operand) :=
  ⟨fun hcursor => .pure hcursor (.of_nameless hname)⟩

instance {parts : List Tree} {chained isTarget : Bool} [Anchored text parts] :
    KeepsOperand text (pure { tree := .other parts, chained, isTarget }) := keepsOperand_pure rfl

instance {chained isTarget : Bool} :
    KeepsOperand text (pure { tree := .leaf, chained, isTarget }) := keepsOperand_pure rfl

instance {operand : Operand} {parts : List Tree} [Anchored text operand] [Anchored text parts] :
    KeepsOperand text (pure (operand.with parts)) := keepsOperand_pure rfl

theorem KeepsOperand.seq_nameless {parser : Parser Tree} {next : Tree → Parser Operand}
    [hparser : Keeps text parser] [hname : Nameless parser]
    (hnext : ∀ tree, Anchored text tree → tree.markerName? = none → KeepsOperand text (next tree)) :
    KeepsOperand text (parser >>= next) :=
  ⟨fun hcursor => .bind fun tree _ htree =>
    have hkeeps := hparser.keeps hcursor htree
    (hnext tree hkeeps.2 (hname.nameless htree)).from_reached hkeeps.1⟩

theorem KeepsOperand.seq_operand {parser : Parser Operand} {next : Operand → Parser Operand}
    [hparser : KeepsOperand text parser]
    (hnext : ∀ operand cursor, Reached text cursor → operand.Ends text cursor →
      EndsFrom text cursor (next operand)) : KeepsOperand text (parser >>= next) :=
  ⟨fun hcursor => .bind fun operand between hrun =>
    have hends := (hparser.from_reached hcursor).ends hrun
    hnext operand between hends.1 hends.2⟩

instance {parser : Parser Tree} {chained isTarget : Bool} [Keeps text parser] [Nameless parser] :
    KeepsOperand text (do return { tree := ← parser, chained, isTarget }) :=
  .seq_nameless fun _ _ hname => keepsOperand_pure hname

end

/-- An operand that is a name ends behind the name. -/
instance {chained isTarget : Bool} :
    KeepsOperand text (do return { tree := .name (← name), chained, isTarget }) := by
  refine ⟨fun hcursor => .bind fun word between hname => ?_⟩
  obtain ⟨escaped, htoken, rfl⟩ := run_name hname
  refine .pure hcursor.advance ⟨trivial, ?_⟩
  rintro _ ⟨⟩
  exact precedes_advance hcursor htoken

/-- A word is a keyword with a value of its own, or a name, which the operand ends behind. -/
instance : KeepsOperand text g.namedValue := by
  rw [namedValue]
  refine .seq fun token _ => ?_
  split <;> infer_instance

/-- Of all values only a name can be a marker; the tree of any other is nameless. -/
instance : KeepsOperand text g.value := by
  rw [value]
  refine .seq fun token _ => ?_
  split
  all_goals try infer_instance
  refine .seq fun _ _ => .seq fun _ _ => .seq_nameless fun tree _ hname => .seq fun _ _ => ?_
  exact keepsOperand_pure hname

/-! ## Accesses, calls and templates behind a value -/

instance : Keeps text followsTypeArguments := by
  rw [followsTypeArguments]
  refine .seq fun cursor _ => ?_
  split
  · infer_instance
  · split <;> infer_instance

/-- An access of a member ends behind the name of the member. -/
instance {operand : Operand} [hoperand : Anchored text operand] :
    KeepsOperand text (do return operand.member (← anyName)) := by
  refine ⟨fun hcursor => .bind fun word between hname => ?_⟩
  obtain ⟨escaped, htoken, rfl⟩ := run_anyName hname
  refine .pure hcursor.advance ?_
  unfold Operand.member
  split
  · exact .of_nameless rfl
  · refine ⟨hoperand.holds, ?_⟩
    rintro _ ⟨⟩
    exact precedes_advance hcursor htoken

instance {operand : Operand} [Anchored text operand] : KeepsOperand text (accessRest operand) := by
  rw [accessRest]
  refine .seq fun token _ => ?_
  split <;> infer_instance

instance {operand : Operand} [Anchored text operand] :
    KeepsOperand text (g.computedAccess operand) := by
  rw [computedAccess]
  infer_instance

/-- Inside of a chain a call is none, so it needs no marker in front of it. -/
instance {operand : Operand} [Anchored text operand] : KeepsOperand text (g.chainRest operand) := by
  rw [chainRest]
  refine .seq fun token _ => ?_
  simp only [Operand.call, if_true]
  split <;> infer_instance

section

variable {operand : Operand} {cursor : Cursor}

theorem markerName?_call {parts : List Tree} : (operand.call parts).tree.markerName? = none := by
  unfold Operand.call
  split <;> rfl

theorem anchored_call [hoperand : Anchored text operand] (parts : List Tree)
    [hparts : Anchored text parts]
    (hmarked : ∀ name, operand.tree.markerName? = some name → Marked text name '(') :
    Anchored text (operand.call parts).tree := by
  unfold Operand.call
  split
  · infer_instance
  · exact ⟨hmarked, hoperand.holds, Tree.allAnchored_iff.mpr fun part hpart =>
      (hparts.holds part hpart).holds⟩

instance {tag : Tree} {types : List Tree} : Nameless (g.taggedTemplate tag types) := by
  rw [taggedTemplate]
  exact .seq fun _ => ⟨fun h => by cases h; rfl⟩

theorem keeps_taggedTemplate {tag : Tree} [htag : Anchored text tag] (types : List Tree)
    [htypes : Anchored text types]
    (hmarked : ∀ name, tag.markerName? = some name → Marked text name '\x60') :
    Keeps text (g.taggedTemplate tag types) := by
  rw [taggedTemplate]
  refine ⟨fun hcursor h => ?_⟩
  obtain ⟨⟨chunks, slots⟩, between, htemplate, h⟩ := run_bind_eq_some.mp h
  cases h
  obtain ⟨hbetween, hparts⟩ := Keeps.keeps hcursor htemplate
  refine ⟨hbetween, ⟨hmarked, htag.holds, ?_, ?_, ?_⟩⟩
  · exact Tree.allAnchored_iff.mpr fun type htype => (htypes.holds type htype).holds
  · exact Tree.allAnchored_iff.mpr fun slot hslot => (hparts.holds.2.holds slot hslot).holds
  · rw [List.length_map, length_chunks_of_template htemplate]

/-- What stands behind type arguments is marked across them. -/
theorem applyTypes_endsFrom {allowCall : Bool} (hcursor : Reached text cursor)
    (hends : operand.Ends text cursor) : EndsFrom text cursor (g.applyTypes allowCall operand) := by
  have : Anchored text operand := ⟨hends.anchored⟩
  rw [applyTypes]
  refine .bind fun types between htypes => ?_
  obtain ⟨hbetween, _⟩ := Keeps.keeps hcursor htypes
  have hmarked {sign : String} {c : Char} (htoken : between.token = .sign sign)
      (hsign : sign.toList = [c]) (name : String)
      (hname : operand.tree.markerName? = some name) : Marked text name c := by
    obtain ⟨gap, hprecedes⟩ := (hends.precedes name hname).types htypes
    exact hprecedes.marked htoken hsign
  refine .bind fun open? _ hopen => ?_
  cases hopen
  split
  · next hcall =>
    refine .seq hbetween fun _ opened _ hopened => .seq hopened fun parts behind _ hbehind => ?_
    have := anchored_call (parts ++ [types]) (hmarked (beq_iff_eq.mp hcall) rfl)
    exact .pure hbehind (.of_nameless markerName?_call)
  · refine .bind fun quote? _ hquote => ?_
    cases hquote
    split
    · next hquote =>
      have := keeps_taggedTemplate (g := g) [types] (hmarked (beq_iff_eq.mp hquote) rfl)
      exact KeepsOperand.from_reached hbetween
    · exact KeepsOperand.from_reached hbetween

/-- From the cursor on, the step gives an operand that ends where it stops, or gets back to where it
started. -/
structure StepsFrom (text : List Char) (start cursor : Cursor) (step : Parser (Option Operand)) :
    Prop where
  none_eq : ∀ {cursor' : Cursor}, step.run cursor = some (none, cursor') → cursor' = start
  some_ends : ∀ {operand : Operand} {cursor' : Cursor},
    step.run cursor = some (some operand, cursor') →
      Reached text cursor' ∧ operand.Ends text cursor'

section

variable {α : Type} {start : Cursor}

theorem StepsFrom.bind {parser : Parser α} {next : α → Parser (Option Operand)}
    (hnext : ∀ result between, parser.run cursor = some (result, between) →
      StepsFrom text start between (next result)) :
    StepsFrom text start cursor (parser >>= next) := by
  refine ⟨fun h => ?_, fun h => ?_⟩
  all_goals obtain ⟨result, between, hrun, h⟩ := run_bind_eq_some.mp h
  · exact (hnext result between hrun).none_eq h
  · exact (hnext result between hrun).some_ends h

theorem StepsFrom.seq [Anchorable α] {parser : Parser α} {next : α → Parser (Option Operand)}
    [hparser : Keeps text parser] (hcursor : Reached text cursor)
    (hnext : ∀ result between, Anchored text result → Reached text between →
      StepsFrom text start between (next result)) : StepsFrom text start cursor (parser >>= next) :=
  .bind fun result between hrun =>
    have hkeeps := hparser.keeps hcursor hrun
    hnext result between hkeeps.2 hkeeps.1

theorem StepsFrom.stop : StepsFrom text cursor cursor (pure none) :=
  ⟨fun h => by cases h; rfl, fun h => by cases h⟩

theorem StepsFrom.go (hcursor : Reached text cursor) (h : operand.Ends text cursor) :
    StepsFrom text start cursor (pure (some operand)) := by
  refine ⟨fun hrun => ?_, fun hrun => ?_⟩
  · cases hrun
  · cases hrun
    exact ⟨hcursor, h⟩

theorem StepsFrom.of_endsFrom {parser : Parser Operand} (h : EndsFrom text cursor parser) :
    StepsFrom text start cursor (do return some (← parser)) :=
  .bind fun _ _ hrun => .go (h.ends hrun).1 (h.ends hrun).2

theorem StepsFrom.attempt {parser : Parser Operand} (h : EndsFrom text cursor parser) :
    StepsFrom text cursor cursor (attempt parser) := by
  refine ⟨fun hrun => ?_, fun hrun => ?_⟩
  · obtain ⟨_, hresult⟩ | hrest := run_attempt hrun
    · cases hresult.1
    · exact hrest.2
  · obtain ⟨_, hresult⟩ | hrest := run_attempt hrun
    · cases hresult.1
      exact h.ends hresult.2
    · cases hrest.1

end

/-- **An access, a call or a template behind an operand keeps to the text.**  A sign that follows
the operand at once marks its name; behind type arguments it marks the name across them. -/
theorem accessStep_stepsFrom {allowCall : Bool} (hcursor : Reached text cursor)
    (hends : operand.Ends text cursor) :
    StepsFrom text cursor cursor (g.accessStep allowCall operand) := by
  have : Anchored text operand := ⟨hends.anchored⟩
  have hmarked {sign : String} {c : Char} (htoken : cursor.token = .sign sign)
      (hsign : sign.toList = [c]) (name : String)
      (hname : operand.tree.markerName? = some name) : Marked text name c :=
    (hends.precedes name hname).marked htoken hsign
  rw [accessStep]
  refine .bind fun token _ htoken => ?_
  cases htoken
  split
  · exact .seq hcursor fun _ _ _ hbetween => .of_endsFrom (KeepsOperand.from_reached hbetween)
  · exact .seq hcursor fun _ _ _ hbetween => .of_endsFrom (KeepsOperand.from_reached hbetween)
  · exact .of_endsFrom (KeepsOperand.from_reached hcursor)
  · next htoken =>
    split
    · refine .seq hcursor fun parts behind _ hbehind => .go hbehind ?_
      have := anchored_call parts (hmarked htoken rfl)
      exact .of_nameless markerName?_call
    · exact .stop
  · next htoken =>
    have := keeps_taggedTemplate (g := g) [] (hmarked htoken rfl)
    refine .bind fun tree behind htree => ?_
    obtain ⟨hbehind, _⟩ := Keeps.keeps hcursor htree
    exact .go hbehind (.of_nameless (Nameless.nameless htree))
  · refine .bind fun ended _ hended => ?_
    cases hended
    split
    · exact .seq hcursor fun _ _ _ hbehind => .go hbehind (.of_nameless rfl)
    · exact .stop
  · split
    · exact .attempt (applyTypes_endsFrom hcursor hends)
    · exact .stop
  · exact .stop

/-- **All that stands behind an operand keeps to the text.** -/
theorem accesses_endsFrom {allowCall : Bool} {bound : Nat} (hcursor : Reached text cursor)
    (hends : operand.Ends text cursor) :
    EndsFrom text cursor (g.accesses allowCall operand bound) := by
  induction bound generalizing operand cursor with
  | zero => exact ⟨fun h => by cases h⟩
  | succ bound ih =>
    rw [accesses]
    refine .bind fun result between hstep => ?_
    cases result with
    | none =>
      obtain rfl := (accessStep_stepsFrom hcursor hends).none_eq hstep
      exact .pure hcursor hends
    | some operand =>
      obtain ⟨hbetween, hends⟩ := (accessStep_stepsFrom hcursor hends).some_ends hstep
      exact ih hbetween hends

end

instance : KeepsOperand text g.importValue := by
  rw [importValue]
  infer_instance

instance : KeepsOperand text g.superValue := by
  rw [superValue]
  refine .seq fun _ _ => .seq fun token _ => ?_
  split
  · infer_instance
  · refine .seq fun _ _ => .seq fun token _ => ?_
    split <;> infer_instance
  · infer_instance
  · infer_instance

/-- The types are tried, and taken back if no arguments follow them. -/
instance : Keeps text g.newTypes := by
  rw [newTypes]
  infer_instance

/-- A new object is no name, but its callee can be one, which is followed through its accesses. -/
instance (bound : Nat) : KeepsOperand text (g.newValue bound) := by
  induction bound with
  | zero =>
    rw [newValue]
    infer_instance
  | succ bound ih =>
    rw [newValue]
    refine .seq fun _ _ => .seq fun accepted _ => ?_
    split
    · infer_instance
    · refine .seq fun _ _ => .seq fun _ _ => .seq fun _ _ => ?_
      extract_lets rest
      have hrest (callee : Operand) (cursor : Cursor) (hcursor : Reached text cursor)
          (hends : callee.Ends text cursor) : EndsFrom text cursor (rest callee) := by
        refine .bind fun callee between haccesses => ?_
        obtain ⟨hbetween, hends⟩ := (accesses_endsFrom hcursor hends).ends haccesses
        have : Anchored text callee.tree := ⟨hends.anchored⟩
        exact KeepsOperand.from_reached hbetween
      split_ifs <;> exact .seq_operand hrest

/-- **An operand ends behind the last access of its value**, and so does the name it may be. -/
instance : KeepsOperand text g.operand := by
  rw [operand]
  refine .seq fun _ _ => .seq fun _ _ => .seq fun _ _ => ?_
  dsimp only
  split_ifs <;> exact .seq_operand fun _ _ => accesses_endsFrom

end Phrasebook.Source.Grammar
