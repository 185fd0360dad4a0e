import Phrasebook.Proofs.Source.Anchored
import Phrasebook.Proofs.Source.Token
import Phrasebook.Source.Grammar

/-!
# Proofs/Source/Grammar/Basic — parsers that keep to their text

A parser keeps to a text if, from a cursor in the text, it only gets to cursors in the text and only
gives results that are anchored in it (`Keeps`).  What a result is anchored by depends on its type
(`Anchorable`): a tree by its markers, a cursor by the text it starts, other data by nothing.

Parsers are put together from a few parts, and a whole keeps to a text if its parts do.  The rules
for that are instances, so that the proof for a construct follows its definition; only where a
parser looks at the text itself does its proof say why it stays in it.
-/

-- The instance for a sequence holds one for every rest of it, so long parsers need many.
set_option synthInstance.maxSize 4096

namespace Phrasebook.Source

open Phrasebook.Source.Parser

theorem run_bind_eq_some {α β : Type} {parser : Parser α} {next : α → Parser β} {cursor : Cursor}
    {out : β × Cursor} :
    (parser >>= next).run cursor = some out ↔
      ∃ result between, parser.run cursor = some (result, between) ∧
        (next result).run between = some out := by
  rw [StateT.run_bind, Option.bind_eq_bind, Option.bind_eq_some_iff, Prod.exists]

/-! ## Results -/

/-- Whether a cursor is at a token of the text. -/
def Reached (text : List Char) (cursor : Cursor) : Prop :=
  ∃ rest, rest <:+ text ∧ cursor = .start rest

/-- The results that parsers give, with what it means that one comes from a text. -/
class Anchorable (α : Type) where
  Holds : List Char → α → Prop

/-- Data that no text is needed for. -/
class Textless (α : Type) : Prop

instance : Textless Unit := ⟨⟩

instance : Textless Bool := ⟨⟩

instance : Textless String := ⟨⟩

instance : Textless Token := ⟨⟩

instance : Textless Chunk := ⟨⟩

/-- Whether a result comes from the text. -/
class Anchored (text : List Char) {α : Type} [Anchorable α] (result : α) : Prop where
  holds : Anchorable.Holds text result

instance {α : Type} [Textless α] : Anchorable α := ⟨fun _ _ => True⟩

instance : Anchorable Tree := ⟨Tree.Anchored⟩

instance : Anchorable Cursor := ⟨Reached⟩

section

variable {text : List Char} {α β : Type} [Anchorable α] [Anchorable β]

instance : Anchorable (List α) := ⟨fun text results => ∀ result ∈ results, Anchored text result⟩

instance : Anchorable (Option α) := ⟨fun text result? => ∀ result ∈ result?, Anchored text result⟩

instance : Anchorable (α × β) := ⟨fun text pair => Anchored text pair.1 ∧ Anchored text pair.2⟩

instance (result : {result : α // Anchored text result}) : Anchored text result.1 := result.2

instance {γ : Type} [Textless γ] (result : γ) : Anchored text result := ⟨trivial⟩

instance : Anchored text ([] : List α) := ⟨by rintro _ ⟨⟩⟩

instance {result : α} {results : List α} [hfirst : Anchored text result]
    [hrest : Anchored text results] : Anchored text (result :: results) :=
  ⟨List.forall_mem_cons.mpr ⟨hfirst, hrest.holds⟩⟩

instance {first second : List α} [hfirst : Anchored text first] [hsecond : Anchored text second] :
    Anchored text (first ++ second) :=
  ⟨List.forall_mem_append.mpr ⟨hfirst.holds, hsecond.holds⟩⟩

instance : Anchored text (none : Option α) := ⟨by rintro _ ⟨⟩⟩

instance {result : α} [hresult : Anchored text result] : Anchored text (some result) :=
  ⟨by rintro _ ⟨⟩; exact hresult⟩

instance {result? : Option α} [hresult : Anchored text result?] : Anchored text result?.toList :=
  ⟨fun result h => hresult.holds result (Option.mem_toList.mp h)⟩

instance {first : α} {second : β} [hfirst : Anchored text first] [hsecond : Anchored text second] :
    Anchored text (first, second) := ⟨hfirst, hsecond⟩

instance {pair : α × β} [hpair : Anchored text pair] : Anchored text pair.1 := hpair.holds.1

instance {pair : α × β} [hpair : Anchored text pair] : Anchored text pair.2 := hpair.holds.2

/-- A construct that is no usage needs no place of its own. -/
instance {parts : List Tree} [hparts : Anchored text parts] : Anchored text (Tree.other parts) :=
  ⟨Tree.allAnchored_iff.mpr fun part hpart => (hparts.holds part hpart).holds⟩

instance : Anchored text Tree.leaf := ⟨trivial⟩

/-! ## Parsers -/

/-- The parser stays in the text and its results come from there. -/
class Keeps (text : List Char) (parser : Parser α) : Prop where
  keeps : ∀ {cursor cursor' : Cursor} {result : α}, Reached text cursor →
    parser.run cursor = some (result, cursor') → Reached text cursor' ∧ Anchored text result

instance {result : α} [hresult : Anchored text result] : Keeps text (pure result : Parser α) :=
  ⟨fun hcursor h => by cases h; exact ⟨hcursor, hresult⟩⟩

/-- A sequence keeps to the text if its parts do.  The second part takes its argument together with
the fact that it comes from the text, for instances to find it. -/
instance Keeps.bind {parser : Parser α} {next : α → Parser β} [hparser : Keeps text parser]
    [hnext : ∀ result : {result : α // Anchored text result}, Keeps text (next result.1)] :
    Keeps text (parser >>= next) := ⟨by
  intro cursor cursor' result hcursor h
  obtain ⟨first, between, hfirst, h⟩ := run_bind_eq_some.mp h
  obtain ⟨hbetween, hresult⟩ := hparser.keeps hcursor hfirst
  exact (hnext ⟨first, hresult⟩).keeps hbetween h⟩

/-- The same for a first part that no instance is known of. -/
theorem Keeps.and_then {parser : Parser α} {next : α → Parser β} (hparser : Keeps text parser)
    (hnext : ∀ result, Anchored text result → Keeps text (next result)) :
    Keeps text (parser >>= next) :=
  @Keeps.bind _ _ _ _ _ _ _ hparser fun result => hnext _ result.2

/-- The same for a second part that no instance is found for at once. -/
theorem Keeps.seq {parser : Parser α} {next : α → Parser β} [hparser : Keeps text parser]
    (hnext : ∀ result, Anchored text result → Keeps text (next result)) :
    Keeps text (parser >>= next) := hparser.and_then hnext

instance {parser : Parser α} {f : α → β} [hparser : Keeps text parser]
    [hf : ∀ result : {result : α // Anchored text result}, Anchored text (f result.1)] :
    Keeps text (f <$> parser) := by
  rw [map_eq_pure_bind]
  infer_instance

instance {first second : Parser α} {condition : Prop} [Decidable condition] [Keeps text first]
    [Keeps text second] : Keeps text (if condition then first else second) := by
  split <;> infer_instance

instance : Keeps text (failure : Parser α) := ⟨fun _ h => by cases h⟩

/-- A parser that fails leaves the cursor alone, so the second one starts where the first did. -/
theorem Keeps.orElse {first second : Parser α} (hfirst : Keeps text first)
    (hsecond : Keeps text second) : Keeps text (first <|> second) := ⟨by
  intro cursor cursor' result hcursor h
  change (first.run cursor <|> second.run cursor) = _ at h
  cases hrun : first.run cursor with
  | some out =>
    rw [hrun] at h
    exact hfirst.keeps hcursor (hrun.trans h)
  | none =>
    rw [hrun] at h
    exact hsecond.keeps hcursor h⟩

instance {first second : Parser α} [hfirst : Keeps text first] [hsecond : Keeps text second] :
    Keeps text (first <|> second) := hfirst.orElse hsecond

end

/-! ## Cursors -/

section

variable {text : List Char} {α : Type} [Anchorable α]

instance : Keeps text (get : Parser Cursor) :=
  ⟨fun hcursor h => by cases h; exact ⟨hcursor, ⟨hcursor⟩⟩⟩

theorem Reached.after {cursor : Cursor} (h : Reached text cursor) : cursor.after <:+ text := by
  obtain ⟨rest, hrest, rfl⟩ := h
  exact (start_after_suffix rest).trans hrest

theorem Reached.here {cursor : Cursor} (h : Reached text cursor) : cursor.here <:+ text := by
  obtain ⟨rest, hrest, rfl⟩ := h
  exact (start_here_suffix rest).trans hrest

/-- A template is read on behind the chunk that the cursor is in front of. -/
theorem Reached.chunk {cursor : Cursor} {bound : List Char} {chunk : Chunk}
    (h : Reached text cursor) (hchunk : readChunk bound cursor.after = some chunk) :
    chunk.rest <:+ text := (readChunk_suffix hchunk).trans h.after

theorem Reached.advance {cursor : Cursor} (h : Reached text cursor) :
    Reached text cursor.advance := ⟨cursor.after, h.after, rfl⟩

theorem keeps_set {cursor : Cursor} (hcursor : Reached text cursor) :
    Keeps text (set cursor : Parser PUnit) := ⟨fun _ h => by cases h; exact ⟨hcursor, ⟨trivial⟩⟩⟩

/-- A parser may go on at any end of the text, which is how it passes over what are no tokens. -/
theorem keeps_set_start {rest : List Char} (h : rest <:+ text) :
    Keeps text (set (Cursor.start rest) : Parser PUnit) := keeps_set ⟨rest, h, rfl⟩

instance : Keeps text token := by
  rw [token]
  infer_instance

/-- The next token stands behind the one at the cursor. -/
instance : Keeps text next := ⟨fun hcursor h => by cases h; exact ⟨hcursor.advance, ⟨trivial⟩⟩⟩

instance : Keeps text lineEnded := by
  rw [lineEnded]
  infer_instance

/-- The cursor ahead is a result here, and the parser stays where it is. -/
instance : Keeps text ahead := ⟨fun hcursor h => by cases h; exact ⟨hcursor, ⟨hcursor.advance⟩⟩⟩

/-! ## Parts that all constructs share -/

instance (condition : Bool) : Keeps text (require condition) := by
  rw [require]
  infer_instance

instance (sign : String) : Keeps text (atSign sign) := by
  rw [atSign]
  infer_instance

instance (word : String) : Keeps text (atWord word) := by
  rw [atWord]
  infer_instance

instance (sign : String) : Keeps text (Parser.sign sign) := by
  rw [Parser.sign]
  infer_instance

instance (word : String) : Keeps text (Parser.word word) := by
  rw [Parser.word]
  infer_instance

instance (sign : String) : Keeps text (acceptSign sign) := by
  rw [acceptSign]
  infer_instance

instance (word : String) : Keeps text (acceptWord word) := by
  rw [acceptWord]
  infer_instance

instance : Keeps text anyName := by
  rw [anyName]
  refine .seq fun token _ => ?_
  split <;> infer_instance

instance : Keeps text name := by
  rw [name]
  refine .seq fun token _ => ?_
  split <;> infer_instance

instance : Keeps text Parser.text := by
  rw [Parser.text]
  refine .seq fun token _ => ?_
  split <;> infer_instance

theorem Keeps.attempt {parser : Parser α} (hparser : Keeps text parser) :
    Keeps text (attempt parser) := by
  rw [Parser.attempt]
  infer_instance

instance {parser : Parser α} [hparser : Keeps text parser] : Keeps text (attempt parser) :=
  hparser.attempt

/-- The cursor is put back where it was, so only whether the parser works is kept. -/
instance {parser : Parser α} [Keeps text parser] : Keeps text (fits parser) := by
  rw [fits]
  refine .seq fun cursor hcursor => .seq fun result? _ => ?_
  cases result? with
  | none => infer_instance
  | some result =>
    exact .and_then (keeps_set hcursor.holds) fun _ _ => inferInstance

/-- A row keeps to the text if each of its steps does; the one that gives nothing ends it. -/
theorem Keeps.collect {step : Parser (Option α)} (hstep : Keeps text step) (bound : Nat) :
    Keeps text (collect step bound) := by
  induction bound with
  | zero =>
    rw [Parser.collect]
    infer_instance
  | succ bound ih =>
    rw [Parser.collect]
    refine .seq fun result? hresult => ?_
    cases result? with
    | none => infer_instance
    | some result =>
      have := hresult.holds result rfl
      infer_instance

instance {step : Parser (Option α)} [hstep : Keeps text step] (bound : Nat) :
    Keeps text (collect step bound) := hstep.collect bound

theorem Keeps.commaList {item : Parser α} (hitem : Keeps text item) (bound : Nat)
    (close : String) : Keeps text (commaList bound close item) := by
  rw [Parser.commaList]
  dsimp only
  infer_instance

instance {item : Parser α} [hitem : Keeps text item] (bound : Nat) (close : String) :
    Keeps text (commaList bound close item) := hitem.commaList bound close

instance {item : Parser α} [Keeps text item] (bound : Nat) :
    Keeps text (commaItems bound item) := by
  rw [commaItems]
  infer_instance

instance : Keeps text endStatement := by
  rw [endStatement]
  infer_instance

instance : Keeps text (firstOf ([] : List (Parser α))) := by
  rw [firstOf]
  infer_instance

instance {first : Parser α} {rest : List (Parser α)} [Keeps text first]
    [Keeps text (firstOf rest)] : Keeps text (firstOf (first :: rest)) := by
  rw [firstOf]
  infer_instance

end

/-! ## Signs that were passed -/

section

variable {α : Type} {cursor cursor' : Cursor}

theorem run_require {condition : Bool} {result : Unit}
    (h : (require condition).run cursor = some (result, cursor')) :
    condition = true ∧ cursor' = cursor := by
  rw [require] at h
  split at h
  · next hcondition =>
    cases h
    exact ⟨hcondition, rfl⟩
  · cases h

/-- A parser that goes on only at a sign is at the sign, and the rest of it works there. -/
theorem run_require_atSign {sign : String} {next : Unit → Parser α} {out : α × Cursor}
    (h : (atSign sign >>= fun here => require here >>= next).run cursor = some out) :
    cursor.token = .sign sign ∧ (next ()).run cursor = some out := by
  obtain ⟨_, _, hat, hbehind⟩ := run_bind_eq_some.mp h
  cases hat
  obtain ⟨_, _, hrequire, hnext⟩ := run_bind_eq_some.mp hbehind
  obtain ⟨hsign, rfl⟩ := run_require hrequire
  exact ⟨beq_iff_eq.mp hsign, hnext⟩

theorem run_sign {sign : String} {result : Unit}
    (h : (Parser.sign sign).run cursor = some (result, cursor')) :
    cursor.token = .sign sign ∧ cursor' = cursor.advance := by
  rw [Parser.sign] at h
  obtain ⟨hsign, hnext⟩ := run_require_atSign h
  cases hnext
  exact ⟨hsign, rfl⟩

theorem run_anyName {word : String} (h : anyName.run cursor = some (word, cursor')) :
    ∃ escaped, cursor.token = .word word escaped ∧ cursor' = cursor.advance := by
  rw [anyName] at h
  obtain ⟨_, _, htoken, hnext⟩ := run_bind_eq_some.mp h
  cases htoken
  split at hnext
  · next escaped htoken =>
    cases hnext
    exact ⟨escaped, htoken, rfl⟩
  · cases hnext

theorem nameOf?_eq_some {token : Token} {word : String} (h : nameOf? token = some word) :
    ∃ escaped, token = .word word escaped := by
  unfold nameOf? at h
  grind

theorem run_name {word : String} (h : name.run cursor = some (word, cursor')) :
    ∃ escaped, cursor.token = .word word escaped ∧ cursor' = cursor.advance := by
  rw [name] at h
  obtain ⟨_, _, htoken, hnext⟩ := run_bind_eq_some.mp h
  cases htoken
  split at hnext
  · next hname =>
    cases hnext
    obtain ⟨escaped, htoken⟩ := nameOf?_eq_some hname
    exact ⟨escaped, htoken, rfl⟩
  · cases hnext

theorem run_attempt {parser : Parser α} {result? : Option α}
    (h : (attempt parser).run cursor = some (result?, cursor')) :
    (∃ result, result? = some result ∧ parser.run cursor = some (result, cursor')) ∨
      (result? = none ∧ cursor' = cursor) := by
  change ((some <$> parser).run cursor <|> some (none, cursor)) = _ at h
  rw [StateT.run_map] at h
  cases hrun : parser.run cursor with
  | some out =>
    rw [hrun] at h
    cases h
    exact .inl ⟨_, rfl, rfl⟩
  | none =>
    rw [hrun] at h
    cases h
    exact .inr ⟨rfl, rfl⟩

/-- A list of items ends with its closing sign. -/
theorem run_commaList {text : List Char} [Anchorable α] {item : Parser α} [Keeps text item]
    {bound : Nat} {close : String} {results : List α} (hcursor : Reached text cursor)
    (h : (commaList bound close item).run cursor = some (results, cursor')) :
    ∃ closing, Reached text closing ∧ closing.token = .sign close ∧ cursor' = closing.advance := by
  rw [commaList] at h
  obtain ⟨items, closing, hitems, h⟩ := run_bind_eq_some.mp h
  obtain ⟨_, behind, hclose, h⟩ := run_bind_eq_some.mp h
  cases h
  obtain ⟨htoken, rfl⟩ := run_sign hclose
  have hkeeps := Keeps.keeps hcursor hitems
  exact ⟨closing, hkeeps.1, htoken, rfl⟩

end

/-! ## Trees that are no names -/

/-- The trees of the parser cannot be markers. -/
class Nameless (parser : Parser Tree) : Prop where
  nameless : ∀ {cursor cursor' : Cursor} {tree : Tree},
    parser.run cursor = some (tree, cursor') → tree.markerName? = none

section

variable {α : Type}

instance (parts : List Tree) : Nameless (pure (.other parts)) := ⟨fun h => by cases h; rfl⟩

instance : Nameless (pure .leaf) := ⟨fun h => by cases h; rfl⟩

instance : Nameless failure := ⟨fun h => by cases h⟩

/-- A sequence gives what its last part gives. -/
theorem Nameless.seq {parser : Parser α} {next : α → Parser Tree}
    (hnext : ∀ result, Nameless (next result)) : Nameless (parser >>= next) := ⟨by
  intro cursor cursor' tree h
  obtain ⟨first, between, -, h⟩ := run_bind_eq_some.mp h
  exact (hnext first).nameless h⟩

instance {parser : Parser α} {next : α → Parser Tree} [hnext : ∀ result, Nameless (next result)] :
    Nameless (parser >>= next) := .seq hnext

instance {first second : Parser Tree} {condition : Prop} [Decidable condition] [Nameless first]
    [Nameless second] : Nameless (if condition then first else second) := by
  split <;> infer_instance

end

/-! ## Grammars -/

/-- The grammar is that of a level, its parsers keep to every text, and elements and classes are no
names. -/
class Grammar.Sound (g : Grammar) : Prop where
  of_level : ∃ dialect level, g = grammar dialect level
  assignment (text : List Char) (allowIn : Bool) : Keeps text (g.assignment allowIn)
  unary (text : List Char) : Keeps text g.unary
  statement (text : List Char) : Keeps text g.statement
  type (text : List Char) : Keeps text g.type
  binding (text : List Char) : Keeps text g.binding
  element (text : List Char) : Keeps text g.element
  classRest (text : List Char) : Keeps text g.classRest
  element_nameless : Nameless g.element
  classRest_nameless : Nameless g.classRest

namespace Grammar

variable {text : List Char} {g : Grammar} [hg : g.Sound]

instance (allowIn : Bool) : Keeps text (g.assignment allowIn) := hg.assignment text allowIn

instance : Keeps text g.unary := hg.unary text

instance : Keeps text g.statement := hg.statement text

instance : Keeps text g.type := hg.type text

instance : Keeps text g.binding := hg.binding text

instance : Keeps text g.element := hg.element text

instance : Keeps text g.classRest := hg.classRest text

instance : Nameless g.element := hg.element_nameless

instance : Nameless g.classRest := hg.classRest_nameless

/-- An expression without commas is the tree itself, which may be a name. -/
instance (allowIn : Bool) : Keeps text (g.expression allowIn) := by
  rw [expression]
  refine .seq fun results hresults => ?_
  split
  · next single =>
    have := hresults.holds single (List.mem_singleton_self single)
    infer_instance
  · infer_instance

instance : Keeps text g.block := by
  rw [block]
  infer_instance

/-- By the bound: behind a chunk stands a slot, and behind its brace the next chunk. -/
instance (bound : Nat) : Keeps text (g.templateTail bound) := by
  induction bound with
  | zero =>
    rw [templateTail]
    infer_instance
  | succ bound ih =>
    rw [templateTail]
    refine .seq fun cursor hcursor => ?_
    cases hchunk : readChunk (' ' :: cursor.after) cursor.after with
    | none => infer_instance
    | some chunk =>
      exact .and_then (keeps_set_start (hcursor.holds.chunk hchunk)) fun _ _ => inferInstance

instance : Keeps text g.template := by
  rw [template]
  infer_instance

omit hg in
/-- A template has one chunk more than it has slots. -/
theorem length_chunks_of_templateTail {bound : Nat} {cursor cursor' : Cursor} {chunks : List Chunk}
    {slots : List Tree} (h : (g.templateTail bound).run cursor = some ((chunks, slots), cursor')) :
    chunks.length = slots.length + 1 := by
  induction bound generalizing cursor chunks slots with
  | zero =>
    rw [templateTail] at h
    cases h
  | succ bound ih =>
    rw [templateTail] at h
    obtain ⟨start, _, hget, h⟩ := run_bind_eq_some.mp h
    split at h
    · cases h
    · obtain ⟨_, _, -, h⟩ := run_bind_eq_some.mp h
      split at h
      · cases h
        rfl
      · obtain ⟨_, _, -, h⟩ := run_bind_eq_some.mp h
        obtain ⟨_, _, -, h⟩ := run_bind_eq_some.mp h
        obtain ⟨_, _, -, h⟩ := run_bind_eq_some.mp h
        obtain ⟨⟨chunks, slots⟩, _, htail, h⟩ := run_bind_eq_some.mp h
        cases h
        rw [List.length_cons, List.length_cons, ih htail]

omit hg in
theorem length_chunks_of_template {cursor cursor' : Cursor} {chunks : List Chunk}
    {slots : List Tree} (h : g.template.run cursor = some ((chunks, slots), cursor')) :
    chunks.length = slots.length + 1 := by
  rw [template] at h
  exact length_chunks_of_templateTail (run_require_atSign h).2

instance : Keeps text g.plainTemplate := by
  rw [plainTemplate]
  refine .seq fun parts _ => ?_
  dsimp only
  infer_instance

/-- A template without a tag is no name, so it is no tag of the next one either. -/
instance : Nameless g.plainTemplate := by
  rw [plainTemplate]
  infer_instance

end Grammar

end Phrasebook.Source
