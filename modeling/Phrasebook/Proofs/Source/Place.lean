import Phrasebook.Source.Grammar
import Phrasebook.Usage
import Phrasebook.Markers
import Phrasebook.Proofs.Text.Search

/-!
# Proofs/Source/Place — where a marker stands in a text

A usage needs the name of its marker and, behind it, a sign: a backquote or a parenthesis.  The
language leaves two freedoms in between.  The name can be spelled with escapes (`Spells`), and
blanks, comments and type arguments can stand in front of the sign (`Gap`).

    before   i18n.\u005f_   /* a comment */   `   after
                  spelling        gap        sign

A place that uses neither freedom is plain, and **the filter sees exactly the plain places**, and
every mention of the library (`mayOccurIn_iff`).
-/

namespace Phrasebook

namespace Source

/-! ## Names with escapes -/

/-- The characters write the name, each of its characters as it is or as an escape. -/
inductive Spells : List Char → List Char → Prop
  | nil : Spells [] []
  | plain (c : Char) {spelling name : List Char} :
    Spells spelling name → Spells (c :: spelling) (c :: name)
  | escaped {digits spelling name : List Char} {point : Nat} :
    unicodeEscape? digits = some (point, []) → Spells spelling name →
      Spells ('\\' :: 'u' :: digits ++ spelling) (Char.ofNat point :: name)

/-! ## Gaps -/

/-- Blanks and comments, one behind the other; a comment that ends with its line has a line behind
it. -/
inductive Blanks : List Char → Prop
  | nil : Blanks []
  | blank {c : Char} {rest : List Char} :
    isLineEnd c = true ∨ isSpace c = true → Blanks rest → Blanks (c :: rest)
  | line (words : List Char) {rest : List Char} {lineEnd : Char} :
    (∀ c ∈ words, isLineEnd c = false) → isLineEnd lineEnd = true → Blanks rest →
      Blanks ('/' :: '/' :: words ++ lineEnd :: rest)
  | block (words : List Char) {rest : List Char} :
    ¬ ['*', '/'] <:+: words → Blanks rest → Blanks ('/' :: '*' :: words ++ '*' :: '/' :: rest)

/-- What can stand between the name of a marker and the text that its sign starts: blanks and
comments, also around type arguments that can be read there. -/
inductive Gap (rest : List Char) : List Char → Prop
  | blanks {gap : List Char} : Blanks gap → Gap rest gap
  | types {before types behind : List Char} {dialect : Dialect} {level : Nat} {tree : Tree} :
    Blanks before → Blanks behind →
      (grammar dialect level).typeArguments.run
          (.start (before ++ '<' :: types ++ '>' :: behind ++ rest))
        = some (tree, .start (behind ++ rest)) →
      Gap rest (before ++ '<' :: types ++ '>' :: behind)

/-! ## Places -/

/-- A text cut around a name and the sign behind it. -/
structure Place where
  before : List Char
  spelling : List Char
  gap : List Char
  after : List Char

/-- Whether the text, cut there, shows the name with the sign behind it. -/
structure Place.Shows (place : Place) (name : String) (sign : Char) (text : List Char) : Prop where
  cut : text = place.before ++ place.spelling ++ place.gap ++ sign :: place.after
  spells : Spells place.spelling name.toList
  between : Gap (sign :: place.after) place.gap

/-- Whether the name is written as it is and the sign follows at once. -/
def Place.Plain (place : Place) (name : String) : Prop :=
  place.spelling = name.toList ∧ place.gap = []

theorem Spells.refl (name : List Char) : Spells name name := by
  induction name with
  | nil => exact .nil
  | cons c name ih => exact .plain c ih

/-- A plain place of a name is an occurrence of the name with its sign. -/
theorem exists_plain_iff {name : String} {sign : Char} {text : List Char} :
    (∃ place : Place, place.Shows name sign text ∧ place.Plain name) ↔
      name.toList ++ [sign] <:+: text := by
  constructor
  · rintro ⟨⟨before, spelling, gap, after⟩, ⟨rfl, -, -⟩, rfl, rfl⟩
    exact ⟨before, after, by simp⟩
  · rintro ⟨before, after, rfl⟩
    refine ⟨⟨before, name.toList, [], after⟩, ⟨by simp, .refl _, .blanks .nil⟩, rfl, rfl⟩

end Source

/-! ## The filter -/

/-- The name of the marker of a kind. -/
def Markers.name (markers : Markers) : Kind → String
  | .scalar => markers.scalar
  | .plural => markers.plural

/-- The sign behind the marker of a kind: templates follow the one, arguments the other. -/
def Kind.sign : Kind → Char
  | .scalar => '\x60'
  | .plural => '('

/-- **The filter lets a text through exactly if it mentions the library or has a plain place of a
marker.** -/
theorem Markers.mayOccurIn_iff {markers : Markers} {code : String} :
    markers.mayOccurIn code = true ↔
      libraryName.toList <:+: code.toList ∨
        ∃ (kind : Kind) (place : Source.Place),
          place.Shows (markers.name kind) kind.sign code.toList ∧
            place.Plain (markers.name kind) := by
  have hkinds (p : Kind → Prop) : (∃ kind, p kind) ↔ p .scalar ∨ p .plural :=
    ⟨fun ⟨kind, h⟩ => by cases kind <;> simp [h], by rintro (h | h) <;> exact ⟨_, h⟩⟩
  simp only [hkinds, Source.exists_plain_iff, Markers.mayOccurIn, Bool.or_eq_true,
    Text.occurs_iff, Markers.name, Kind.sign, or_assoc]

end Phrasebook
