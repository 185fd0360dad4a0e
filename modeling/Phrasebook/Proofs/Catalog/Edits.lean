import Phrasebook.Proofs.Drift.Stable
import Phrasebook.Proofs.Json.Readable

/-!
# Proofs/Catalog/Edits — a catalog reads back after any number of edits

    text ──parse──▸ catalog ──edit──▸ ⋯ ──edit──▸ edited ──render──▸ text ──parse──▸ edited

Printing forgets how an entry was classified and parsing classifies it anew, so a catalog reads
back only if its entries are canonical.  Those that were read are, those that edits put in are, and
no edit makes one of the others differ: that is one lemma for a step, and the round trip is its
fold.
-/

namespace Phrasebook.Catalog

open Json

variable {catalog : Catalog} {p : Number → Prop} {text : String}

/-- One change of a catalog. -/
inductive Edit where
  /-- Sets the entry of a key. -/
  | insert (key : String) (entry : Entry)
  /-- Removes a key. -/
  | erase (key : String)
  /-- Compares the catalog with used keys, which strips plural keys without a rule set. -/
  | diff (usages : KeyUsages) (isDefault : Bool)
  /-- Applies a diff, be it of this catalog or not. -/
  | fix (diff : CatalogDiff) (usages : KeyUsages)

/-- An edit that inserts nothing but what may be written by hand: an entry that waits, a text or a
rule set to be filled in. -/
def Edit.Plain : Edit → Prop
  | .insert _ entry =>
    entry = .null ∨ (∃ text, entry = .scalar text) ∨ entry = .plural PluralRules.skeleton
  | _ => True

/-- The catalog after an edit. -/
def edit (catalog : Catalog) : Edit → Catalog
  | .insert key entry => catalog.insert key entry
  | .erase key => catalog.erase key
  | .diff usages isDefault => (catalog.diff usages isDefault).2
  | .fix diff usages => (catalog.fix diff usages).2

/-- The catalog after a sequence of edits. -/
def editAll (catalog : Catalog) (edits : List Edit) : Catalog := edits.foldl edit catalog

/-- **An edit keeps a catalog canonical.** -/
theorem canonical_edit (hp : p (.whole 50)) (h : catalog.Canonical p) {edit : Edit}
    (he : edit.Plain) : (catalog.edit edit).Canonical p := by
  cases edit with
  | insert key entry =>
    rcases he with rfl | ⟨text, rfl⟩ | rfl
    · exact canonical_insert h Entry.canonical_null
    · exact canonical_insert h (Entry.canonical_scalar text)
    · exact canonical_insert h (Entry.canonical_skeleton hp)
  | erase key => exact canonical_erase h key
  | diff usages isDefault => exact canonical_eraseAll h (catalog.invalidPlurals usages)
  | fix diff usages => exact canonical_fix hp h diff

/-- **So does a sequence of edits.** -/
theorem canonical_editAll (hp : p (.whole 50)) (h : catalog.Canonical p) {edits : List Edit}
    (he : ∀ edit ∈ edits, edit.Plain) : (catalog.editAll edits).Canonical p := by
  induction edits generalizing catalog with
  | nil => exact h
  | cons edit edits ih =>
    exact ih (canonical_edit hp h (he edit List.mem_cons_self))
      fun edit hmem => he edit (List.mem_cons_of_mem _ hmem)

/-- **A catalog that was read reads back after any edits.**  Its text is never refused, and only
numbers can come back changed; if its doubles read back, it is the same catalog, key by key and
entry by entry, and has the same text again. -/
theorem parse_render_editAll (hread : parse text = .ok catalog) (edits : List Edit)
    (he : ∀ edit ∈ edits, edit.Plain) :
    let edited := catalog.editAll edits
    parse edited.render = .ok (edited.mapNumbers Number.reread)
      ∧ ((∀ d, Number.double d ∈ edited.numbers →
            Json.parse (Number.double d).text = .ok (.number (.double d))) →
          parse edited.render = .ok edited ∧ (parse edited.render).map render = .ok edited.render)
      := by
  intro edited
  have hreadable : edited.Canonical Number.Readable :=
    canonical_editAll ⟨_, rereads_whole ⟨by decide, by decide⟩⟩
      (canonical_of_parse holdsOfNumbers_readable hread) he
  have hrange : edited.Canonical Number.InRange :=
    canonical_editAll ⟨by decide, by decide⟩ (canonical_of_parse holdsOfNumbers_inRange hread) he
  refine ⟨parse_render (hreadable.imp fun n _ hn => hn.rereads), fun hn => ?_⟩
  have hback := parse_render_of_doubles hrange hn
  rw [hback]
  exact ⟨rfl, rfl⟩

/-- A catalog text with a rule set that has a field no rule is about, and a value that is no
translation but looks like a rule set. -/
def mixedText : String :=
  "\x7b\"p\":\x7b\"note\":[1,\x7b\x7d],\"manyLimit\":2.5,\"one\":null\x7d,\"x\":\x7b\"one\":3\x7d\x7d"

/-- An edit of each kind. -/
def mixedEdits : List Edit :=
  [.insert "q" (.plural PluralRules.skeleton), .insert "x" .null, .erase "absent",
    .diff { scalar := .ofList ["x"], plural := .ofList ["p", "q"] } false,
    .fix { missing := ["n"], extra := ["q"] } { scalar := .ofList ["n"], plural := .empty },
    .insert "\n\"" (.scalar "\\")]

/-- The catalog of that text reads back after those edits. -/
theorem parse_render_editAll_mixed :
    ∃ catalog, parse mixedText = .ok catalog
      ∧ (catalog.editAll mixedEdits).keys = ["p", "x", markerKey, "n", "", "\n\""]
      ∧ parse (catalog.editAll mixedEdits).render = .ok (catalog.editAll mixedEdits) := by
  have hplain : ∀ edit ∈ mixedEdits, edit.Plain := by
    simp [mixedEdits, Edit.Plain]
  have hshape : (parse mixedText).toOption.map (fun catalog =>
      ((catalog.editAll mixedEdits).keys, (catalog.editAll mixedEdits).numbers))
        = some (["p", "x", markerKey, "n", "", "\n\""], [.double 2.5, .whole 1]) := by
    decide +kernel
  cases hread : parse mixedText with
  | error error =>
    rw [hread] at hshape
    cases hshape
  | ok catalog =>
    rw [hread, Except.toOption, Option.map_some, Option.some.injEq, Prod.mk.injEq] at hshape
    refine ⟨catalog, rfl, hshape.1, ?_⟩
    refine ((parse_render_editAll hread mixedEdits hplain).2 fun d hd => ?_).1
    rw [hshape.2] at hd
    obtain rfl : d = 2.5 := by simpa using hd
    exact parse_text_half

end Phrasebook.Catalog
