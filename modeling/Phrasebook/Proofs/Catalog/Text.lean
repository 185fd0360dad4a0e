import Phrasebook.Catalog.Text
import Phrasebook.Proofs.Catalog
import Phrasebook.Proofs.Entry
import Phrasebook.Proofs.Json.Parsed
import Phrasebook.Proofs.Json.RoundTrip

/-!
# Proofs/Catalog/Text — a written catalog reads back

Every catalog that was read is canonical, and a canonical catalog that is written is read as itself
up to its numbers.  With numbers that read back as themselves, writing after reading changes the
text at most once.
-/

namespace Phrasebook.Catalog

open Json

variable {catalog : Catalog} {p q : Number → Prop} {f : Number → Number} {key : String}
  {entry : Entry} {fields : List (String × Json)}

/-- All entries are canonical. -/
def Canonical (p : Number → Prop) (catalog : Catalog) : Prop :=
  ∀ field ∈ catalog.entries, field.2.Canonical p

/-- The numbers that are written for a catalog. -/
def numbers (catalog : Catalog) : List Number := numbersOfFields catalog.toFields

theorem mem_numbers {n : Number} :
    n ∈ catalog.numbers ↔ ∃ field ∈ catalog.entries, n ∈ field.2.toJson.numbers := by
  rw [numbers, mem_numbersOfFields, toFields]
  simp only [List.mem_map]
  constructor
  · rintro ⟨field, ⟨entry, hentry, rfl⟩, hn⟩
    exact ⟨entry, hentry, hn⟩
  · rintro ⟨entry, hentry, hn⟩
    exact ⟨_, ⟨entry, hentry, rfl⟩, hn⟩

theorem Canonical.of_get? (h : catalog.Canonical p) (hget : catalog.get? key = some entry) :
    entry.Canonical p := h _ (get?_eq_some_iff.1 hget)

/-- What holds of the numbers of a canonical catalog can be exchanged. -/
theorem Canonical.imp (h : catalog.Canonical p) (hq : ∀ n ∈ catalog.numbers, p n → q n) :
    catalog.Canonical q := fun field hf =>
  ⟨(h field hf).fits, fun n hn => hq n (mem_numbers.2 ⟨field, hf, hn⟩) ((h field hf).numbers n hn),
    (h field hf).classify_toJson⟩

theorem canonical_insert (h : catalog.Canonical p) (he : entry.Canonical p) :
    (catalog.insert key entry).Canonical p := by
  intro field hf
  have hget : (catalog.insert key entry).get? field.1 = some field.2 := get?_eq_some_iff.2 hf
  rw [get?_insert] at hget
  split at hget
  · cases hget
    exact he
  · exact h.of_get? hget

theorem canonical_eraseAll (h : catalog.Canonical p) (keys : List String) :
    (catalog.eraseAll keys).Canonical p := by
  intro field hf
  rw [entries_eraseAll, List.mem_filter] at hf
  exact h field hf.1

theorem canonical_erase (h : catalog.Canonical p) (key : String) :
    (catalog.erase key).Canonical p := canonical_eraseAll h [key]

/-! ## Reading -/

theorem canonical_foldl (h : catalog.Canonical p)
    (hfields : ∀ field ∈ fields, (Entry.classify field.2).Canonical p) :
    (fields.foldl (fun catalog (field : String × Json) =>
      catalog.insert field.1 (Entry.classify field.2)) catalog).Canonical p := by
  induction fields generalizing catalog with
  | nil => exact h
  | cons field fields ih =>
    exact ih (canonical_insert h (hfields field (by simp)))
      fun field hf => hfields field (List.mem_cons_of_mem _ hf)

/-- **A catalog that was read is canonical.** -/
theorem canonical_of_parse (hp : Scan.HoldsOfNumbers p) {text : String}
    (h : parse text = .ok catalog) : catalog.Canonical p := by
  rw [parse] at h
  split at h
  · rename_i fields hread
    cases h
    obtain ⟨⟨-, -, hfit⟩, hn⟩ := fits_of_parse hp hread
    have hempty : empty.Canonical p := fun _ hf => absurd hf List.not_mem_nil
    refine canonical_foldl hempty fun field hf => ?_
    exact Entry.canonical_classify (fitFields_iff.1 hfit field hf) fun n hmem =>
      hn n (mem_numbersOfFields.2 ⟨field, hf, hmem⟩)
  · cases h
  · cases h

/-! ## Writing -/

/-- The catalog with other numbers. -/
def mapNumbers (f : Number → Number) (catalog : Catalog) : Catalog where
  entries := catalog.entries.map fun field => (field.1, field.2.mapNumbers f)
  distinct := by
    rw [Fields.names, List.map_map]
    exact catalog.distinct

theorem get?_mapNumbers :
    (catalog.mapNumbers f).get? key = (catalog.get? key).map (Entry.mapNumbers f) :=
  Fields.get?_map fun _ entry => Entry.mapNumbers f entry

/-- Fields with distinct names become entries one by one. -/
theorem entries_foldl (h : (keys catalog ++ Fields.names fields).Nodup) :
    (fields.foldl (fun catalog (field : String × Json) =>
      catalog.insert field.1 (Entry.classify field.2)) catalog).entries
      = catalog.entries ++ fields.map fun field => (field.1, Entry.classify field.2) := by
  induction fields generalizing catalog with
  | nil => simp
  | cons field fields ih =>
    have hnew : field.1 ∉ catalog.keys := fun hmem =>
      (List.nodup_append.1 h).2.2 field.1 hmem field.1 (by simp) rfl
    have hentries : (catalog.insert field.1 (Entry.classify field.2)).entries
        = catalog.entries ++ [(field.1, Entry.classify field.2)] := entries_insert_of_not_mem hnew
    rw [List.foldl_cons, ih (by rw [keys_insert_of_not_mem hnew]; simpa using h), hentries]
    simp

/-- **A catalog that was read has the fields of its object**, in their order, each classified. -/
theorem entries_of_parse {text : String} (h : parse text = .ok catalog) :
    ∃ fields, Json.parse text = .ok (.object fields)
      ∧ catalog.entries = fields.map fun field => (field.1, Entry.classify field.2) := by
  rw [parse] at h
  split at h
  · rename_i fields hread
    cases h
    have hnames : (Fields.names fields).Nodup := (fits_of_parse holdsOfNumbers_inRange hread).1.2.1
    exact ⟨fields, hread, entries_foldl hnames⟩
  · cases h
  · cases h

/-- **A catalog reads back from its fields**, with the numbers that these have. -/
theorem ofFields_mapFields (h : catalog.Canonical p) :
    ofFields (mapFields f catalog.toFields) = catalog.mapNumbers f := by
  have hnames : Fields.names (mapFields f catalog.toFields) = catalog.keys := by
    rw [mapFields_eq_map, toFields, Fields.names, List.map_map, List.map_map]
    rfl
  refine ext_entries ?_
  rw [ofFields, entries_foldl (by rw [hnames]; exact catalog.distinct), mapFields_eq_map, toFields,
    List.map_map, List.map_map, mapNumbers]
  refine List.map_congr_left fun field hf => ?_
  have hsame := (h field hf).classify_toJson
  simp only [Function.comp, Entry.classify_mapNumbers, hsame]

/-- **A written catalog reads back** with every number as its text reads. -/
theorem parse_render (h : catalog.Canonical fun n => n.Rereads (f n)) :
    parse catalog.render = .ok (catalog.mapNumbers f) := by
  have hfits : (Json.object catalog.toFields).Fits Scan.depthLimit := by
    refine ⟨by decide, ?_, fitFields_iff.2 fun field hf => ?_⟩
    · rw [toFields, Fields.names, List.map_map]
      exact catalog.distinct
    · obtain ⟨entry, hentry, rfl⟩ := List.mem_map.1 hf
      exact (h entry hentry).fits
  have hnumbers : ∀ n ∈ (Json.object catalog.toFields).numbers, n.Rereads (f n) := by
    intro n hn
    obtain ⟨field, hf, hmem⟩ := mem_numbers.1 hn
    exact (h field hf).numbers n hmem
  have hnewline : ∀ c ∈ "\n".toList, Scan.isBlank c = true := by
    intro c hc
    rw [List.mem_singleton.1 hc]
    rfl
  rw [parse, render, parse_pretty hfits hnumbers hnewline]
  exact congrArg _ (ofFields_mapFields h)

theorem mapNumbers_id (catalog : Catalog) : catalog.mapNumbers id = catalog := by
  have hsame : catalog.entries.map (fun field => (field.1, field.2.mapNumbers id))
      = catalog.entries.map fun field => field :=
    List.map_congr_left fun field _ => by rw [Entry.mapNumbers_id]
  exact ext_entries (hsame.trans (List.map_id' _))

/-- **A written catalog reads back as itself**, if its doubles do. -/
theorem parse_render_of_doubles (h : catalog.Canonical Number.InRange)
    (hn : ∀ d, Number.double d ∈ catalog.numbers →
      Json.parse (Number.double d).text = .ok (.number (.double d))) :
    parse catalog.render = .ok catalog := by
  have hsame : catalog.Canonical fun n => n.Rereads (id n) := by
    refine h.imp fun n hmem hn' => ?_
    cases n with
    | whole value => exact rereads_whole hn'
    | double d => exact rereads_of_parse (hn d hmem)
  rw [parse_render hsame, mapNumbers_id]

/-- A double that is no whole number and whose text reads back. -/
theorem parse_text_half : Json.parse (Number.double 2.5).text = .ok (.number (.double 2.5)) := by
  have hback : (Json.parse (Number.double 2.5).text).toOption = some (.number (.double 2.5)) := by
    decide +kernel
  cases hparse : Json.parse (Number.double 2.5).text with
  | error fault =>
    rw [hparse, Except.toOption] at hback
    cases hback
  | ok v =>
    rw [hparse, Except.toOption, Option.some.injEq] at hback
    rw [hback]

end Phrasebook.Catalog
