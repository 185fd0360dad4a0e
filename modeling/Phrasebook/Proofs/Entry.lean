import Phrasebook.Entry
import Phrasebook.Json.Reader
import Phrasebook.Proofs.Json.Values

/-!
# Proofs/Entry — an entry is written so that it is classified the same again

A rule set writes its known fields first and the others behind them, and neither hides the other.
`Entry.Canonical` collects what a catalog needs of its entries to be read back; every entry that was
classified from a value has it, and so has every placeholder.  Other numbers in a value make other
numbers in its entry, and nothing else.
-/

namespace Phrasebook

open Json

namespace PluralRules

variable {rules : PluralRules} {fields : List (String × Json)} {x name : String}
  {text : Option String} {f : Number → Number}

/-- No field that rules are about is among the others. -/
def Separate (rules : PluralRules) : Prop := ∀ field ∈ rules.extra, field.1 ∉ knownFields

/-! ## The fields that are written -/

theorem get?_textFields :
    Fields.get? x (textFields name text) = if name = x then text.map Json.string else none := by
  cases text <;> simp [textFields]

theorem get?_limitFields {limit : Option Number} :
    Fields.get? x (limit.map fun n => ("manyLimit", Json.number n)).toList
      = if "manyLimit" = x then limit.map Json.number else none := by
  cases limit <;> simp

theorem get?_extra (h : rules.Separate) (hx : x ∈ knownFields) :
    Fields.get? x rules.extra = none := by
  refine Fields.get?_eq_none_iff.2 fun hmem => ?_
  obtain ⟨v, hv⟩ := Fields.mem_names.1 hmem
  exact h _ hv hx

/-- What a known field reads behind the others. -/
theorem get?_toFields (h : rules.Separate) (hx : x ∈ knownFields) :
    Fields.get? x rules.toFields
      = if "zero" = x then rules.zero.map Json.string
        else if "one" = x then rules.one.map Json.string
        else if "+2" = x then rules.other.map Json.string
        else if "many" = x then rules.many.map Json.string
        else rules.manyLimit.map Json.number := by
  rw [toFields]
  simp only [Fields.get?_append, get?_textFields, get?_limitFields, get?_extra h hx]
  simp only [knownFields, List.mem_cons, List.not_mem_nil, or_false] at hx
  rcases hx with rfl | rfl | rfl | rfl | rfl <;> simp

theorem textField?_of_get? (h : Fields.get? name fields = text.map Json.string) :
    textField? name fields = some text := by
  rw [textField?, h]
  cases text <;> rfl

theorem numberField?_of_get? {limit : Option Number}
    (h : Fields.get? name fields = limit.map Json.number) :
    numberField? name fields = some limit := by
  rw [numberField?, h]
  cases limit <;> rfl

/-- The fields that no rule is about are those that follow the known ones. -/
theorem filter_toFields (h : rules.Separate) :
    rules.toFields.filter (fun field => !knownFields.contains field.1) = rules.extra := by
  have htext : ∀ name ∈ knownFields, ∀ text,
      (textFields name text).filter (fun field => !knownFields.contains field.1) = [] := by
    intro name hname text
    cases text <;> simp [textFields, hname]
  have hlimit : (rules.manyLimit.map fun n => ("manyLimit", Json.number n)).toList.filter
      (fun field => !knownFields.contains field.1) = [] := by
    cases rules.manyLimit <;> simp [knownFields]
  have hextra : rules.extra.filter (fun field => !knownFields.contains field.1) = rules.extra :=
    List.filter_eq_self.2 fun field hf => by simpa using h field hf
  simp only [toFields, List.filter_append, hlimit, hextra]
  rw [htext "zero" (by decide), htext "one" (by decide), htext "+2" (by decide),
    htext "many" (by decide)]
  rfl

/-- **A rule set reads back from its fields.** -/
theorem ofFields?_toFields (h : rules.Separate) : ofFields? rules.toFields = some rules := by
  rw [ofFields?, textField?_of_get? ((get?_toFields h (by decide)).trans (if_pos rfl)),
    textField?_of_get? ((get?_toFields h (by decide)).trans (by rfl)),
    textField?_of_get? ((get?_toFields h (by decide)).trans (by rfl)),
    textField?_of_get? ((get?_toFields h (by decide)).trans (by rfl)),
    numberField?_of_get? ((get?_toFields h (by decide)).trans (by rfl)), filter_toFields h]
  rfl

/-- The names of a written rule set are some of the known ones and those of the others. -/
theorem names_toFields_sublist :
    (Fields.names rules.toFields).Sublist (knownFields ++ Fields.names rules.extra) := by
  have htext : ∀ name text, (Fields.names (textFields name text)).Sublist [name] := by
    intro name text
    cases text with
    | none => exact List.nil_sublist _
    | some text => exact List.Sublist.refl _
  have hlimit : (Fields.names
      (rules.manyLimit.map fun n => ("manyLimit", Json.number n)).toList).Sublist
      ["manyLimit"] := by
    cases rules.manyLimit with
    | none => exact List.nil_sublist _
    | some n => exact List.Sublist.refl _
  simp only [toFields, Fields.names_append]
  exact ((((htext "zero" _).append (htext "one" _)).append (htext "+2" _)).append
    (htext "many" _)).append hlimit |>.append (List.Sublist.refl _)

theorem nodup_names_toFields (h : rules.Separate) (hd : (Fields.names rules.extra).Nodup) :
    (Fields.names rules.toFields).Nodup := by
  refine List.Nodup.sublist names_toFields_sublist (List.nodup_append.2 ⟨by decide, hd, ?_⟩)
  rintro name hname other hother rfl
  obtain ⟨v, hv⟩ := Fields.mem_names.1 hother
  exact h _ hv hname

/-- A field of a written rule set is a text, the limit or one of the others. -/
theorem mem_toFields {field : String × Json} (h : field ∈ rules.toFields) :
    (∃ text, field.2 = .string text) ∨ (∃ n, rules.manyLimit = some n ∧ field.2 = .number n)
      ∨ field ∈ rules.extra := by
  have htext : ∀ name text, field ∈ textFields name text → ∃ text, field.2 = .string text := by
    intro name text hmem
    cases text with
    | none => cases hmem
    | some text =>
      obtain rfl := List.mem_singleton.1 hmem
      exact ⟨text, rfl⟩
  simp only [toFields, List.mem_append] at h
  rcases h with ((((h | h) | h) | h) | h) | h
  · exact .inl (htext _ _ h)
  · exact .inl (htext _ _ h)
  · exact .inl (htext _ _ h)
  · exact .inl (htext _ _ h)
  · obtain ⟨n, hn, rfl⟩ := Option.map_eq_some_iff.1 (Option.mem_toList.1 h)
    exact .inr (.inl ⟨n, hn, rfl⟩)
  · exact .inr (.inr h)

/-! ## The fields that are read -/

theorem ofFields?_eq_some (h : ofFields? fields = some rules) :
    rules.extra = fields.filter (fun field => !knownFields.contains field.1)
      ∧ numberField? "manyLimit" fields = some rules.manyLimit := by
  simp only [ofFields?, Option.bind_eq_bind, Option.bind_eq_some_iff] at h
  obtain ⟨zero, -, one, -, other, -, many, -, limit, hlimit, h⟩ := h
  cases h
  exact ⟨rfl, hlimit⟩

theorem separate_of_ofFields? (h : ofFields? fields = some rules) : rules.Separate := by
  intro field hf
  rw [(ofFields?_eq_some h).1, List.mem_filter] at hf
  simpa using hf.2

theorem mem_fields_of_mem_extra (h : ofFields? fields = some rules) {field : String × Json}
    (hf : field ∈ rules.extra) : field ∈ fields := by
  rw [(ofFields?_eq_some h).1] at hf
  exact (List.mem_filter.1 hf).1

theorem mem_fields_of_manyLimit (h : ofFields? fields = some rules) {n : Number}
    (hn : rules.manyLimit = some n) : ("manyLimit", .number n) ∈ fields := by
  have hlimit := (ofFields?_eq_some h).2
  rw [hn, numberField?] at hlimit
  split at hlimit
  · cases hlimit
  · cases hlimit
  · rename_i n hget
    cases hlimit
    exact Fields.mem_of_get? hget
  · cases hlimit

/-! ## Other numbers -/

/-- The rule set with other numbers. -/
def mapNumbers (f : Number → Number) (rules : PluralRules) : PluralRules :=
  { rules with manyLimit := rules.manyLimit.map f, extra := mapFields f rules.extra }

theorem get?_mapFields :
    Fields.get? x (mapFields f fields) = (Fields.get? x fields).map (Json.mapNumbers f) := by
  rw [mapFields_eq_map]
  exact Fields.get?_map fun _ v => Json.mapNumbers f v

theorem textField?_mapFields : textField? name (mapFields f fields) = textField? name fields := by
  rw [textField?, textField?, get?_mapFields]
  cases Fields.get? name fields with
  | none => rfl
  | some v => cases v <;> rfl

theorem numberField?_mapFields :
    numberField? name (mapFields f fields) = (numberField? name fields).map (Option.map f) := by
  rw [numberField?, numberField?, get?_mapFields]
  cases Fields.get? name fields with
  | none => rfl
  | some v => cases v <;> rfl

theorem filter_mapFields (q : String → Bool) :
    (mapFields f fields).filter (fun field => q field.1)
      = mapFields f (fields.filter fun field => q field.1) := by
  rw [mapFields_eq_map, mapFields_eq_map, List.filter_map]
  rfl

theorem ofFields?_mapFields :
    ofFields? (mapFields f fields) = (ofFields? fields).map (mapNumbers f) := by
  simp only [ofFields?, textField?_mapFields, numberField?_mapFields,
    filter_mapFields fun name => !knownFields.contains name]
  cases textField? "zero" fields <;> cases textField? "one" fields <;>
    cases textField? "+2" fields <;> cases textField? "many" fields <;>
    cases numberField? "manyLimit" fields <;> rfl

end PluralRules

namespace Entry

variable {p : Number → Prop} {f : Number → Number} {v : Json} {entry : Entry}

/-- An entry that is classified the same again when it is written, whose fields fit the reader one
level below a catalog and whose numbers are of one kind. -/
structure Canonical (p : Number → Prop) (entry : Entry) : Prop where
  fits : entry.toJson.Fits (Scan.depthLimit - 1)
  numbers : ∀ n ∈ entry.toJson.numbers, p n
  classify_toJson : classify entry.toJson = entry

/-- **An entry that was classified is canonical.** -/
theorem canonical_classify (hfits : v.Fits (Scan.depthLimit - 1)) (hn : ∀ n ∈ v.numbers, p n) :
    (classify v).Canonical p := by
  cases v with
  | object fields =>
    rw [classify]
    cases h : PluralRules.ofFields? fields with
    | none => exact ⟨hfits, hn, by rw [toJson, classify, h]⟩
    | some rules =>
      obtain ⟨hdepth, hd, hfields⟩ := hfits
      have hseparate := PluralRules.separate_of_ofFields? h
      have hextra := (PluralRules.ofFields?_eq_some h).1
      refine ⟨⟨hdepth, ?_, fitFields_iff.2 fun field hf => ?_⟩, fun n hmem => ?_, ?_⟩
      · refine PluralRules.nodup_names_toFields hseparate ?_
        rw [hextra]
        exact hd.sublist (List.filter_sublist.map Prod.fst)
      · rcases PluralRules.mem_toFields hf with ⟨text, ht⟩ | ⟨n, -, hn⟩ | hf
        · rw [ht]
          trivial
        · rw [hn]
          trivial
        · exact fitFields_iff.1 hfields field (PluralRules.mem_fields_of_mem_extra h hf)
      · obtain ⟨field, hf, hmem⟩ := mem_numbersOfFields.1 hmem
        refine hn n (mem_numbersOfFields.2 ?_)
        rcases PluralRules.mem_toFields hf with ⟨text, ht⟩ | ⟨m, hm, hfield⟩ | hf
        · rw [ht] at hmem
          cases hmem
        · exact ⟨_, PluralRules.mem_fields_of_manyLimit h hm, hfield ▸ hmem⟩
        · exact ⟨field, PluralRules.mem_fields_of_mem_extra h hf, hmem⟩
      · rw [toJson, classify, PluralRules.ofFields?_toFields hseparate]
  | _ => exact ⟨hfits, hn, rfl⟩

theorem canonical_scalar (text : String) : (Entry.scalar text).Canonical p :=
  ⟨trivial, fun _ h => absurd h List.not_mem_nil, rfl⟩

theorem canonical_null : Entry.null.Canonical p :=
  ⟨trivial, fun _ h => absurd h List.not_mem_nil, rfl⟩

/-- The rule set that stands for a missing translation is canonical, if its limit is right. -/
theorem canonical_skeleton (h : p (.whole 50)) :
    (Entry.plural PluralRules.skeleton).Canonical p := by
  refine ⟨⟨by decide, by decide, trivial, trivial, trivial, trivial, trivial, trivial⟩,
    fun n hn => ?_, rfl⟩
  obtain rfl : n = .whole 50 := List.mem_singleton.1 hn
  exact h

/-- The entry with other numbers. -/
def mapNumbers (f : Number → Number) : Entry → Entry
  | scalar text => .scalar text
  | plural rules => .plural (rules.mapNumbers f)
  | null => .null
  | invalid value => .invalid (value.mapNumbers f)

theorem mapNumbers_id (entry : Entry) : entry.mapNumbers id = entry := by
  cases entry with
  | plural rules => simp [mapNumbers, PluralRules.mapNumbers, mapFields_id]
  | invalid value => rw [mapNumbers, Json.mapNumbers_id]
  | _ => rfl

/-- **Other numbers in a value make other numbers in its entry.** -/
theorem classify_mapNumbers : classify (v.mapNumbers f) = (classify v).mapNumbers f := by
  cases v with
  | object fields =>
    rw [Json.mapNumbers, classify, classify, PluralRules.ofFields?_mapFields]
    cases PluralRules.ofFields? fields <;> rfl
  | _ => rfl

end Entry

end Phrasebook
