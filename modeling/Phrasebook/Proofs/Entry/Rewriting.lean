import Phrasebook.Proofs.Entry
import Mathlib.Data.List.Nodup

/-!
# Proofs/Entry/Rewriting — what a value becomes when its entry is written

    "note", "many", "zero": null, "one"   ──classify──▸ ──toJson──▸   "one", "many", "note"

An object is a rule set if every known field that it has is `null` or of its type
(`isSome_ofFields?_iff`).  Such an object is rewritten: the known fields come first and in one
order, and those that are `null` are left out (`toFields_eq_rewritten`).  Any other value stays as
it is, so **no field but a `null` one is lost** (`toJson_classify`).
-/

namespace Phrasebook

namespace PluralRules

variable {fields : List (String × Json)} {rules : PluralRules} {name : String}

/-! ## Which objects are rule sets -/

/-- Whether a known field can hold this value. -/
def Suits (name : String) : Json → Prop
  | .null => True
  | .string _ => name ≠ "manyLimit"
  | .number _ => name = "manyLimit"
  | _ => False

/-- Whether the known fields that are there are `null` or of their types. -/
def AllSuit (fields : List (String × Json)) : Prop :=
  ∀ name ∈ knownFields, ∀ value, Fields.get? name fields = some value → Suits name value

theorem isSome_textField?_iff (hname : name ≠ "manyLimit") :
    (textField? name fields).isSome = true
      ↔ ∀ value, Fields.get? name fields = some value → Suits name value := by
  rw [textField?]
  cases Fields.get? name fields with
  | none => simp
  | some value => cases value <;> simp [Suits, hname]

theorem isSome_numberField?_iff :
    (numberField? "manyLimit" fields).isSome = true
      ↔ ∀ value, Fields.get? "manyLimit" fields = some value → Suits "manyLimit" value := by
  rw [numberField?]
  cases Fields.get? "manyLimit" fields with
  | none => simp
  | some value => cases value <;> simp [Suits]

/-- **An object denotes a rule set if its known fields suit.** -/
theorem isSome_ofFields?_iff : (ofFields? fields).isSome = true ↔ AllSuit fields := by
  have hall : (ofFields? fields).isSome = true ↔
      (textField? "zero" fields).isSome = true ∧ (textField? "one" fields).isSome = true ∧
        (textField? "+2" fields).isSome = true ∧ (textField? "many" fields).isSome = true ∧
        (numberField? "manyLimit" fields).isSome = true := by
    rw [ofFields?]
    cases textField? "zero" fields <;> cases textField? "one" fields <;>
      cases textField? "+2" fields <;> cases textField? "many" fields <;>
      cases numberField? "manyLimit" fields <;> simp
  rw [hall, isSome_textField?_iff (by decide), isSome_textField?_iff (by decide),
    isSome_textField?_iff (by decide), isSome_textField?_iff (by decide), isSome_numberField?_iff]
  simp [AllSuit, knownFields]

/-! ## How a rule set is written -/

/-- A known field as it is written: not at all if it is absent or `null`. -/
def writtenField (fields : List (String × Json)) (name : String) : List (String × Json) :=
  match Fields.get? name fields with
  | none => []
  | some .null => []
  | some value => [(name, value)]

/-- The fields of an object as its rule set is written: the known ones that are not `null`, in
their own order, and behind them the others, in the order in which they stand. -/
def rewritten (fields : List (String × Json)) : List (String × Json) :=
  knownFields.flatMap (writtenField fields) ++ fields.filter (·.1 ∉ knownFields)

theorem textFields_eq_writtenField {text : Option String} (h : textField? name fields = some text) :
    textFields name text = writtenField fields name := by
  rw [textField?] at h
  rw [writtenField]
  cases hget : Fields.get? name fields with
  | none =>
    rw [hget] at h
    cases h
    rfl
  | some value =>
    rw [hget] at h
    cases value <;> cases h <;> rfl

theorem limitFields_eq_writtenField {limit : Option Json.Number}
    (h : numberField? name fields = some limit) :
    (limit.map fun n => (name, Json.number n)).toList = writtenField fields name := by
  rw [numberField?] at h
  rw [writtenField]
  cases hget : Fields.get? name fields with
  | none =>
    rw [hget] at h
    cases h
    rfl
  | some value =>
    rw [hget] at h
    cases value <;> cases h <;> rfl

/-- **A rule set is written as the object that it was read from**, rearranged and without `null`. -/
theorem toFields_eq_rewritten (h : ofFields? fields = some rules) :
    rules.toFields = rewritten fields := by
  simp only [ofFields?, Option.bind_eq_bind, Option.bind_eq_some_iff] at h
  obtain ⟨zero, hzero, one, hone, other, hother, many, hmany, limit, hlimit, h⟩ := h
  cases h
  rw [toFields]
  simp only [textFields_eq_writtenField hzero, textFields_eq_writtenField hone,
    textFields_eq_writtenField hother, textFields_eq_writtenField hmany,
    limitFields_eq_writtenField hlimit]
  simp [rewritten, knownFields]

theorem mem_writtenField {field : String × Json} :
    field ∈ writtenField fields name
      ↔ field.1 = name ∧ Fields.get? name fields = some field.2 ∧ field.2 ≠ .null := by
  rw [writtenField]
  cases Fields.get? name fields with
  | none => simp
  | some value =>
    obtain ⟨x, other⟩ := field
    cases value <;> grind

/-- A field is written unless it is a known one that is `null`. -/
theorem mem_rewritten (hd : (Fields.names fields).Nodup) {field : String × Json} :
    field ∈ rewritten fields ↔ field ∈ fields ∧ ¬ (field.1 ∈ knownFields ∧ field.2 = .null) := by
  have hknown : field ∈ knownFields.flatMap (writtenField fields)
      ↔ field.1 ∈ knownFields ∧ field ∈ fields ∧ field.2 ≠ .null := by
    simp only [List.mem_flatMap, mem_writtenField]
    rw [← Fields.get?_eq_some_iff hd]
    constructor
    · rintro ⟨name, hname, rfl, hget, hnull⟩
      exact ⟨hname, hget, hnull⟩
    · rintro ⟨hname, hget, hnull⟩
      exact ⟨field.1, hname, rfl, hget, hnull⟩
  rw [rewritten, List.mem_append, hknown, List.mem_filter, decide_eq_true_iff]
  by_cases hname : field.1 ∈ knownFields <;> simp [hname]

/-- **Only known fields that are `null` are lost.** -/
theorem rewritten_perm (hd : (Fields.names fields).Nodup) (h : ofFields? fields = some rules) :
    (rewritten fields).Perm
      (fields.filter fun field => ¬ (field.1 ∈ knownFields ∧ field.2 = .null)) := by
  have hnodup : (rewritten fields).Nodup := by
    refine List.Nodup.of_map Prod.fst ?_
    rw [← toFields_eq_rewritten h]
    refine nodup_names_toFields (separate_of_ofFields? h) ?_
    rw [(ofFields?_eq_some h).1]
    exact hd.sublist (List.filter_sublist.map Prod.fst)
  refine (List.perm_ext_iff_of_nodup hnodup ((List.Nodup.of_map Prod.fst hd).filter _)).2 ?_
  intro field
  rw [mem_rewritten hd, List.mem_filter, decide_eq_true_iff]

end PluralRules

namespace Entry

open PluralRules

/-- Whether a value is an object whose known fields are `null` or of their types. -/
def HasRules : Json → Prop
  | .object fields => AllSuit fields
  | _ => False

/-- **Rewriting an entry loses nothing.**  The value that is written is the one that was classified,
unless that is a rule set; a rule set is rearranged and, as no object has two fields of one name,
loses the known fields that are `null` and no other field; and what is written is classified the
same again. -/
theorem toJson_classify (v : Json) :
    (¬ HasRules v → (classify v).toJson = v)
      ∧ (HasRules v → ∃ fields, v = .object fields
        ∧ (classify v).toJson = .object (rewritten fields)
        ∧ ((Fields.names fields).Nodup → (rewritten fields).Perm
          (fields.filter fun field => ¬ (field.1 ∈ knownFields ∧ field.2 = .null))))
      ∧ classify (classify v).toJson = classify v := by
  cases v with
  | object fields =>
    rw [classify, HasRules, ← isSome_ofFields?_iff]
    cases h : ofFields? fields with
    | none =>
      refine ⟨fun _ => rfl, fun hrules => absurd hrules Bool.false_ne_true, ?_⟩
      rw [toJson, classify, h]
    | some rules =>
      have hwritten : (Entry.plural rules).toJson = .object (rewritten fields) := by
        rw [toJson, toFields_eq_rewritten h]
      refine ⟨fun hnot => absurd rfl hnot, fun _ => ?_, ?_⟩
      · exact ⟨fields, rfl, hwritten, fun hd => rewritten_perm hd h⟩
      · rw [toJson, classify, ofFields?_toFields (separate_of_ofFields? h)]
  | _ => exact ⟨fun _ => rfl, False.elim, rfl⟩

/-- An object in another order than the one that is written, with a field that is `null`, a limit
that is not whole and fields that no rule is about. -/
def shuffled : List (String × Json) :=
  [("note", .array [.null]), ("many", .string "M"), ("manyLimit", .number (.double 2.5)),
    ("zero", .null), ("x", .null), ("one", .string "")]

theorem toJson_classify_shuffled :
    HasRules (.object shuffled)
      ∧ (classify (.object shuffled)).toJson = .object
        [("one", .string ""), ("many", .string "M"), ("manyLimit", .number (.double 2.5)),
          ("note", .array [.null]), ("x", .null)]
      ∧ (Fields.names shuffled).Nodup
      ∧ (rewritten shuffled).Perm
        (shuffled.filter fun field => ¬ (field.1 ∈ knownFields ∧ field.2 = .null))
      ∧ classify (classify (.object shuffled)).toJson = classify (.object shuffled) := by
  have hrules : HasRules (.object shuffled) := isSome_ofFields?_iff.1 rfl
  have hd : (Fields.names shuffled).Nodup := by decide
  obtain ⟨-, hrewritten, hagain⟩ := toJson_classify (.object shuffled)
  obtain ⟨fields, hfields, hwritten, hperm⟩ := hrewritten hrules
  cases hfields
  exact ⟨hrules, hwritten.trans rfl, hd, hperm hd, hagain⟩

end Entry

end Phrasebook
