import Phrasebook.Catalog.Basic
import Phrasebook.Proofs.Fields

/-!
# Proofs/Catalog — a catalog behind its changes

What a catalog holds, and in which order, after keys were inserted and erased.  Two catalogs with
the same entries in the same order are the same catalog.
-/

namespace Phrasebook.Catalog

variable {catalog : Catalog} {key x : String} {entry : Entry} {keys : List String}

theorem ext_entries : ∀ {a b : Catalog}, a.entries = b.entries → a = b
  | ⟨_, _⟩, ⟨_, _⟩, rfl => rfl

theorem get?_eq_some_iff : catalog.get? key = some entry ↔ (key, entry) ∈ catalog.entries :=
  Fields.get?_eq_some_iff catalog.distinct

theorem get?_eq_none_iff : catalog.get? key = none ↔ key ∉ catalog.keys := Fields.get?_eq_none_iff

theorem contains_iff : catalog.contains key = true ↔ key ∈ catalog.keys := Fields.isSome_get?_iff

theorem contains_eq_false_iff : catalog.contains key = false ↔ key ∉ catalog.keys := by
  rw [← contains_iff, Bool.not_eq_true]

theorem mem_keys : key ∈ catalog.keys ↔ ∃ entry, (key, entry) ∈ catalog.entries := Fields.mem_names

theorem mem_keys_of_get? (h : catalog.get? key = some entry) : key ∈ catalog.keys :=
  mem_keys.2 ⟨entry, get?_eq_some_iff.1 h⟩

/-! ## One key -/

theorem get?_insert :
    (catalog.insert key entry).get? x = if key = x then some entry else catalog.get? x :=
  Fields.get?_put

theorem mem_keys_insert : x ∈ (catalog.insert key entry).keys ↔ x = key ∨ x ∈ catalog.keys :=
  Fields.mem_names_put

theorem entries_insert_of_not_mem (h : key ∉ catalog.keys) :
    (catalog.insert key entry).entries = catalog.entries ++ [(key, entry)] :=
  Fields.put_of_not_mem h

theorem entries_insert_of_mem (h : key ∈ catalog.keys) :
    (catalog.insert key entry).entries
      = catalog.entries.map fun field => (field.1, if field.1 = key then entry else field.2) :=
  Fields.put_of_mem catalog.distinct h

theorem keys_insert_of_mem (h : key ∈ catalog.keys) :
    (catalog.insert key entry).keys = catalog.keys :=
  Fields.names_put_of_mem catalog.distinct h

theorem keys_insert_of_not_mem (h : key ∉ catalog.keys) :
    (catalog.insert key entry).keys = catalog.keys ++ [key] := by
  rw [keys, keys, entries_insert_of_not_mem h, Fields.names_append]
  rfl

theorem entries_erase : (catalog.erase key).entries = catalog.entries.filter (·.1 ≠ key) := rfl

theorem keys_erase : (catalog.erase key).keys = catalog.keys.filter (· ≠ key) := by
  rw [keys, keys, entries_erase, Fields.names, Fields.names, List.filter_map]
  rfl

theorem get?_erase : (catalog.erase key).get? x = if x = key then none else catalog.get? x :=
  Fields.get?_without

theorem mem_keys_erase : x ∈ (catalog.erase key).keys ↔ x ≠ key ∧ x ∈ catalog.keys := by
  rw [← contains_iff, ← contains_iff, contains, contains, get?_erase]
  by_cases h : x = key <;> simp [h]

theorem erase_insert : (catalog.insert key entry).erase key = catalog.erase key :=
  ext_entries Fields.without_put

theorem erase_erase : (catalog.erase key).erase key = catalog.erase key :=
  ext_entries (List.filter_eq_self.2 fun _ hf => (List.mem_filter.1 hf).2)

/-! ## Several keys -/

/-- **Erasing keys is filtering them out.** -/
theorem entries_eraseAll :
    (catalog.eraseAll keys).entries = catalog.entries.filter (·.1 ∉ keys) := by
  induction keys generalizing catalog with
  | nil => exact (List.filter_eq_self.2 fun _ _ => by simp).symm
  | cons key keys ih =>
    change ((catalog.erase key).eraseAll keys).entries = _
    rw [ih, entries_erase, List.filter_filter]
    refine List.filter_congr fun field _ => ?_
    simp [Bool.and_comm]

theorem get?_eraseAll :
    (catalog.eraseAll keys).get? x = if x ∈ keys then none else catalog.get? x := by
  rw [get?, entries_eraseAll, Fields.get?_filter (fun n => decide (n ∉ keys)), get?]
  by_cases h : x ∈ keys <;> simp [h]

theorem mem_keys_eraseAll : x ∈ (catalog.eraseAll keys).keys ↔ x ∉ keys ∧ x ∈ catalog.keys := by
  rw [← contains_iff, ← contains_iff, contains, contains, get?_eraseAll]
  by_cases h : x ∈ keys <;> simp [h]

theorem eraseAll_nil : catalog.eraseAll [] = catalog := rfl

end Phrasebook.Catalog
