import Phrasebook.Drift
import Phrasebook.Proofs.Catalog
import Phrasebook.Proofs.KeySet

/-!
# Proofs/Drift/Diff — what the four lists of a diff hold

Each list of `Catalog.diff` is described by what its keys read in the catalog, and the catalog that
the diff leaves by what it reads.  `CatalogDiff.Fits` collects what a fix relies on: missing keys
are new and listed once, extra keys are there.
-/

namespace Phrasebook

/-- A diff that a fix can apply to a catalog: what is missing is not there, what is extra is. -/
structure CatalogDiff.Fits (diff : CatalogDiff) (catalog : Catalog) : Prop where
  nodup_missing : diff.missing.Nodup
  not_mem_of_missing : ∀ key ∈ diff.missing, key ∉ catalog.keys
  mem_of_extra : ∀ key ∈ diff.extra, key ∈ catalog.keys

namespace Catalog

variable {catalog : Catalog} {usages : KeyUsages} {isDefault : Bool} {key : String} {entry : Entry}

/-- The keys of the entries that pass a test. -/
theorem mem_map_fst_filter (p : String → Entry → Bool) :
    key ∈ (catalog.entries.filter fun field => p field.1 field.2).map Prod.fst
      ↔ ∃ entry, catalog.get? key = some entry ∧ p key entry = true := by
  simp [get?_eq_some_iff]

/-! ## The plural keys without a rule set -/

theorem mem_invalidPlurals :
    key ∈ catalog.invalidPlurals usages
      ↔ usages.isPlural key ∧ ∃ entry, catalog.get? key = some entry ∧ entry.isPlural = false := by
  rw [invalidPlurals,
    mem_map_fst_filter fun key entry => usages.isPlural key && !entry.isPlural]
  grind

/-- The catalog without the plural keys that have no rule set, which is what a diff leaves. -/
def kept (catalog : Catalog) (usages : KeyUsages) : Catalog :=
  catalog.eraseAll (catalog.invalidPlurals usages)

/-- Whether an entry stays when the plural keys without a rule set go. -/
def stays (usages : KeyUsages) (key : String) (entry : Entry) : Bool :=
  !usages.isPlural key || entry.isPlural

theorem get?_kept_eq_some_iff :
    (catalog.kept usages).get? key = some entry
      ↔ catalog.get? key = some entry ∧ stays usages key entry = true := by
  rw [kept, get?_eraseAll]
  by_cases h : key ∈ catalog.invalidPlurals usages
  · obtain ⟨hp, old, hold, hnot⟩ := mem_invalidPlurals.1 h
    rw [if_pos h]
    refine ⟨fun h => by simp at h, fun ⟨hget, hstays⟩ => ?_⟩
    obtain rfl : old = entry := Option.some.inj (hold.symm.trans hget)
    simp [stays, hp, hnot] at hstays
  · rw [if_neg h]
    refine ⟨fun hget => ⟨hget, ?_⟩, fun hget => hget.1⟩
    rw [mem_invalidPlurals] at h
    rw [stays, Bool.or_eq_true, Bool.not_eq_true']
    grind

/-- **The catalog that a diff leaves keeps the order of the entries that stay.** -/
theorem entries_kept :
    (catalog.kept usages).entries
      = catalog.entries.filter fun field => stays usages field.1 field.2 := by
  rw [kept, entries_eraseAll]
  refine List.filter_congr fun field hf => ?_
  have hget : catalog.get? field.1 = some field.2 := get?_eq_some_iff.2 hf
  by_cases h : field.1 ∈ catalog.invalidPlurals usages
  · obtain ⟨hp, old, hold, hnot⟩ := mem_invalidPlurals.1 h
    obtain rfl : old = field.2 := Option.some.inj (hold.symm.trans hget)
    simp [h, stays, hp, hnot]
  · have hkept : (catalog.kept usages).get? field.1 = some field.2 := by
      rw [kept, get?_eraseAll, if_neg h, hget]
    simp [h, (get?_kept_eq_some_iff.1 hkept).2]

/-! ## The other lists -/

theorem mem_requiredKeys :
    key ∈ (requiredKeys usages isDefault).toList
      ↔ usages.isPlural key ∨ (isDefault = false ∧ usages.isScalar key) := by
  cases isDefault
  · simp [requiredKeys, KeyUsages.mem_allKeys, or_comm]
  · simp [requiredKeys, KeyUsages.isPlural, KeySet.contains_iff]

theorem missing_diff :
    (catalog.diff usages isDefault).1.missing
      = (requiredKeys usages isDefault).toList.filter fun key =>
          !(catalog.kept usages).contains key := rfl

theorem mem_missing :
    key ∈ (catalog.diff usages isDefault).1.missing
      ↔ (usages.isPlural key ∨ (isDefault = false ∧ usages.isScalar key))
        ∧ key ∉ (catalog.kept usages).keys := by
  rw [missing_diff, List.mem_filter, mem_requiredKeys, Bool.not_eq_true', contains_eq_false_iff]

theorem mem_extraKeys :
    key ∈ catalog.extraKeys usages isDefault
      ↔ key ≠ sentinelKey ∧ ∃ entry, catalog.get? key = some entry
        ∧ serves usages isDefault key entry = false := by
  rw [extraKeys, mem_map_fst_filter fun key entry =>
    key != sentinelKey && !serves usages isDefault key entry]
  grind

theorem mem_mismatchedKeys :
    key ∈ catalog.mismatchedKeys usages
      ↔ key ≠ sentinelKey ∧ usages.isScalar key ∧ usages.isPlural key = false
        ∧ ∃ entry, catalog.get? key = some entry ∧ refusesScalar entry = true := by
  rw [mismatchedKeys, mem_map_fst_filter fun key entry =>
    key != sentinelKey && usages.isScalar key && !usages.isPlural key && refusesScalar entry]
  grind

theorem pairwise_missing :
    (catalog.diff usages isDefault).1.missing.Pairwise (· < ·) :=
  (requiredKeys usages isDefault).sorted.sublist List.filter_sublist

theorem mem_missing_of_mem_invalidPlurals (h : key ∈ catalog.invalidPlurals usages) :
    key ∈ (catalog.diff usages isDefault).1.missing := by
  refine mem_missing.2 ⟨.inl (mem_invalidPlurals.1 h).1, fun hmem => ?_⟩
  exact (mem_keys_eraseAll.1 hmem).1 h

/-- **A diff fits the catalog that it leaves.** -/
theorem fits_diff : (catalog.diff usages isDefault).1.Fits (catalog.kept usages) where
  nodup_missing := (requiredKeys usages isDefault).nodup_toList.sublist List.filter_sublist
  not_mem_of_missing _ h := (mem_missing.1 h).2
  mem_of_extra _ h := by
    obtain ⟨-, entry, hget, -⟩ := mem_extraKeys.1 h
    exact mem_keys_of_get? hget

end Catalog

end Phrasebook
