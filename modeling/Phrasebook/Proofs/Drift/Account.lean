import Phrasebook.Proofs.Drift.Diff

/-!
# Proofs/Drift/Account — a diff accounts for every key

    loaded keys ─┬─ plural without a rule set ──▸ missing ◂── required, not in the catalog
                 ├─ extra
                 └─ in use ──(refused as scalar)──▸ mismatched

Every key of a loaded catalog but `""` is taken for one thing: a plural key without a rule set, an
extra key, or a key in use.  **No key is reported as two of them, and none is forgotten**
(`accountsFor_diff`).
-/

namespace Phrasebook

/-- Whether an entry confirms that its key is in use: as scalar, unless it is a `null` of the
default locale, or as plural with a rule set. -/
def KeyUsages.Confirm (usages : KeyUsages) (isDefault : Bool) (key : String) (entry : Entry) :
    Prop :=
  (usages.isScalar key ∧ ¬(isDefault = true ∧ entry = .null))
    ∨ (usages.isPlural key ∧ ∃ rules, entry = .plural rules)

/-- A diff that accounts for every key of a loaded catalog, and the catalog that it leaves. -/
structure CatalogDiff.AccountsFor (diff : CatalogDiff) (usages : KeyUsages) (isDefault : Bool)
    (loaded kept : Catalog) : Prop where
  /-- The invalid plural keys are used as plural and have an entry that is no rule set. -/
  mem_invalidPlural_iff : ∀ key, key ∈ diff.invalidPlural
    ↔ usages.isPlural key ∧ ∃ entry, loaded.get? key = some entry ∧ ∀ rules, entry ≠ .plural rules
  /-- **Each loaded key is one thing**: an invalid plural key, an extra key that is not in use, or a
  key in use. -/
  one_class : ∀ key entry, loaded.get? key = some entry → key ≠ Catalog.sentinelKey →
    (key ∈ diff.invalidPlural ∧ key ∉ diff.extra)
      ∨ (key ∉ diff.invalidPlural ∧ key ∈ diff.extra ∧ ¬usages.Confirm isDefault key entry)
      ∨ (key ∉ diff.invalidPlural ∧ key ∉ diff.extra ∧ usages.Confirm isDefault key entry)
  /-- The invalid plural keys are listed in catalog order, each once. -/
  invalidPlural_sublist : diff.invalidPlural.Sublist loaded.keys ∧ diff.invalidPlural.Nodup
  /-- The extra keys are listed in catalog order, each once. -/
  extra_sublist : diff.extra.Sublist loaded.keys ∧ diff.extra.Nodup
  /-- The reserved key is never extra. -/
  sentinelKey_not_mem_extra : Catalog.sentinelKey ∉ diff.extra
  /-- What is left is the loaded catalog without the invalid plural keys. -/
  entries_kept : kept.entries = loaded.entries.filter fun field => field.1 ∉ diff.invalidPlural
  /-- The missing keys are listed in increasing order. -/
  missing_sorted : diff.missing.Pairwise (· < ·)
  /-- The missing keys are the required ones that are not left: in the default locale the plural
  keys are required, in any other all keys. -/
  mem_missing_iff : ∀ key, key ∈ diff.missing
    ↔ (if isDefault then usages.isPlural key = true else key ∈ usages.allKeys.toList)
      ∧ key ∉ kept.keys
  /-- An invalid plural key is missing. -/
  invalidPlural_subset : diff.invalidPlural ⊆ diff.missing
  /-- No extra key is missing. -/
  not_mem_extra_of_missing : ∀ key ∈ diff.missing, key ∉ diff.extra
  /-- The mismatched keys are the non-empty ones that are left, are used as scalar only and have a
  rule set or no translation for an entry. -/
  mem_kindMismatch_iff : ∀ key, key ∈ diff.kindMismatch
    ↔ key ≠ "" ∧ usages.isScalar key ∧ usages.isPlural key = false
      ∧ ∃ entry, kept.get? key = some entry
        ∧ ((∃ rules, entry = .plural rules) ∨ ∃ value, entry = .invalid value)
  /-- The mismatched keys are listed in catalog order, each once. -/
  kindMismatch_sublist : diff.kindMismatch.Sublist kept.keys ∧ diff.kindMismatch.Nodup
  /-- No mismatched key is extra. -/
  not_mem_extra_of_kindMismatch : ∀ key ∈ diff.kindMismatch, key ∉ diff.extra

namespace Catalog

variable {catalog : Catalog} {usages : KeyUsages} {isDefault : Bool} {key : String} {entry : Entry}

/-! ## Entries and keys -/

theorem isPlural_eq_false_iff : entry.isPlural = false ↔ ∀ rules, entry ≠ .plural rules := by
  cases entry <;> simp [Entry.isPlural]

/-- An entry serves a key exactly if it confirms that the key is in use. -/
theorem serves_iff :
    serves usages isDefault key entry = true ↔ usages.Confirm isDefault key entry := by
  cases entry <;> cases isDefault <;>
    simp [serves, KeyUsages.Confirm, Entry.isNull, Entry.isPlural]

theorem serves_eq_false_iff :
    serves usages isDefault key entry = false ↔ ¬usages.Confirm isDefault key entry := by
  rw [← serves_iff, Bool.not_eq_true]

theorem refusesScalar_iff :
    refusesScalar entry = true
      ↔ (∃ rules, entry = .plural rules) ∨ ∃ value, entry = .invalid value := by
  cases entry <;> simp [refusesScalar]

/-- An entry that a scalar usage cannot resolve still confirms the usage. -/
theorem confirm_of_refusesScalar (hs : usages.isScalar key = true)
    (hrefuses : refusesScalar entry = true) : usages.Confirm isDefault key entry := by
  refine .inl ⟨hs, ?_⟩
  rintro ⟨-, rfl⟩
  cases hrefuses

/-! ## Lists in catalog order -/

/-- The keys of the entries that pass a test stand in catalog order, each once. -/
theorem map_fst_filter_sublist (p : String × Entry → Bool) :
    ((catalog.entries.filter p).map Prod.fst).Sublist catalog.keys
      ∧ ((catalog.entries.filter p).map Prod.fst).Nodup := by
  have hsub : ((catalog.entries.filter p).map Prod.fst).Sublist catalog.keys :=
    List.filter_sublist.map Prod.fst
  exact ⟨hsub, catalog.distinct.sublist hsub⟩

theorem keys_kept_sublist : (catalog.kept usages).keys.Sublist catalog.keys := by
  rw [keys, entries_kept]
  exact List.filter_sublist.map Prod.fst

/-! ## The three classes -/

/-- A key is left exactly if it is loaded and no invalid plural key, and then with its entry. -/
theorem get?_kept_of_not_mem (h : key ∉ catalog.invalidPlurals usages) :
    (catalog.kept usages).get? key = catalog.get? key := by rw [kept, get?_eraseAll, if_neg h]

theorem not_mem_keys_kept (h : key ∈ catalog.invalidPlurals usages) :
    key ∉ (catalog.kept usages).keys := fun hmem => (mem_keys_eraseAll.1 hmem).1 h

/-- **A key that is left is extra exactly if its entry does not confirm it.** -/
theorem mem_extra_iff_of_get? (hget : (catalog.kept usages).get? key = some entry)
    (hkey : key ≠ sentinelKey) :
    key ∈ (catalog.diff usages isDefault).1.extra ↔ ¬usages.Confirm isDefault key entry := by
  have hextra : key ∈ (catalog.diff usages isDefault).1.extra
      ↔ key ∈ (catalog.kept usages).extraKeys usages isDefault := Iff.rfl
  rw [hextra, mem_extraKeys, hget]
  simp [hkey, serves_eq_false_iff]

theorem mem_keys_kept_of_mem_extra (h : key ∈ (catalog.diff usages isDefault).1.extra) :
    key ∈ (catalog.kept usages).keys := by
  obtain ⟨-, entry, hget, -⟩ := mem_extraKeys.1 h
  exact mem_keys_of_get? hget

theorem one_class_diff (hget : catalog.get? key = some entry) (hkey : key ≠ sentinelKey) :
    let diff := (catalog.diff usages isDefault).1
    (key ∈ diff.invalidPlural ∧ key ∉ diff.extra)
      ∨ (key ∉ diff.invalidPlural ∧ key ∈ diff.extra ∧ ¬usages.Confirm isDefault key entry)
      ∨ (key ∉ diff.invalidPlural ∧ key ∉ diff.extra ∧ usages.Confirm isDefault key entry) := by
  intro diff
  by_cases hinvalid : key ∈ diff.invalidPlural
  · exact .inl ⟨hinvalid, fun hextra =>
      not_mem_keys_kept hinvalid (mem_keys_kept_of_mem_extra hextra)⟩
  · have hkept : (catalog.kept usages).get? key = some entry := by
      rw [get?_kept_of_not_mem hinvalid, hget]
    by_cases hextra : key ∈ diff.extra
    · exact .inr (.inl ⟨hinvalid, hextra, (mem_extra_iff_of_get? hkept hkey).1 hextra⟩)
    · refine .inr (.inr ⟨hinvalid, hextra, ?_⟩)
      exact not_not.1 fun hnot => hextra ((mem_extra_iff_of_get? hkept hkey).2 hnot)

/-! ## All keys -/

/-- **A diff accounts for every key.** -/
theorem accountsFor_diff (catalog : Catalog) (usages : KeyUsages) (isDefault : Bool) :
    (catalog.diff usages isDefault).1.AccountsFor usages isDefault catalog
      (catalog.diff usages isDefault).2 where
  mem_invalidPlural_iff key := by
    refine mem_invalidPlurals.trans (and_congr_right fun _ => ?_)
    simp only [isPlural_eq_false_iff]
  one_class key entry hget hkey := one_class_diff hget hkey
  invalidPlural_sublist := map_fst_filter_sublist _
  extra_sublist := by
    obtain ⟨hsub, hnodup⟩ := (catalog.kept usages).map_fst_filter_sublist fun field =>
      field.1 != sentinelKey && !serves usages isDefault field.1 field.2
    exact ⟨hsub.trans keys_kept_sublist, hnodup⟩
  sentinelKey_not_mem_extra h := (mem_extraKeys.1 h).1 rfl
  entries_kept := entries_eraseAll
  missing_sorted := pairwise_missing
  mem_missing_iff key := by
    refine mem_missing.trans (and_congr_left fun _ => ?_)
    cases isDefault
    · simp [KeyUsages.mem_allKeys, or_comm]
    · simp
  invalidPlural_subset _ h := mem_missing_of_mem_invalidPlurals h
  not_mem_extra_of_missing _ hmissing hextra :=
    (mem_missing.1 hmissing).2 (mem_keys_kept_of_mem_extra hextra)
  mem_kindMismatch_iff key := by
    refine mem_mismatchedKeys.trans ?_
    simp only [refusesScalar_iff]
    rfl
  kindMismatch_sublist := map_fst_filter_sublist _
  not_mem_extra_of_kindMismatch _ hmismatch hextra := by
    obtain ⟨hkey, hs, -, entry, hget, hrefuses⟩ := mem_mismatchedKeys.1 hmismatch
    exact (mem_extra_iff_of_get? hget hkey).1 hextra (confirm_of_refusesScalar hs hrefuses)

/-- A catalog with keys of each class: two in use, one of them refused as scalar, two extra ones and
a plural key without a rule set. -/
theorem accountsFor_diff_every_class :
    let catalog : Catalog :=
      ⟨[("", .scalar ""), ("old", .scalar "x"), ("#p", .scalar "y"), ("a", .null),
        ("m", .plural {}), ("b", .scalar "B")], by decide +kernel⟩
    let usages : KeyUsages := { scalar := .ofList ["a", "b", "m"], plural := .ofList ["#p", "#q"] }
    let diff := (catalog.diff usages true).1
    diff = { missing := ["#p", "#q"], extra := ["old", "a"], invalidPlural := ["#p"],
             kindMismatch := ["m"] }
      ∧ usages.Confirm true "b" (.scalar "B") ∧ ¬usages.Confirm true "a" .null := by
  intro catalog usages diff
  have hdiff : diff = { missing := ["#p", "#q"], extra := ["old", "a"], invalidPlural := ["#p"],
                        kindMismatch := ["m"] } := by decide +kernel
  have hclass := (accountsFor_diff catalog usages true).one_class
  have hused := hclass "b" (.scalar "B") (by decide +kernel) (by decide)
  have hextra := hclass "a" .null (by decide +kernel) (by decide)
  rw [show (catalog.diff usages true).1 = _ from hdiff] at hused hextra
  refine ⟨hdiff, ?_, ?_⟩
  · simpa using hused
  · simpa using hextra

end Catalog

end Phrasebook
