import Phrasebook.Proofs.Drift.Fix

/-!
# Proofs/Drift/Repair — a fixed catalog has no drift left but its marker

A fix adds what is missing and removes what is unused, and neither creates drift of another kind: a
placeholder serves the key it stands for, and no key that is required is unused.  So a second diff
finds nothing to add, nothing of the wrong shape for a plural key, at most the marker to remove, and
the same mismatches as the first.
-/

namespace Phrasebook.Catalog

variable {catalog : Catalog} {usages : KeyUsages} {isDefault : Bool} {key : String} {entry : Entry}

/-- A placeholder serves its key, if the key was required. -/
theorem serves_placeholder (h : key ∈ (requiredKeys usages isDefault).toList) :
    serves usages isDefault key (placeholder usages key) = true := by
  rw [serves, placeholder]
  rcases mem_requiredKeys.1 h with hp | ⟨hd, hs⟩
  · simp [hp, Entry.isPlural]
  · simp [hd, hs]

/-- An entry that stays serves a key that is required. -/
theorem serves_of_stays (h : key ∈ (requiredKeys usages isDefault).toList)
    (hs : stays usages key entry = true) : serves usages isDefault key entry = true := by
  rw [serves]
  rw [stays] at hs
  rcases mem_requiredKeys.1 h with hp | ⟨hd, hs⟩
  · simp_all
  · simp [hd, hs]

/-- No key that is required is unused. -/
theorem not_mem_unused_of_required (h : key ∈ (requiredKeys usages isDefault).toList) :
    key ∉ unused (catalog.diff usages isDefault).1 := by
  intro hu
  obtain ⟨-, entry, hget, hnot⟩ := mem_extraKeys.1 (mem_unused.1 hu).1
  rw [serves_of_stays h (get?_kept_eq_some_iff.1 hget).2] at hnot
  cases hnot

theorem sentinelKey_not_mem_missing (h : sentinelKey ∉ usages.allKeys.toList) :
    sentinelKey ∉ (catalog.diff usages isDefault).1.missing := by
  intro hmem
  rw [KeyUsages.mem_allKeys] at h
  rcases (mem_missing.1 hmem).1 with hp | ⟨-, hs⟩
  · exact h (.inr hp)
  · exact h (.inl hs)

/-! ## What a fixed catalog reads -/

/-- The catalog that a fix makes of what a diff leaves. -/
def fixed (catalog : Catalog) (usages : KeyUsages) (isDefault : Bool) : Catalog :=
  ((catalog.kept usages).fix (catalog.diff usages isDefault).1 usages).2

/-- **Where an entry of a fixed catalog comes from.** -/
theorem get?_fixed_cases (hm : (catalog.diff usages isDefault).1.onlyMarkerLeft = false)
    (hk : key ≠ sentinelKey) (h : (catalog.fixed usages isDefault).get? key = some entry) :
    (key ∈ (catalog.diff usages isDefault).1.missing ∧ entry = placeholder usages key)
      ∨ (key = markerKey ∧ key ∉ (catalog.diff usages isDefault).1.missing
          ∧ key ∉ (catalog.kept usages).keys ∧ entry = .scalar markerText)
      ∨ (key ∉ unused (catalog.diff usages isDefault).1
          ∧ (catalog.kept usages).get? key = some entry) := by
  rw [fixed, get?_fix hm, if_neg hk, get?_repaired fits_diff hk] at h
  split at h
  · rename_i hmem
    exact .inl ⟨hmem, (Option.some.inj h).symm⟩
  · rename_i hmem
    split at h
    · cases h
    · rename_i hu
      split at h
      · rename_i hnew
        obtain ⟨rfl, -, hnew⟩ := hnew
        exact .inr (.inl ⟨rfl, hmem, hnew, (Option.some.inj h).symm⟩)
      · exact .inr (.inr ⟨hu, h⟩)

/-- A key that is required is in the fixed catalog. -/
theorem mem_keys_fixed_of_required
    (hm : (catalog.diff usages isDefault).1.onlyMarkerLeft = false)
    (h : key ∈ (requiredKeys usages isDefault).toList) :
    key ∈ (catalog.fixed usages isDefault).keys := by
  rw [fixed, fix_snd hm, mem_keys_insert, mem_keys_repaired fits_diff]
  by_cases hk : key = sentinelKey
  · exact .inl hk
  · by_cases hkept : key ∈ (catalog.kept usages).keys
    · exact .inr (.inl ⟨hkept, hk, not_mem_unused_of_required h⟩)
    · exact .inr (.inr (.inl (mem_missing.2 ⟨mem_requiredKeys.1 h, hkept⟩)))

/-- **A fixed catalog has a rule set for every plural key that it holds.** -/
theorem invalidPlurals_fixed (hs : sentinelKey ∉ usages.allKeys.toList)
    (hm : (catalog.diff usages isDefault).1.onlyMarkerLeft = false) :
    (catalog.fixed usages isDefault).invalidPlurals usages = [] := by
  refine List.eq_nil_iff_forall_not_mem.2 fun key hmem => ?_
  obtain ⟨hp, entry, hget, hnot⟩ := mem_invalidPlurals.1 hmem
  have hk : key ≠ sentinelKey := fun he =>
    hs (he ▸ KeyUsages.mem_allKeys.2 (.inr hp))
  rcases get?_fixed_cases hm hk hget with ⟨-, rfl⟩ | ⟨-, hmissing, hkept, -⟩ | ⟨-, hget⟩
  · simp [placeholder, hp, Entry.isPlural] at hnot
  · exact hmissing (mem_missing.2 ⟨.inl hp, hkept⟩)
  · have hstays := (get?_kept_eq_some_iff.1 hget).2
    simp [stays, hp, hnot] at hstays

/-- Without an invalid plural key, a diff leaves the catalog as it is. -/
theorem kept_of_invalidPlurals_eq_nil (h : catalog.invalidPlurals usages = []) :
    catalog.kept usages = catalog := by rw [kept, h, eraseAll_nil]

/-- A diff without missing keys has no invalid plural key either. -/
theorem invalidPlurals_of_missing_eq_nil (h : (catalog.diff usages isDefault).1.missing = []) :
    catalog.invalidPlurals usages = [] :=
  List.eq_nil_iff_forall_not_mem.2 fun _ hkey =>
    List.not_mem_nil (h ▸ mem_missing_of_mem_invalidPlurals hkey)

theorem kept_of_missing_eq_nil (h : (catalog.diff usages isDefault).1.missing = []) :
    catalog.kept usages = catalog :=
  kept_of_invalidPlurals_eq_nil (invalidPlurals_of_missing_eq_nil h)

/-- **All that is left to remove is the marker.** -/
theorem eq_markerKey_of_mem_extraKeys_fixed
    (hm : (catalog.diff usages isDefault).1.onlyMarkerLeft = false)
    (h : key ∈ (catalog.fixed usages isDefault).extraKeys usages isDefault) :
    key = markerKey := by
  obtain ⟨hk, entry, hget, hnot⟩ := mem_extraKeys.1 h
  rcases get?_fixed_cases hm hk hget with ⟨hmissing, rfl⟩ | ⟨hmarker, -⟩ | ⟨hu, hget⟩
  · rw [serves_placeholder (mem_requiredKeys.2 (mem_missing.1 hmissing).1)] at hnot
    cases hnot
  · exact hmarker
  · refine Decidable.byContradiction fun hne => hu (mem_unused.2 ⟨?_, hne⟩)
    exact mem_extraKeys.2 ⟨hk, entry, hget, hnot⟩

/-! ## Mismatches -/

/-- Whether a key that is used as scalar only has an entry that cannot serve it. -/
def mismatches (usages : KeyUsages) (key : String) (entry : Entry) : Bool :=
  key != sentinelKey && usages.isScalar key && !usages.isPlural key && refusesScalar entry

/-- A mismatched entry is in use, so no fix removes it. -/
theorem not_mem_unused_of_mismatches (hget : (catalog.kept usages).get? key = some entry)
    (h : mismatches usages key entry = true) :
    key ∉ unused (catalog.diff usages isDefault).1 := by
  intro hu
  obtain ⟨-, other, hother, hnot⟩ := mem_extraKeys.1 (mem_unused.1 hu).1
  obtain rfl : entry = other := Option.some.inj (hget.symm.trans hother)
  simp only [mismatches, Bool.and_eq_true] at h
  cases entry <;> simp_all [serves, refusesScalar, Entry.isNull]

/-- What a fix adds is mismatched nowhere. -/
theorem mismatches_added {missing : List String} {field : String × Entry}
    (h : field ∈ catalog.added usages missing) : mismatches usages field.1 field.2 = false := by
  have hplaceholder : ∀ key, mismatches usages key (placeholder usages key) = false := by
    intro key
    rw [mismatches, placeholder]
    by_cases hp : usages.isPlural key = true <;> simp [hp, refusesScalar]
  rw [added] at h
  split at h
  · cases h
  · rcases List.mem_append.1 h with h | h
    · split at h
      · cases h
      · obtain rfl := List.mem_singleton.1 h
        dsimp only
        split
        · exact hplaceholder markerKey
        · simp [mismatches, refusesScalar]
    · obtain ⟨key, -, rfl⟩ := List.mem_map.1 h
      exact hplaceholder key

/-- **A fix neither mends a mismatch nor makes one**, and it keeps their order. -/
theorem mismatchedKeys_fixed (hs : sentinelKey ∉ usages.allKeys.toList)
    (hm : (catalog.diff usages isDefault).1.onlyMarkerLeft = false) :
    (catalog.fixed usages isDefault).mismatchedKeys usages
      = (catalog.kept usages).mismatchedKeys usages := by
  have hstay : ((catalog.kept usages).entries.filter fun field =>
          field.1 ≠ sentinelKey ∧ field.1 ∉ unused (catalog.diff usages isDefault).1).filter
          (fun field => mismatches usages field.1 field.2)
      = (catalog.kept usages).entries.filter fun field => mismatches usages field.1 field.2 := by
    rw [List.filter_filter]
    refine List.filter_congr fun field hf => ?_
    by_cases hmis : mismatches usages field.1 field.2 = true
    · have hu : field.1 ∉ unused (catalog.diff usages isDefault).1 :=
        not_mem_unused_of_mismatches (get?_eq_some_iff.2 hf) hmis
      have hk : field.1 ≠ sentinelKey := by
        simp only [mismatches, Bool.and_eq_true, bne_iff_ne] at hmis
        exact hmis.1.1.1
      simp [hmis, hu, hk]
    · simp [hmis]
  have hadded : ((catalog.kept usages).added usages
        (catalog.diff usages isDefault).1.missing).filter
        (fun field => mismatches usages field.1 field.2) = [] :=
    List.filter_eq_nil_iff.2 fun field hf => by simp [mismatches_added hf]
  change ((catalog.fixed usages isDefault).entries.filter fun field =>
      mismatches usages field.1 field.2).map Prod.fst
    = ((catalog.kept usages).entries.filter fun field =>
      mismatches usages field.1 field.2).map Prod.fst
  rw [fixed, entries_fix fits_diff hm (sentinelKey_not_mem_missing hs), List.filter_append,
    List.filter_append, hstay, hadded]
  simp [mismatches]

/-! ## The second diff -/

/-- A list without repetition whose members are all one key is empty or that key alone. -/
theorem eq_nil_or_eq_singleton_of_nodup {a : String} :
    ∀ {l : List String}, l.Nodup → (∀ x ∈ l, x = a) → l = [] ∨ l = [a]
  | [], _, _ => .inl rfl
  | [x], _, h => .inr (by rw [h x (List.mem_singleton.2 rfl)])
  | x :: y :: _, hd, h => by
    have hxy : x = y := (h x (by simp)).trans (h y (by simp)).symm
    simp [hxy] at hd

theorem nodup_extraKeys : (catalog.extraKeys usages isDefault).Nodup :=
  catalog.distinct.sublist (List.filter_sublist.map Prod.fst)

/-- A second diff leaves the fixed catalog as it is. -/
theorem kept_fixed (hs : sentinelKey ∉ usages.allKeys.toList)
    (hm : (catalog.diff usages isDefault).1.onlyMarkerLeft = false) :
    (catalog.fixed usages isDefault).kept usages = catalog.fixed usages isDefault :=
  kept_of_invalidPlurals_eq_nil (invalidPlurals_fixed hs hm)

/-- **A fixed catalog has every key that it must have.** -/
theorem missing_fixed (hs : sentinelKey ∉ usages.allKeys.toList)
    (hm : (catalog.diff usages isDefault).1.onlyMarkerLeft = false) :
    ((catalog.fixed usages isDefault).diff usages isDefault).1.missing = [] := by
  refine List.eq_nil_iff_forall_not_mem.2 fun key hmem => ?_
  obtain ⟨hrequired, hnot⟩ := mem_missing.1 hmem
  rw [kept_fixed hs hm] at hnot
  exact hnot (mem_keys_fixed_of_required hm (mem_requiredKeys.2 hrequired))

/-- **A fixed catalog has no key too many but its marker.** -/
theorem extra_fixed (hs : sentinelKey ∉ usages.allKeys.toList)
    (hm : (catalog.diff usages isDefault).1.onlyMarkerLeft = false) :
    ((catalog.fixed usages isDefault).diff usages isDefault).1.extra = []
      ∨ ((catalog.fixed usages isDefault).diff usages isDefault).1.extra = [markerKey] := by
  refine eq_nil_or_eq_singleton_of_nodup nodup_extraKeys fun key hmem => ?_
  have hextra : key ∈ ((catalog.fixed usages isDefault).kept usages).extraKeys usages isDefault :=
    hmem
  rw [kept_fixed hs hm] at hextra
  exact eq_markerKey_of_mem_extraKeys_fixed hm hextra

/-- **After a fix, a diff finds no drift but the marker.**  Unless only the marker was left to begin
with, a second diff has nothing to add, no invalid plural key and the mismatches of the first. -/
theorem diff_fixed (catalog : Catalog) (usages : KeyUsages) (isDefault : Bool)
    (hs : sentinelKey ∉ usages.allKeys.toList)
    (ho : ((catalog.diff usages isDefault).2.fix (catalog.diff usages isDefault).1 usages).1
      ≠ .hasMissingTranslations) :
    let diff := (catalog.diff usages isDefault).1
    let patched := ((catalog.diff usages isDefault).2.fix diff usages).2
    let again := (patched.diff usages isDefault).1
    again.missing = [] ∧ again.invalidPlural = [] ∧ again.kindMismatch = diff.kindMismatch
      ∧ (again.extra = [] ∨ again.extra = [markerKey]) := by
  have hm : (catalog.diff usages isDefault).1.onlyMarkerLeft = false := by
    simpa [fix_fst_eq_hasMissingTranslations_iff] using ho
  refine ⟨missing_fixed hs hm, invalidPlurals_fixed hs hm, ?_, extra_fixed hs hm⟩
  have hkept := congrArg (mismatchedKeys · usages) (kept_fixed hs hm)
  exact hkept.trans (mismatchedKeys_fixed hs hm)

/-- A catalog with an unused key, a plural key without rule set, a redundant `null` and a
mismatch. -/
theorem diff_fixed_every_drift :
    let catalog : Catalog :=
      ⟨[("old", .scalar "x"), ("#p", .scalar "y"), ("a", .null), ("m", .invalid (.bool true))],
        by decide +kernel⟩
    let usages : KeyUsages :=
      { scalar := .ofList ["a", "m", "#b"], plural := .ofList ["#p", "#b"] }
    (catalog.diff usages true).1
        = { missing := ["#b", "#p"], extra := ["old", "a"], invalidPlural := ["#p"],
            kindMismatch := ["m"] }
      ∧ sentinelKey ∉ usages.allKeys.toList
      ∧ ((catalog.diff usages true).2.fix (catalog.diff usages true).1 usages).1
          ≠ .hasMissingTranslations
      ∧ ((((catalog.diff usages true).2.fix (catalog.diff usages true).1 usages).2).diff
          usages true).1.missing = [] :=
  ⟨by decide +kernel, by decide +kernel, by decide +kernel,
    (diff_fixed _ _ true (by decide +kernel) (by decide +kernel)).1⟩

end Phrasebook.Catalog
