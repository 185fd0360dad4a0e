import Phrasebook.Proofs.Drift.Pending

/-!
# Proofs/Drift/Outcome — what the outcome of a fix says about the diff

    missing ≠ []                       ──▸ keys added
    missing = [], extra = [marker]     ──▸ waits for translations
    missing = [], another extra key    ──▸ fixed
    missing = [], extra = []           ──▸ up to date

A diff without missing keys has no invalid plural key either, so it leaves the catalog as it is, and
its extra keys are all there to be removed.  Each outcome therefore stands for one kind of diff
(`fix_diff_cases`), and since no two of these kinds overlap, **the outcome tells which diff it was**
(`tells_fix`).
-/

namespace Phrasebook

/-- What an outcome says about the diff that was applied, and about the catalog before and after. -/
structure FixOutcome.Tells (outcome : FixOutcome) (diff : CatalogDiff) (loaded patched : Catalog) :
    Prop where
  /-- Translations are waited for if only the marker is left. -/
  hasMissingTranslations_iff : outcome = .hasMissingTranslations
    ↔ diff.missing = [] ∧ diff.extra = [Catalog.markerKey]
  /-- Then the catalog is left as it was loaded. -/
  patched_of_hasMissingTranslations : outcome = .hasMissingTranslations → patched = loaded
  /-- Keys are added if some were missing. -/
  keysAdded_iff : outcome = .keysAdded ↔ diff.missing ≠ []
  /-- Translations are fixed if none was missing and a key other than the marker was extra. -/
  translationsFixed_iff : outcome = .translationsFixed
    ↔ diff.missing = [] ∧ ∃ key ∈ diff.extra, key ≠ Catalog.markerKey
  /-- The catalog is up to date if there was no drift. -/
  upToDate_iff : outcome = .upToDate ↔ diff.hasDrift = false
  /-- Then nothing but the entry at `""` can be another one than before. -/
  patched_of_upToDate : outcome = .upToDate →
    patched.erase Catalog.sentinelKey = loaded.erase Catalog.sentinelKey

theorem CatalogDiff.hasDrift_eq_false_iff {diff : CatalogDiff} :
    diff.hasDrift = false ↔ diff.missing = [] ∧ diff.extra = [] := by
  simp [CatalogDiff.hasDrift]

namespace Catalog

variable {catalog : Catalog} {usages : KeyUsages} {isDefault : Bool} {diff : CatalogDiff}

/-! ## A fix without missing keys -/

/-- The outcome of a fix that adds nothing: every unused key is there to be removed. -/
theorem fix_fst_of_missing_eq_nil (hf : diff.Fits catalog) (hs : sentinelKey ∉ diff.extra)
    (hm : diff.onlyMarkerLeft = false) (hmissing : diff.missing = [])
    (hinvalid : diff.invalidPlural = []) :
    (catalog.fix diff usages).1
      = if unused diff = [] then .upToDate else .translationsFixed := by
  have hthere : ∀ key ∈ unused diff, (catalog.erase sentinelKey).contains key = true := by
    intro key hkey
    have hextra : key ∈ diff.extra := (mem_unused.1 hkey).1
    exact contains_iff.2 (mem_keys_erase.2
      ⟨fun he => hs (he ▸ hextra), hf.mem_of_extra key hextra⟩)
  have hany : (unused diff).any (catalog.erase sentinelKey).contains
      = !(unused diff).isEmpty := by
    cases hu : unused diff with
    | nil => rfl
    | cons key rest => simp [hthere key (by simp [hu])]
  rw [fix, if_neg (by simp [hm])]
  simp only [hmissing, hinvalid, addPlaceholders, List.isEmpty_nil, Bool.not_true,
    Bool.false_eq_true, if_true, if_false, List.foldl_nil, Bool.false_or]
  rw [← unused, hany]
  by_cases hu : unused diff = [] <;> simp [hu]

/-- Nothing is unused if and only if no key but the marker is extra. -/
theorem unused_eq_nil_iff : unused diff = [] ↔ ∀ key ∈ diff.extra, key = markerKey := by
  simp [unused, List.filter_eq_nil_iff]

/-! ## The four kinds of diffs -/

/-- **What each outcome stands for.** -/
theorem fix_diff_cases (catalog : Catalog) (usages : KeyUsages) (isDefault : Bool) :
    let diff := (catalog.diff usages isDefault).1
    let outcome := ((catalog.kept usages).fix diff usages).1
    (outcome = .hasMissingTranslations ∧ diff.missing = [] ∧ diff.extra = [markerKey])
      ∨ (outcome = .keysAdded ∧ diff.missing ≠ [])
      ∨ (outcome = .translationsFixed ∧ diff.missing = []
          ∧ ∃ key ∈ diff.extra, key ≠ markerKey)
      ∨ (outcome = .upToDate ∧ diff.missing = [] ∧ diff.extra = []) := by
  intro diff outcome
  cases hm : diff.onlyMarkerLeft with
  | true =>
    exact .inl ⟨fix_fst_eq_hasMissingTranslations_iff.2 hm, onlyMarkerLeft_iff.1 hm⟩
  | false =>
    by_cases hmissing : diff.missing = []
    · have houtcome : outcome = if unused diff = [] then .upToDate else .translationsFixed :=
        fix_fst_of_missing_eq_nil fits_diff (fun h => (mem_extraKeys.1 h).1 rfl) hm hmissing
          (invalidPlurals_of_missing_eq_nil hmissing)
      by_cases hu : unused diff = []
      · rw [if_pos hu] at houtcome
        refine .inr (.inr (.inr ⟨houtcome, hmissing, ?_⟩))
        rcases eq_nil_or_eq_singleton_of_nodup nodup_extraKeys (unused_eq_nil_iff.1 hu) with
          hextra | hextra
        · exact hextra
        · -- a marker alone would have stopped the fix
          rw [onlyMarkerLeft_iff.2 ⟨hmissing, hextra⟩] at hm
          cases hm
      · rw [if_neg hu] at houtcome
        obtain ⟨key, hkey⟩ := List.exists_mem_of_ne_nil _ hu
        exact .inr (.inr (.inl ⟨houtcome, hmissing, key, mem_unused.1 hkey⟩))
    · exact .inr (.inl ⟨fix_fst_eq_keysAdded_iff.2 hmissing, hmissing⟩)

/-- A fix of a catalog without drift writes the sentinel and changes nothing else. -/
theorem erase_sentinelKey_fixed (hmissing : (catalog.diff usages isDefault).1.missing = [])
    (hextra : (catalog.diff usages isDefault).1.extra = []) :
    (catalog.fixed usages isDefault).erase sentinelKey = catalog.erase sentinelKey := by
  have hm : (catalog.diff usages isDefault).1.onlyMarkerLeft = false := by
    simp [CatalogDiff.onlyMarkerLeft, hextra]
  have hunused : unused (catalog.diff usages isDefault).1 = [] := by simp [unused, hextra]
  have hrepaired : (catalog.kept usages).repaired (catalog.diff usages isDefault).1 usages
      = catalog.erase sentinelKey := by
    simp [repaired, hmissing, hunused, addPlaceholders, eraseAll_nil,
      kept_of_missing_eq_nil hmissing]
  rw [fixed, fix_snd hm, erase_insert, hrepaired, erase_erase]

/-- **The outcome of a fix tells which diff it was.** -/
theorem tells_fix (catalog : Catalog) (usages : KeyUsages) (isDefault : Bool) :
    ((catalog.kept usages).fix (catalog.diff usages isDefault).1 usages).1.Tells
      (catalog.diff usages isDefault).1 catalog (catalog.fixed usages isDefault) := by
  rcases fix_diff_cases catalog usages isDefault with
    ⟨ho, hm, hx⟩ | ⟨ho, hm⟩ | ⟨ho, hm, hother⟩ | ⟨ho, hm, hx⟩
  · have hsame : catalog.fixed usages isDefault = catalog := by
      rw [fixed, fix_of_onlyMarkerLeft (onlyMarkerLeft_iff.2 ⟨hm, hx⟩), kept_of_missing_eq_nil hm]
    constructor <;> simp [ho, hm, hx, hsame, CatalogDiff.hasDrift_eq_false_iff]
  · constructor <;> simp [ho, hm, CatalogDiff.hasDrift_eq_false_iff]
  · have hx : (catalog.diff usages isDefault).1.extra ≠ [] := by
      obtain ⟨key, hkey, -⟩ := hother
      exact List.ne_nil_of_mem hkey
    have hmarker : (catalog.diff usages isDefault).1.extra ≠ [markerKey] := by
      obtain ⟨key, hkey, hne⟩ := hother
      exact fun h => hne (List.mem_singleton.1 (h ▸ hkey))
    constructor <;> simp [ho, hm, hx, hmarker, hother, CatalogDiff.hasDrift_eq_false_iff]
  · have hsame := erase_sentinelKey_fixed hm hx
    constructor <;> simp [ho, hm, hx, hsame, CatalogDiff.hasDrift_eq_false_iff]

end Catalog

end Phrasebook
