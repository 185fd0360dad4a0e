import Phrasebook.Proofs.Drift.Repair
import Phrasebook.Source.Extraction

/-!
# Proofs/Drift/Sentinel — the key that closes a catalog, and when it is taken for a translation

The key `""` belongs to the file format.  Extra and mismatched keys pass it over, and every fixed
catalog reads the empty text there.  But an empty template makes `""` a used key, and neither the
missing keys nor the invalid plural ones pass it over.  `sentinelKey_reserved_iff` says exactly for
which catalogs and usages a diff keeps its hands off `""`, and for which of the others a fix still
leaves it at the end: where no other key is added with it (`endsInSentinel_fixed_iff`).
-/

namespace Phrasebook.Catalog

variable {catalog : Catalog} {usages : KeyUsages} {isDefault : Bool}

/-- The catalog has `""` once, as its last key, with the empty text. -/
structure EndsInSentinel (catalog : Catalog) : Prop where
  getLast?_keys : catalog.keys.getLast? = some sentinelKey
  count_keys : catalog.keys.count sentinelKey = 1
  get?_eq : catalog.get? sentinelKey = some (.scalar "")

/-! ## The lists of a diff -/

theorem sentinelKey_not_mem_extra :
    sentinelKey ∉ (catalog.diff usages isDefault).1.extra := fun h => (mem_extraKeys.1 h).1 rfl

theorem sentinelKey_not_mem_kindMismatch :
    sentinelKey ∉ (catalog.diff usages isDefault).1.kindMismatch := fun h =>
  (mem_mismatchedKeys.1 h).1 rfl

/-- The usages make `""` a key that the catalog must have and has not. -/
def WantsSentinel (catalog : Catalog) (usages : KeyUsages) (isDefault : Bool) : Prop :=
  (usages.isPlural sentinelKey ∧ ∀ rules, catalog.get? sentinelKey ≠ some (.plural rules))
    ∨ (isDefault = false ∧ usages.isScalar sentinelKey ∧ sentinelKey ∉ catalog.keys)

/-- A plural key is kept exactly with a rule set. -/
theorem mem_keys_kept_of_isPlural {key : String} (hp : usages.isPlural key = true) :
    key ∈ (catalog.kept usages).keys ↔ ∃ rules, catalog.get? key = some (.plural rules) := by
  refine ⟨fun hmem => ?_, fun ⟨rules, hget⟩ => ?_⟩
  · obtain ⟨entry, hentry⟩ := mem_keys.1 hmem
    obtain ⟨hget, hstays⟩ := get?_kept_eq_some_iff.1 (get?_eq_some_iff.2 hentry)
    cases entry with
    | plural rules => exact ⟨rules, hget⟩
    | _ => simp [stays, hp, Entry.isPlural] at hstays
  · exact mem_keys_of_get? (get?_kept_eq_some_iff.2 ⟨hget, by simp [stays, Entry.isPlural]⟩)

/-- Any other key is kept as it is. -/
theorem mem_keys_kept_of_not_isPlural {key : String} (hp : usages.isPlural key = false) :
    key ∈ (catalog.kept usages).keys ↔ key ∈ catalog.keys := by
  rw [kept, mem_keys_eraseAll, mem_invalidPlurals]
  simp [hp]

theorem sentinelKey_mem_missing_iff :
    sentinelKey ∈ (catalog.diff usages isDefault).1.missing
      ↔ catalog.WantsSentinel usages isDefault := by
  rw [mem_missing, WantsSentinel]
  cases hp : usages.isPlural sentinelKey with
  | true =>
    rw [mem_keys_kept_of_isPlural hp, not_exists]
    refine ⟨fun h => .inl ⟨rfl, h.2⟩, fun h => ⟨.inl rfl, ?_⟩⟩
    rcases h with h | ⟨-, -, hnot⟩
    · exact h.2
    · exact fun rules hget => hnot (mem_keys_of_get? hget)
  | false =>
    rw [mem_keys_kept_of_not_isPlural hp]
    simp [and_assoc]

/-! ## The fixed catalog -/

theorem count_keys_fixed (hm : (catalog.diff usages isDefault).1.onlyMarkerLeft = false) :
    (catalog.fixed usages isDefault).keys.count sentinelKey = 1 := by
  have hmem : sentinelKey ∈ (catalog.fixed usages isDefault).keys := by
    rw [fixed, fix_snd hm]
    exact mem_keys_insert.2 (.inl rfl)
  have hle : (catalog.fixed usages isDefault).keys.count sentinelKey ≤ 1 :=
    List.nodup_iff_count.1 (catalog.fixed usages isDefault).distinct sentinelKey
  have hpos := List.count_pos_iff.2 hmem
  omega

/-- **A fix that is not asked to add `""` leaves it at the end.** -/
theorem endsInSentinel_fixed (hm : (catalog.diff usages isDefault).1.onlyMarkerLeft = false)
    (hs : sentinelKey ∉ (catalog.diff usages isDefault).1.missing) :
    (catalog.fixed usages isDefault).EndsInSentinel where
  getLast?_keys := by
    rw [keys, fixed, entries_fix fits_diff hm hs]
    simp
  count_keys := count_keys_fixed hm
  get?_eq := by rw [fixed, get?_fix hm, if_pos rfl]

/-- The missing keys start with `""` if it is among them. -/
theorem missing_eq_cons (hs : sentinelKey ∈ (catalog.diff usages isDefault).1.missing) :
    ∃ rest, (catalog.diff usages isDefault).1.missing = sentinelKey :: rest := by
  have hset : sentinelKey ∈ (⟨_, pairwise_missing⟩ : KeySet).toList := hs
  exact KeySet.toList_eq_cons_of_empty_mem hset

/-- The keys of a fixed catalog to which `""` was added: the other missing keys stand behind it. -/
theorem keys_fixed_of_missing_eq_cons {rest : List String}
    (hm : (catalog.diff usages isDefault).1.missing = sentinelKey :: rest) :
    ∃ front, (catalog.fixed usages isDefault).keys
      = front ++ sentinelKey :: rest.filter (· ≠ markerKey) := by
  have hmem : sentinelKey ∈ (catalog.diff usages isDefault).1.missing := by simp [hm]
  have hopen : (catalog.diff usages isDefault).1.onlyMarkerLeft = false := by
    simp [CatalogDiff.onlyMarkerLeft, hm]
  have hgraph : ∀ keys : List String,
      Fields.names (keys.map fun key => (key, placeholder usages key)) = keys := by
    intro keys
    rw [Fields.names, List.map_map]
    exact List.map_id keys
  rw [fixed, keys_fix_of_sentinelKey_mem fits_diff hopen hmem, keys, entries_repaired fits_diff,
    added, hm, if_neg (by simp), Fields.names_append, Fields.names_append, hgraph,
    List.filter_cons_of_pos (by simp [Ne.symm markerKey_ne_sentinelKey]), ← List.append_assoc]
  exact ⟨_, rfl⟩

/-- A key that stands once in a list is its last one if nothing stands behind it. -/
theorem getLast?_append_cons_eq_iff {front rest : List String} {key : String} (h : key ∉ rest) :
    (front ++ key :: rest).getLast? = some key ↔ rest = [] := by
  rcases List.eq_nil_or_concat rest with rfl | ⟨init, last, rfl⟩
  · simp
  · have hne : last ≠ key := fun he => h (by simp [he])
    simp [List.getLast?_append, List.getLast?_cons, hne]

/-- **Where a fix leaves `""`**: at the end, unless it is added together with another key, which
then stands behind it. -/
theorem endsInSentinel_fixed_iff
    (hopen : (catalog.diff usages isDefault).1.onlyMarkerLeft = false) :
    (catalog.fixed usages isDefault).EndsInSentinel
      ↔ (sentinelKey ∈ (catalog.diff usages isDefault).1.missing →
          ∀ key ∈ (catalog.diff usages isDefault).1.missing,
            key = sentinelKey ∨ key = markerKey) := by
  by_cases hs : sentinelKey ∈ (catalog.diff usages isDefault).1.missing
  · obtain ⟨rest, hm⟩ := missing_eq_cons hs
    obtain ⟨front, hkeys⟩ := keys_fixed_of_missing_eq_cons hm
    have hdistinct : (sentinelKey :: rest).Nodup := hm ▸ fits_diff.nodup_missing
    have hnot : sentinelKey ∉ rest := (List.nodup_cons.1 hdistinct).1
    have hends : (catalog.fixed usages isDefault).EndsInSentinel
        ↔ (catalog.fixed usages isDefault).keys.getLast? = some sentinelKey :=
      ⟨fun h => h.getLast?_keys,
        fun h => ⟨h, count_keys_fixed hopen, by rw [fixed, get?_fix hopen, if_pos rfl]⟩⟩
    have hlast : (catalog.fixed usages isDefault).keys.getLast? = some sentinelKey
        ↔ ∀ key ∈ rest, key = markerKey := by
      rw [hkeys, getLast?_append_cons_eq_iff fun h => hnot (List.mem_filter.1 h).1,
        List.filter_eq_nil_iff]
      simp
    rw [hends, hlast, hm]
    refine ⟨fun h _ key hkey => ?_, fun h key hkey => ?_⟩
    · rcases List.mem_cons.1 hkey with rfl | hkey
      · exact .inl rfl
      · exact .inr (h key hkey)
    · have hne : key ≠ sentinelKey := fun he => hnot (he ▸ hkey)
      exact (h List.mem_cons_self key (List.mem_cons_of_mem _ hkey)).resolve_left hne
  · exact iff_of_true (endsInSentinel_fixed hopen hs) fun h => absurd h hs

/-- **When `""` is no translation content**: it is in none of the lists of a diff, and a fix that
writes leaves it once, at the end, with the empty text, exactly if the usages do not ask for an
entry at `""` that the catalog lacks.  If they ask for one, a fix that writes still leaves it so
unless another key is missing, too, which then stands behind it. -/
theorem sentinelKey_reserved_iff (catalog : Catalog) (usages : KeyUsages) (isDefault : Bool) :
    let diff := (catalog.diff usages isDefault).1
    let result := (catalog.diff usages isDefault).2.fix diff usages
    ((sentinelKey ∉ diff.missing ∧ sentinelKey ∉ diff.extra ∧ sentinelKey ∉ diff.invalidPlural
        ∧ sentinelKey ∉ diff.kindMismatch
        ∧ (result.1 ≠ .hasMissingTranslations → result.2.EndsInSentinel))
      ↔ ¬catalog.WantsSentinel usages isDefault)
    ∧ (result.1 ≠ .hasMissingTranslations →
        (result.2.EndsInSentinel
          ↔ (catalog.WantsSentinel usages isDefault →
              ∀ key ∈ diff.missing, key = sentinelKey ∨ key = markerKey))) := by
  intro diff result
  have hopen (ho : result.1 ≠ .hasMissingTranslations) : diff.onlyMarkerLeft = false := by
    simpa [result, fix_fst_eq_hasMissingTranslations_iff] using ho
  rw [← sentinelKey_mem_missing_iff]
  refine ⟨⟨fun h => h.1, fun hs => ⟨hs, sentinelKey_not_mem_extra, fun hinvalid => ?_,
    sentinelKey_not_mem_kindMismatch, fun ho => ?_⟩⟩, fun ho => ?_⟩
  · exact hs (mem_missing_of_mem_invalidPlurals hinvalid)
  · exact endsInSentinel_fixed (hopen ho) hs
  · exact endsInSentinel_fixed_iff (hopen ho)

/-- An empty template beside another one in a source: `""` is missing, and once it is added it
stands above the other key. -/
theorem sentinelKey_missing_of_empty_template :
    ∃ usages, (Source.keyUsages {} true "page.ts" "__``; __`a`").toOption = some usages ∧
      let diff := (Catalog.empty.diff usages false).1
      let result := (Catalog.empty.diff usages false).2.fix diff usages
      sentinelKey ∈ diff.missing ∧ result.1 ≠ .hasMissingTranslations
        ∧ result.2.keys = [markerKey, "", "a"] ∧ ¬result.2.EndsInSentinel := by
  refine ⟨{ scalar := .ofList ["", "a"], plural := .empty }, by decide +kernel, by decide +kernel,
    by decide +kernel, by decide +kernel, fun h => ?_⟩
  exact absurd h.getLast?_keys (by decide +kernel)

end Phrasebook.Catalog
