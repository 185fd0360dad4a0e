import Phrasebook.Proofs.Drift.Diff

/-!
# Proofs/Drift/Fix — the entries of a fixed catalog, in order

    kept ──erase ""──▸ ──marker──▸ ──placeholders──▸ ──erase unused──▸ ──sentinel──▸ fixed

`entries_repaired` gives the catalog before the last step as one list: the entries that stay, the
marker if it is new, a placeholder for each other missing key.  Where the sentinel then goes depends
on one thing alone, whether `""` is among the missing keys.
-/

namespace Phrasebook.Catalog

variable {catalog : Catalog} {usages : KeyUsages} {diff : CatalogDiff} {key x : String}
  {entry : Entry} {keys : List String}

/-- The extra keys that a fix removes. -/
def unused (diff : CatalogDiff) : List String := diff.extra.filter (· ≠ markerKey)

/-- A catalog with its missing keys added and its unused ones removed, before the sentinel is put
back. -/
def repaired (catalog : Catalog) (diff : CatalogDiff) (usages : KeyUsages) : Catalog :=
  let open_ := catalog.erase sentinelKey
  let marked := if diff.missing.isEmpty then open_ else open_.withMarker
  (marked.addPlaceholders usages diff.missing).eraseAll (unused diff)

theorem fix_of_onlyMarkerLeft (h : diff.onlyMarkerLeft = true) :
    catalog.fix diff usages = (.hasMissingTranslations, catalog) := by rw [fix, if_pos h]

theorem fix_snd (h : diff.onlyMarkerLeft = false) :
    (catalog.fix diff usages).2
      = (catalog.repaired diff usages).insert sentinelKey (.scalar "") := by
  rw [fix, if_neg (by simp [h])]
  rfl

theorem fix_fst_eq_hasMissingTranslations_iff :
    (catalog.fix diff usages).1 = .hasMissingTranslations ↔ diff.onlyMarkerLeft = true := by
  by_cases h : diff.onlyMarkerLeft = true
  · simp [fix, h]
  · have hother : ∀ added removed : Bool,
        (if added then FixOutcome.keysAdded
          else if removed then .translationsFixed else .upToDate) ≠ .hasMissingTranslations := by
      decide
    rw [fix, if_neg h]
    exact iff_of_false (hother _ _) h

theorem onlyMarkerLeft_iff :
    diff.onlyMarkerLeft = true ↔ diff.missing = [] ∧ diff.extra = [markerKey] := by
  simp [CatalogDiff.onlyMarkerLeft]

/-! ## Placeholders -/

/-- **Placeholders take the places of known keys and put new ones at the end**, in the order
given. -/
theorem entries_addPlaceholders (hd : keys.Nodup) :
    (catalog.addPlaceholders usages keys).entries
      = catalog.entries.map (fun field =>
          (field.1, if field.1 ∈ keys then placeholder usages field.1 else field.2))
        ++ (keys.filter fun key => !catalog.contains key).map
            fun key => (key, placeholder usages key) := by
  induction keys generalizing catalog with
  | nil => simp [addPlaceholders]
  | cons key keys ih =>
    obtain ⟨hkey, hd⟩ := List.nodup_cons.1 hd
    change ((catalog.insert key (placeholder usages key)).addPlaceholders usages keys).entries = _
    rw [ih hd]
    by_cases h : key ∈ catalog.keys
    · have hsame : ∀ x, (catalog.insert key (placeholder usages key)).contains x
          = catalog.contains x := by
        intro x
        rw [Bool.eq_iff_iff, contains_iff, contains_iff, keys_insert_of_mem h]
      rw [entries_insert_of_mem h, List.map_map,
        List.filter_cons_of_neg (by simp [contains_iff.2 h])]
      simp only [hsame]
      refine congrArg (· ++ _) (List.map_congr_left fun field _ => ?_)
      by_cases hf : field.1 = key <;> simp [hf, hkey]
    · have hother : ∀ x ∈ keys, (catalog.insert key (placeholder usages key)).contains x
          = catalog.contains x := by
        intro x hx
        have hne : x ≠ key := fun he => hkey (he ▸ hx)
        rw [Bool.eq_iff_iff, contains_iff, contains_iff, mem_keys_insert]
        simp [hne]
      have hold : catalog.entries.map (fun field =>
            (field.1, if field.1 ∈ key :: keys then placeholder usages field.1 else field.2))
          = catalog.entries.map fun field =>
            (field.1, if field.1 ∈ keys then placeholder usages field.1 else field.2) :=
        List.map_congr_left fun field hf => by
          have hne : field.1 ≠ key := fun he => h (he ▸ mem_keys.2 ⟨field.2, hf⟩)
          simp [hne]
      rw [hold, entries_insert_of_not_mem h, List.map_append,
        List.filter_cons_of_pos (by simp [contains_eq_false_iff.2 h]),
        List.filter_congr fun x hx => by rw [hother x hx]]
      simp [hkey]

/-- The entries that a fix adds: the marker above, unless it is there already, and the missing
keys. -/
def added (catalog : Catalog) (usages : KeyUsages) (missing : List String) :
    List (String × Entry) :=
  if missing.isEmpty then []
  else
    (if catalog.contains markerKey then []
      else [(markerKey,
        if markerKey ∈ missing then placeholder usages markerKey else .scalar markerText)])
      ++ (missing.filter (· ≠ markerKey)).map fun key => (key, placeholder usages key)

theorem mem_keys_withMarker : x ∈ catalog.withMarker.keys ↔ x = markerKey ∨ x ∈ catalog.keys := by
  rw [withMarker]
  split
  · rename_i h
    exact ⟨.inr, fun hx => hx.elim (fun he => he ▸ contains_iff.1 h) id⟩
  · exact mem_keys_insert

theorem entries_withMarker :
    catalog.withMarker.entries
      = catalog.entries
        ++ if catalog.contains markerKey then [] else [(markerKey, .scalar markerText)] := by
  rw [withMarker]
  split
  · simp
  · rename_i h
    exact entries_insert_of_not_mem fun hmem => h (contains_iff.2 hmem)

/-- Missing keys that are new, below the marker: nothing that was there changes. -/
theorem entries_marked_addPlaceholders {missing : List String} (hd : missing.Nodup)
    (hnew : ∀ key ∈ missing, key ∉ catalog.keys) :
    ((if missing.isEmpty then catalog else catalog.withMarker).addPlaceholders usages
        missing).entries
      = catalog.entries ++ catalog.added usages missing := by
  by_cases hm : missing.isEmpty = true
  · obtain rfl := List.isEmpty_iff.1 hm
    simp [added, addPlaceholders]
  · have hrest : missing.filter (fun key => !catalog.withMarker.contains key)
        = missing.filter (· ≠ markerKey) :=
      List.filter_congr fun key hkey => by
        rw [Bool.eq_iff_iff, Bool.not_eq_true', contains_eq_false_iff, mem_keys_withMarker]
        simp [hnew key hkey]
    have hold : catalog.entries.map (fun field =>
          (field.1, if field.1 ∈ missing then placeholder usages field.1 else field.2))
        = catalog.entries.map fun field => field :=
      List.map_congr_left fun field hf => by
        rw [if_neg fun hmem => hnew _ hmem (mem_keys.2 ⟨field.2, hf⟩)]
    rw [if_neg hm, entries_addPlaceholders hd, hrest, entries_withMarker, List.map_append, hold,
      added, if_neg hm]
    split <;> simp

/-! ## The repaired catalog -/

theorem mem_unused : key ∈ unused diff ↔ key ∈ diff.extra ∧ key ≠ markerKey := by simp [unused]

theorem markerKey_not_mem_unused : markerKey ∉ unused diff := fun h => (mem_unused.1 h).2 rfl

theorem markerKey_ne_sentinelKey : markerKey ≠ sentinelKey := by decide

theorem contains_markerKey_erase :
    (catalog.erase sentinelKey).contains markerKey = catalog.contains markerKey := by
  rw [Bool.eq_iff_iff, contains_iff, contains_iff, mem_keys_erase]
  simp [markerKey_ne_sentinelKey]

theorem mem_names_added (h : markerKey ∈ diff.missing → markerKey ∉ catalog.keys) :
    key ∈ Fields.names (catalog.added usages diff.missing)
      ↔ key ∈ diff.missing
        ∨ (key = markerKey ∧ diff.missing ≠ [] ∧ markerKey ∉ catalog.keys) := by
  rw [added, ← contains_eq_false_iff]
  rw [← contains_eq_false_iff] at h
  cases hm : diff.missing with
  | nil => simp
  | cons first rest =>
    rw [← hm]
    cases hc : catalog.contains markerKey <;> by_cases hk : key = markerKey <;>
      simp_all [Fields.names]

theorem get?_added (h : markerKey ∈ diff.missing → markerKey ∉ catalog.keys) :
    Fields.get? x (catalog.added usages diff.missing)
      = if x ∈ diff.missing then some (placeholder usages x)
        else if x = markerKey ∧ diff.missing ≠ [] ∧ markerKey ∉ catalog.keys then
          some (.scalar markerText)
        else none := by
  by_cases hm : diff.missing = []
  · simp [added, hm]
  · rw [added, if_neg (by simpa using hm), Fields.get?_append, Fields.get?_map_graph]
    by_cases hc : markerKey ∈ catalog.keys
    · have hx : x ∈ diff.missing → x ≠ markerKey := fun hx he => h (he ▸ hx) hc
      by_cases hmem : x ∈ diff.missing <;> simp [contains_iff.2 hc, hmem, hc, hx]
    · by_cases hx : x = markerKey
      · simp [contains_eq_false_iff.2 hc, hx, hm, hc]
        split <;> simp
      · simp [contains_eq_false_iff.2 hc, hx, Ne.symm hx]

/-- **The repaired catalog**: the entries that stay, in their order, and then the added ones. -/
theorem entries_repaired (h : diff.Fits catalog) :
    (catalog.repaired diff usages).entries
      = catalog.entries.filter (fun field => field.1 ≠ sentinelKey ∧ field.1 ∉ unused diff)
        ++ catalog.added usages diff.missing := by
  have hnew : ∀ key ∈ diff.missing, key ∉ (catalog.erase sentinelKey).keys := fun key hkey hmem =>
    h.not_mem_of_missing key hkey (mem_keys_erase.1 hmem).2
  have hadded : (catalog.erase sentinelKey).added usages diff.missing
      = catalog.added usages diff.missing := by
    rw [added, added, contains_markerKey_erase]
  have hstay : (catalog.added usages diff.missing).filter (fun field => field.1 ∉ unused diff)
      = catalog.added usages diff.missing := by
    refine List.filter_eq_self.2 fun field hf => ?_
    have hname := (mem_names_added (h.not_mem_of_missing _)).1 (Fields.mem_names.2 ⟨field.2, hf⟩)
    rw [decide_eq_true_eq, mem_unused]
    rintro ⟨hextra, hne⟩
    rcases hname with hmissing | ⟨hmarker, -, -⟩
    · exact h.not_mem_of_missing _ hmissing (h.mem_of_extra _ hextra)
    · exact hne hmarker
  rw [repaired, entries_eraseAll, entries_marked_addPlaceholders h.nodup_missing hnew,
    List.filter_append, hadded, hstay, entries_erase, List.filter_filter]
  refine congrArg (· ++ _) (List.filter_congr fun field _ => ?_)
  rw [Bool.decide_and, Bool.and_comm]

theorem mem_keys_repaired (h : diff.Fits catalog) :
    key ∈ (catalog.repaired diff usages).keys
      ↔ (key ∈ catalog.keys ∧ key ≠ sentinelKey ∧ key ∉ unused diff) ∨ key ∈ diff.missing
        ∨ (key = markerKey ∧ diff.missing ≠ [] ∧ markerKey ∉ catalog.keys) := by
  have hold : key ∈ Fields.names (catalog.entries.filter fun field =>
        field.1 ≠ sentinelKey ∧ field.1 ∉ unused diff)
      ↔ key ∈ catalog.keys ∧ key ≠ sentinelKey ∧ key ∉ unused diff := by
    simp [Fields.mem_names, mem_keys]
  rw [keys, entries_repaired h, Fields.names_append, List.mem_append, hold,
    mem_names_added (h.not_mem_of_missing _)]

/-- **What the repaired catalog reads**: a placeholder for a missing key, nothing for an unused one,
and for any other key what was there before, a new marker apart. -/
theorem get?_repaired (h : diff.Fits catalog) (hx : x ≠ sentinelKey) :
    (catalog.repaired diff usages).get? x
      = if x ∈ diff.missing then some (placeholder usages x)
        else if x ∈ unused diff then none
        else if x = markerKey ∧ diff.missing ≠ [] ∧ markerKey ∉ catalog.keys then
          some (.scalar markerText)
        else catalog.get? x := by
  rw [get?, entries_repaired h, Fields.get?_append,
    Fields.get?_filter (fun n => decide (n ≠ sentinelKey ∧ n ∉ unused diff)),
    get?_added (h.not_mem_of_missing _)]
  by_cases hm : x ∈ diff.missing
  · have hnone : Fields.get? x catalog.entries = none :=
      get?_eq_none_iff.2 (h.not_mem_of_missing x hm)
    simp [hm, hnone]
  · by_cases hu : x ∈ unused diff
    · have hmarker : x ≠ markerKey := (mem_unused.1 hu).2
      simp [hm, hu, hmarker]
    · by_cases hnew : x = markerKey ∧ diff.missing ≠ [] ∧ markerKey ∉ catalog.keys
      · have hnone : Fields.get? x catalog.entries = none :=
          get?_eq_none_iff.2 (hnew.1 ▸ hnew.2.2)
        rw [if_neg hm, if_neg hm, if_neg hu, if_pos hnew, if_pos hnew, hnone]
        simp
      · rw [if_neg hm, if_neg hm, if_neg hu, if_neg hnew, if_neg hnew]
        simp [hx, hu, get?]

/-! ## The sentinel put back -/

theorem get?_fix (h : diff.onlyMarkerLeft = false) :
    (catalog.fix diff usages).2.get? x
      = if x = sentinelKey then some (.scalar "") else (catalog.repaired diff usages).get? x := by
  rw [fix_snd h, get?_insert]
  exact if_congr eq_comm rfl rfl

theorem sentinelKey_mem_keys_repaired (h : diff.Fits catalog) :
    sentinelKey ∈ (catalog.repaired diff usages).keys ↔ sentinelKey ∈ diff.missing := by
  rw [mem_keys_repaired h]
  simp [Ne.symm markerKey_ne_sentinelKey]

/-- **The fixed catalog ends in the sentinel** unless `""` is itself a missing key. -/
theorem entries_fix (hf : diff.Fits catalog) (h : diff.onlyMarkerLeft = false)
    (hs : sentinelKey ∉ diff.missing) :
    (catalog.fix diff usages).2.entries
      = catalog.entries.filter (fun field => field.1 ≠ sentinelKey ∧ field.1 ∉ unused diff)
        ++ catalog.added usages diff.missing ++ [(sentinelKey, .scalar "")] := by
  rw [fix_snd h, entries_insert_of_not_mem (mt (sentinelKey_mem_keys_repaired hf).1 hs),
    entries_repaired hf]

/-- A missing `""` keeps the place that its placeholder got. -/
theorem keys_fix_of_sentinelKey_mem (hf : diff.Fits catalog) (h : diff.onlyMarkerLeft = false)
    (hs : sentinelKey ∈ diff.missing) :
    (catalog.fix diff usages).2.keys = (catalog.repaired diff usages).keys := by
  rw [fix_snd h, keys_insert_of_mem ((sentinelKey_mem_keys_repaired hf).2 hs)]

end Phrasebook.Catalog
