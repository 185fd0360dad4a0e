import Phrasebook.Proofs.Catalog.Text
import Phrasebook.Proofs.Drift.Repair

/-!
# Proofs/Drift/Stable — fixing a fixed catalog does nothing

A fixed catalog has at most its marker to lose.  If it has, a second fix keeps its hands off it; if
not, a second fix takes the sentinel from the end and puts it back there.  A fix adds canonical
entries alone, so what it makes of a catalog that was read can be read again.
-/

namespace Phrasebook.Catalog

variable {catalog : Catalog} {usages : KeyUsages} {isDefault : Bool} {p : Json.Number → Prop}

/-! ## Canonical entries -/

theorem canonical_placeholder (hp : p (.whole 50)) (key : String) :
    (placeholder usages key).Canonical p := by
  rw [placeholder]
  split
  · exact Entry.canonical_skeleton hp
  · exact Entry.canonical_null

theorem canonical_addPlaceholders (hp : p (.whole 50)) (h : catalog.Canonical p)
    (keys : List String) : (catalog.addPlaceholders usages keys).Canonical p := by
  induction keys generalizing catalog with
  | nil => exact h
  | cons key keys ih => exact ih (canonical_insert h (canonical_placeholder hp key))

/-- **A fix of a canonical catalog is canonical**, whatever diff it applies. -/
theorem canonical_fix (hp : p (.whole 50)) (h : catalog.Canonical p) (diff : CatalogDiff) :
    (catalog.fix diff usages).2.Canonical p := by
  cases hm : diff.onlyMarkerLeft with
  | true =>
    rw [fix_of_onlyMarkerLeft hm]
    exact h
  | false =>
    have hopen : (catalog.erase sentinelKey).Canonical p := canonical_erase h sentinelKey
    have hmarked : (if diff.missing.isEmpty then catalog.erase sentinelKey
        else (catalog.erase sentinelKey).withMarker).Canonical p := by
      split
      · exact hopen
      · rw [withMarker]
        split
        · exact hopen
        · exact canonical_insert hopen (Entry.canonical_scalar markerText)
    rw [fix_snd hm, repaired]
    exact canonical_insert
      (canonical_eraseAll (canonical_addPlaceholders hp hmarked diff.missing) (unused diff))
      (Entry.canonical_scalar "")

/-- **A fixed catalog is canonical** if the catalog was. -/
theorem canonical_fixed (hp : p (.whole 50)) (h : catalog.Canonical p) :
    (catalog.fixed usages isDefault).Canonical p :=
  canonical_fix hp (canonical_eraseAll h _) (catalog.diff usages isDefault).1

/-! ## The second fix -/

/-- A catalog that ends in its sentinel keeps its place when that is moved to the end. -/
theorem insert_erase_sentinelKey {front : List (String × Entry)}
    (h : catalog.entries = front ++ [(sentinelKey, .scalar "")]) :
    (catalog.erase sentinelKey).insert sentinelKey (.scalar "") = catalog := by
  have hd : (Fields.names front ++ [sentinelKey]).Nodup := by
    have hnames : catalog.keys = Fields.names front ++ [sentinelKey] := by
      rw [keys, h, Fields.names_append]
      rfl
    exact hnames ▸ catalog.distinct
  have hnew : ∀ field ∈ front, field.1 ≠ sentinelKey := fun field hf =>
    (List.nodup_append.1 hd).2.2 field.1 (Fields.mem_names.2 ⟨field.2, hf⟩) sentinelKey (by simp)
  have hnot : sentinelKey ∉ (catalog.erase sentinelKey).keys := fun hmem =>
    (mem_keys_erase.1 hmem).1 rfl
  refine ext_entries ?_
  rw [entries_insert_of_not_mem hnot, entries_erase, h, List.filter_append,
    List.filter_eq_self.2 fun field hf => by simpa using hnew field hf]
  simp

/-- **Fixing a fixed catalog does nothing**: it is up to date, or still waits for translations. -/
theorem fix_diff_fixed (hs : sentinelKey ∉ usages.allKeys.toList)
    (hm : (catalog.diff usages isDefault).1.onlyMarkerLeft = false) :
    let patched := catalog.fixed usages isDefault
    let again := patched.diff usages isDefault
    again.2.fix again.1 usages = (.upToDate, patched)
      ∨ again.2.fix again.1 usages = (.hasMissingTranslations, patched) := by
  intro patched again
  have hmissing : again.1.missing = [] := missing_fixed hs hm
  have hkept : again.2 = patched := kept_fixed hs hm
  rcases extra_fixed hs hm with hextra | hextra
  · have hopen : again.1.onlyMarkerLeft = false := by
      simp [CatalogDiff.onlyMarkerLeft, again, patched, hextra]
    have hinvalid : again.1.invalidPlural = [] := invalidPlurals_fixed hs hm
    have hback : (patched.erase sentinelKey).insert sentinelKey (.scalar "") = patched :=
      insert_erase_sentinelKey (entries_fix fits_diff hm (sentinelKey_not_mem_missing hs))
    have hnone : again.1.extra = [] := hextra
    left
    rw [fix, if_neg (by simp [hopen])]
    simp [hmissing, hinvalid, hnone, hkept, addPlaceholders, eraseAll_nil, hback]
  · right
    rw [fix_of_onlyMarkerLeft (onlyMarkerLeft_iff.2 ⟨hmissing, hextra⟩), hkept]

end Phrasebook.Catalog
