import Phrasebook.Proofs.Drift.Repair

/-!
# Proofs/Drift/Effect — exactly what a fix writes

    remaining entries ++ marker ++ placeholders ++ sentinel

`entries_fix` describes a fixed catalog through the catalog that the diff leaves.  Here it is read
off the catalog as it was loaded, for usages that do not ask for `""`: what remains keeps its order
and its entries, and all that is new stands below it.
-/

namespace Phrasebook.Catalog

variable {catalog : Catalog} {usages : KeyUsages} {isDefault : Bool} {diff : CatalogDiff}

/-- The entries that a fix leaves in their places: all but the sentinel, the plural keys without a
rule set and the extra keys other than the marker. -/
def remaining (catalog : Catalog) (diff : CatalogDiff) : List (String × Entry) :=
  catalog.entries.filter fun field =>
    field.1 ≠ sentinelKey ∧ field.1 ∉ diff.invalidPlural
      ∧ (field.1 ∈ diff.extra → field.1 = markerKey)

/-- The marker that a fix puts above the keys it adds: it is needed if there are such keys and no
marker remains.  A marker that is itself a missing key gets the placeholder of that key. -/
def newMarker (catalog : Catalog) (diff : CatalogDiff) (usages : KeyUsages) :
    List (String × Entry) :=
  if diff.missing = [] ∨ markerKey ∈ Fields.names (catalog.remaining diff) then []
  else [(markerKey,
    if markerKey ∈ diff.missing then placeholder usages markerKey else .scalar markerText)]

theorem entries_kept_filter :
    (catalog.kept usages).entries.filter (fun field =>
        field.1 ≠ sentinelKey ∧ field.1 ∉ unused (catalog.diff usages isDefault).1)
      = catalog.remaining (catalog.diff usages isDefault).1 := by
  rw [kept, entries_eraseAll, List.filter_filter, remaining]
  refine List.filter_congr fun field _ => ?_
  have hinvalid : (catalog.diff usages isDefault).1.invalidPlural
      = catalog.invalidPlurals usages := rfl
  rw [← Bool.decide_and, decide_eq_decide, hinvalid, mem_unused, not_and, not_not, and_assoc]
  exact and_congr_right fun _ => and_comm

/-- The marker remains if the diff leaves it. -/
theorem markerKey_mem_names_remaining :
    markerKey ∈ Fields.names (catalog.remaining (catalog.diff usages isDefault).1)
      ↔ markerKey ∈ (catalog.kept usages).keys := by
  rw [← entries_kept_filter, Fields.mem_names, mem_keys]
  refine exists_congr fun entry => ?_
  simp [markerKey_not_mem_unused, markerKey_ne_sentinelKey]

theorem added_eq_newMarker :
    (catalog.kept usages).added usages (catalog.diff usages isDefault).1.missing
      = catalog.newMarker (catalog.diff usages isDefault).1 usages
        ++ ((catalog.diff usages isDefault).1.missing.filter (· ≠ markerKey)).map fun key =>
            (key, placeholder usages key) := by
  rw [added, newMarker]
  by_cases hm : (catalog.diff usages isDefault).1.missing = []
  · simp [hm]
  · cases hc : (catalog.kept usages).contains markerKey <;>
      simp [hm, markerKey_mem_names_remaining, ← contains_iff, hc]

/-- **Exactly what a fix writes.**  Unless only the marker was left, the fixed catalog has the
remaining entries in their order, then the marker if keys are added and it is not among those, then
a placeholder for each other missing key in increasing order, and at the end the sentinel; no key
stands twice. -/
theorem entries_fixed_eq (catalog : Catalog) (usages : KeyUsages) (isDefault : Bool)
    (hs : sentinelKey ∉ usages.allKeys.toList)
    (ho : ((catalog.diff usages isDefault).2.fix (catalog.diff usages isDefault).1 usages).1
      ≠ .hasMissingTranslations) :
    let diff := (catalog.diff usages isDefault).1
    let patched := ((catalog.diff usages isDefault).2.fix diff usages).2
    patched.entries
        = catalog.remaining diff ++ catalog.newMarker diff usages
          ++ ((diff.missing.filter (· ≠ markerKey)).map fun key =>
              (key, if usages.isPlural key then .plural PluralRules.skeleton else .null))
          ++ [(sentinelKey, .scalar "")]
      ∧ diff.missing.Pairwise (· < ·) ∧ patched.keys.Nodup := by
  intro diff patched
  have hm : (catalog.diff usages isDefault).1.onlyMarkerLeft = false := by
    simpa [fix_fst_eq_hasMissingTranslations_iff] using ho
  refine ⟨?_, pairwise_missing, patched.distinct⟩
  have hentries : patched.entries
      = (catalog.kept usages).entries.filter
            (fun field => field.1 ≠ sentinelKey ∧ field.1 ∉ unused diff)
          ++ (catalog.kept usages).added usages diff.missing ++ [(sentinelKey, .scalar "")] :=
    entries_fix fits_diff hm (sentinelKey_not_mem_missing hs)
  rw [hentries, entries_kept_filter, added_eq_newMarker, ← List.append_assoc]
  rfl

/-- A catalog that loses an unused key and a scalar at a plural key, gets the marker and two
placeholders, and has its sentinel moved. -/
theorem entries_fixed_eq_every_step :
    let catalog : Catalog :=
      ⟨[("", .scalar ""), ("b", .scalar "B"), ("old", .null), ("# p", .scalar "y"),
        ("a", .scalar "A")], by decide +kernel⟩
    let usages : KeyUsages := { scalar := .ofList ["b", "a", "z"], plural := .ofList ["# p"] }
    sentinelKey ∉ usages.allKeys.toList
      ∧ ((catalog.diff usages false).2.fix (catalog.diff usages false).1 usages).1
          ≠ .hasMissingTranslations
      ∧ ((catalog.diff usages false).2.fix (catalog.diff usages false).1 usages).2.entries
          = [("b", .scalar "B"), ("a", .scalar "A"), (markerKey, .scalar markerText),
              ("# p", .plural PluralRules.skeleton), ("z", .null), ("", .scalar "")] :=
  ⟨by decide +kernel, by decide +kernel,
    (entries_fixed_eq _ _ false (by decide +kernel) (by decide +kernel)).1.trans
      (by decide +kernel)⟩

end Phrasebook.Catalog
