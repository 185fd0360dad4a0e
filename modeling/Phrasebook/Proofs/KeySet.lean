import Phrasebook.Usage

/-!
# Proofs/KeySet — membership in sets of keys

Each operation on key sets through `contains`, and the order in which a set lists its keys.
-/

namespace Phrasebook

namespace KeySet

variable {set a b : KeySet} {key x : String}

theorem contains_iff : set.contains key = true ↔ key ∈ set.toList := List.contains_iff_mem

theorem nodup_toList : set.toList.Nodup := by
  refine set.sorted.imp fun hlt he => ?_
  subst he
  exact String.lt_irrefl _ hlt

theorem mem_insert : x ∈ (set.insert key).toList ↔ x = key ∨ x ∈ set.toList := mem_place

theorem mem_foldl_insert {keys : List String} :
    x ∈ (keys.foldl insert set).toList ↔ x ∈ set.toList ∨ x ∈ keys := by
  induction keys generalizing set with
  | nil => simp
  | cons key keys ih =>
    rw [List.foldl_cons, ih, mem_insert, List.mem_cons]
    grind

theorem mem_union : x ∈ (a.union b).toList ↔ x ∈ a.toList ∨ x ∈ b.toList := mem_foldl_insert

theorem mem_inter : x ∈ (a.inter b).toList ↔ x ∈ a.toList ∧ x ∈ b.toList := by
  rw [inter, List.mem_filter, contains_iff]

/-- **A set lists the empty text first.** -/
theorem toList_eq_cons_of_empty_mem (h : "" ∈ set.toList) : ∃ rest, set.toList = "" :: rest := by
  cases hl : set.toList with
  | nil => simp [hl] at h
  | cons first rest =>
    rcases List.mem_cons.1 (hl ▸ h) with rfl | hmem
    · exact ⟨rest, rfl⟩
    · have hlt : first < "" := (List.pairwise_cons.1 (hl ▸ set.sorted)).1 _ hmem
      exact absurd (String.lt_iff.1 hlt) (List.not_lt_nil _)

end KeySet

namespace KeyUsages

variable {usages : KeyUsages} {key : String}

theorem mem_allKeys : key ∈ usages.allKeys.toList ↔ usages.isScalar key ∨ usages.isPlural key := by
  rw [allKeys, KeySet.mem_union, isScalar, isPlural, KeySet.contains_iff, KeySet.contains_iff]

theorem mem_ambiguousKeys :
    key ∈ usages.ambiguousKeys.toList ↔ usages.isScalar key ∧ usages.isPlural key := by
  rw [ambiguousKeys, KeySet.mem_inter, isScalar, isPlural, KeySet.contains_iff,
    KeySet.contains_iff]

theorem mem_allKeys_add {usage : Usage} :
    key ∈ (usages.add usage).allKeys.toList ↔ key = usage.key ∨ key ∈ usages.allKeys.toList := by
  rw [mem_allKeys, mem_allKeys, add]
  cases usage.kind
  all_goals
    simp only [isScalar, isPlural, KeySet.contains_iff, KeySet.mem_insert]
    grind

theorem mem_allKeys_foldl_add {list : List Usage} :
    key ∈ (list.foldl add usages).allKeys.toList ↔
      key ∈ usages.allKeys.toList ∨ ∃ usage ∈ list, usage.key = key := by
  induction list generalizing usages with
  | nil => simp
  | cons usage list ih =>
    rw [List.foldl_cons, ih, mem_allKeys_add]
    grind

/-- **The keys of a list of usages are the key of each of them.** -/
theorem mem_allKeys_ofList {list : List Usage} :
    key ∈ (ofList list).allKeys.toList ↔ ∃ usage ∈ list, usage.key = key := by
  rw [ofList, mem_allKeys_foldl_add, or_iff_right]
  simp [allKeys, empty, KeySet.union, KeySet.empty]

theorem ofList_eq_empty_iff {list : List Usage} : ofList list = empty ↔ list = [] := by
  refine ⟨fun h => ?_, by rintro rfl; rfl⟩
  cases list with
  | nil => rfl
  | cons usage list =>
    have hmem : usage.key ∈ (ofList (usage :: list)).allKeys.toList :=
      mem_allKeys_ofList.mpr ⟨usage, List.mem_cons_self, rfl⟩
    rw [h] at hmem
    simp [allKeys, empty, KeySet.union, KeySet.empty] at hmem

end KeyUsages

end Phrasebook
