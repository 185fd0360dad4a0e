import Phrasebook.Resolution
import Phrasebook.Proofs.Drift.Stable

/-!
# Proofs/Resolution — which catalogs answer every call site

A call site is answered by no entry, an empty one or one of its kind.  `Catalog.Answers` says so for
every used key but `""`.  A diff that lists nothing of the wrong kind shows it, a fix keeps it, and
numbers do not matter for it.
-/

namespace Phrasebook.Catalog

variable {catalog : Catalog} {usages : KeyUsages} {isDefault : Bool}

/-- No entry of a used key is of the wrong kind. -/
structure Answers (catalog : Catalog) (usages : KeyUsages) : Prop where
  scalar : ∀ {key entry}, key ≠ sentinelKey → usages.isScalar key = true →
    catalog.get? key = some entry → refusesScalar entry = false
  plural : ∀ {key entry}, key ≠ sentinelKey → usages.isPlural key = true →
    catalog.get? key = some entry → entry.isPlural = true

/-! ## Call sites -/

/-- **Scalar call sites are answered.** -/
theorem Answers.resolveScalar (h : catalog.Answers usages) {template : Template}
    (hkey : template.key ≠ sentinelKey) (hused : usages.isScalar template.key = true)
    (arguments : List String) : ∃ text, catalog.resolveScalar template arguments = .ok text := by
  rw [Catalog.resolveScalar]
  cases hget : catalog.get? template.key with
  | none => exact ⟨_, rfl⟩
  | some entry =>
    have hserves := h.scalar hkey hused hget
    cases entry with
    | scalar text => exact ⟨_, rfl⟩
    | null => exact ⟨_, rfl⟩
    | plural rules => cases hserves
    | invalid value => cases hserves

/-- **Plural call sites are answered.** -/
theorem Answers.resolvePlural (h : catalog.Answers usages) {template : Template}
    (hkey : template.key ≠ sentinelKey) (hused : usages.isPlural template.key = true)
    (count : Int) (arguments : List String) :
    ∃ text, catalog.resolvePlural template count arguments = .ok text := by
  rw [Catalog.resolvePlural]
  cases hget : catalog.get? template.key with
  | none => exact ⟨_, rfl⟩
  | some entry =>
    have hserves := h.plural hkey hused hget
    cases entry with
    | plural rules =>
      dsimp only
      split
      · exact ⟨_, rfl⟩
      · exact ⟨_, rfl⟩
    | scalar text => cases hserves
    | null => cases hserves
    | invalid value => cases hserves

/-! ## Where answers come from -/

/-- Usages none of whose keys is used both ways. -/
def Unambiguous (usages : KeyUsages) : Prop :=
  ∀ key, usages.isScalar key = true → usages.isPlural key = false

theorem unambiguous_of_ambiguousKeys (h : usages.ambiguousKeys.toList = []) :
    Unambiguous usages := by
  intro key hs
  cases hp : usages.isPlural key with
  | false => rfl
  | true =>
    have hmem : key ∈ usages.ambiguousKeys.toList := KeyUsages.mem_ambiguousKeys.2 ⟨hs, hp⟩
    rw [h] at hmem
    cases hmem

/-- **A diff without wrong kinds shows that the catalog answers.** -/
theorem answers_of_diff (hu : Unambiguous usages)
    (hinvalid : (catalog.diff usages isDefault).1.invalidPlural = [])
    (hmismatch : (catalog.diff usages isDefault).1.kindMismatch = []) :
    catalog.Answers usages where
  scalar {key entry} hkey hs hget := by
    cases hrefuses : refusesScalar entry with
    | false => rfl
    | true =>
      have hget' : (catalog.kept usages).get? key = some entry := by
        rw [kept_of_invalidPlurals_eq_nil hinvalid]
        exact hget
      have hmem : key ∈ (catalog.diff usages isDefault).1.kindMismatch :=
        mem_mismatchedKeys.2 ⟨hkey, hs, hu key hs, entry, hget', hrefuses⟩
      rw [hmismatch] at hmem
      cases hmem
  plural {key entry} _ hp hget := by
    cases hrules : entry.isPlural with
    | true => rfl
    | false =>
      have hmem : key ∈ (catalog.diff usages isDefault).1.invalidPlural :=
        mem_invalidPlurals.2 ⟨hp, entry, hget, hrules⟩
      rw [hinvalid] at hmem
      cases hmem

/-- **A fix keeps the answers**, since what it adds is of the right kind. -/
theorem Answers.fixed (h : catalog.Answers usages) (hu : Unambiguous usages)
    (hm : (catalog.diff usages isDefault).1.onlyMarkerLeft = false) :
    (catalog.fixed usages isDefault).Answers usages where
  scalar {key entry} hkey hs hget := by
    rcases get?_fixed_cases hm hkey hget with ⟨-, rfl⟩ | ⟨-, -, -, rfl⟩ | ⟨-, hkept⟩
    · rw [placeholder, hu key hs]
      rfl
    · rfl
    · exact h.scalar hkey hs (get?_kept_eq_some_iff.1 hkept).1
  plural {key entry} hkey hp hget := by
    rcases get?_fixed_cases hm hkey hget with ⟨-, rfl⟩ | ⟨-, hmissing, hnew, -⟩ | ⟨-, hkept⟩
    · rw [placeholder, if_pos hp]
      rfl
    · exact absurd (mem_missing.2 ⟨.inl hp, hnew⟩) hmissing
    · exact h.plural hkey hp (get?_kept_eq_some_iff.1 hkept).1

/-- Answers do not depend on numbers. -/
theorem Answers.mapNumbers (h : catalog.Answers usages) (f : Json.Number → Json.Number) :
    (catalog.mapNumbers f).Answers usages where
  scalar hkey hs hget := by
    rw [get?_mapNumbers] at hget
    obtain ⟨entry, hentry, rfl⟩ := Option.map_eq_some_iff.1 hget
    have hserves := h.scalar hkey hs hentry
    cases entry with
    | scalar text => rfl
    | null => rfl
    | plural rules => cases hserves
    | invalid value => cases hserves
  plural hkey hp hget := by
    rw [get?_mapNumbers] at hget
    obtain ⟨entry, hentry, rfl⟩ := Option.map_eq_some_iff.1 hget
    have hserves := h.plural hkey hp hentry
    cases entry with
    | plural rules => rfl
    | scalar text => cases hserves
    | null => cases hserves
    | invalid value => cases hserves

end Phrasebook.Catalog
