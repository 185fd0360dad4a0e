import Phrasebook.Resolution
import Phrasebook.Proofs.Drift.Repair

/-!
# Proofs/Resolution/Preserved — a fix changes no call site that was answered

A scalar call site shows the fallback for a key that is absent and for one that waits for its
translation, so the two can be exchanged: a fix adds the one in the place of the other and, in the
default locale, takes it out again.  An entry that serves its key stays as it is.  Keys used both
ways are left to their plural call sites, which count as answered where they have a rule set.
-/

namespace Phrasebook.Catalog

variable {catalog other : Catalog} {usages : KeyUsages} {isDefault : Bool} {key : String}
  {entry : Entry} {template : Template}

/-! ## What a call site sees of a catalog -/

/-- The catalog has no translation at the key: no entry, or one that waits for it. -/
def Waits (catalog : Catalog) (key : String) : Prop :=
  catalog.get? key = none ∨ catalog.get? key = some .null

/-- **A key without translation shows the fallback.** -/
theorem Waits.resolveScalar (h : catalog.Waits template.key) (arguments : List String) :
    catalog.resolveScalar template arguments = .ok (template.fallback arguments) := by
  rw [Catalog.resolveScalar]
  rcases h with h | h <;> rw [h]

theorem resolveScalar_congr (h : other.get? template.key = catalog.get? template.key)
    (arguments : List String) :
    other.resolveScalar template arguments = catalog.resolveScalar template arguments := by
  rw [resolveScalar, resolveScalar, h]

theorem resolvePlural_congr (h : other.get? template.key = catalog.get? template.key)
    (count : Int) (arguments : List String) :
    other.resolvePlural template count arguments
      = catalog.resolvePlural template count arguments := by
  rw [resolvePlural, resolvePlural, h]

/-! ## What a fix leaves alone -/

theorem fixed_of_onlyMarkerLeft (h : (catalog.diff usages isDefault).1.onlyMarkerLeft = true) :
    catalog.fixed usages isDefault = catalog.kept usages := by rw [fixed, fix_of_onlyMarkerLeft h]

/-- **An entry that serves its key stays as it is.** -/
theorem get?_fixed_of_serves (hk : key ≠ sentinelKey) (hget : catalog.get? key = some entry)
    (hstays : stays usages key entry = true)
    (hserves : serves usages isDefault key entry = true) :
    (catalog.fixed usages isDefault).get? key = some entry := by
  have hkept : (catalog.kept usages).get? key = some entry :=
    get?_kept_eq_some_iff.2 ⟨hget, hstays⟩
  have hmem : key ∈ (catalog.kept usages).keys := mem_keys_of_get? hkept
  cases hm : (catalog.diff usages isDefault).1.onlyMarkerLeft with
  | true => rw [fixed_of_onlyMarkerLeft hm, hkept]
  | false =>
    have hmissing : key ∉ (catalog.diff usages isDefault).1.missing := fun h =>
      (mem_missing.1 h).2 hmem
    have hunused : key ∉ unused (catalog.diff usages isDefault).1 := by
      intro h
      obtain ⟨-, found, hfound, hnot⟩ := mem_extraKeys.1 (mem_unused.1 h).1
      obtain rfl : entry = found := Option.some.inj (hkept.symm.trans hfound)
      rw [hserves] at hnot
      cases hnot
    have hmarker : ¬(key = markerKey ∧ (catalog.diff usages isDefault).1.missing ≠ []
        ∧ markerKey ∉ (catalog.kept usages).keys) := fun h => h.2.2 (h.1 ▸ hmem)
    rw [fixed, get?_fix hm, if_neg hk, get?_repaired fits_diff hk, if_neg hmissing,
      if_neg hunused, if_neg hmarker, hkept]

/-- **A scalar key without translation has none after a fix.** -/
theorem Waits.fixed (h : catalog.Waits key) (hk : key ≠ sentinelKey) (hmarker : key ≠ markerKey)
    (hp : usages.isPlural key = false) : (catalog.fixed usages isDefault).Waits key := by
  have hkept : ∀ {entry}, (catalog.kept usages).get? key = some entry → entry = .null := by
    intro entry hget
    rcases h with h | h <;> rw [(get?_kept_eq_some_iff.1 hget).1] at h
    · cases h
    · exact Option.some.inj h
  cases hget : (catalog.fixed usages isDefault).get? key with
  | none => exact .inl hget
  | some entry =>
    refine .inr (hget.trans (congrArg some ?_))
    cases hm : (catalog.diff usages isDefault).1.onlyMarkerLeft with
    | true =>
      rw [fixed_of_onlyMarkerLeft hm] at hget
      exact hkept hget
    | false =>
      rcases get?_fixed_cases hm hk hget with ⟨-, rfl⟩ | ⟨he, -⟩ | ⟨-, hget⟩
      · rw [placeholder, hp]
        rfl
      · exact absurd he hmarker
      · exact hkept hget

/-- A scalar key waits or has an entry that serves it. -/
theorem waits_or_serves (hs : usages.isScalar key = true) :
    catalog.Waits key
      ∨ ∃ entry, catalog.get? key = some entry ∧ serves usages isDefault key entry = true := by
  cases hget : catalog.get? key with
  | none => exact .inl (.inl hget)
  | some entry =>
    cases hnull : entry.isNull with
    | true =>
      cases entry with
      | null => exact .inl (.inr hget)
      | _ => cases hnull
    | false => exact .inr ⟨entry, rfl, by simp [serves, hs, hnull]⟩

/-! ## Call sites -/

/-- **A fix changes nothing that a call site shows** if the site's key is used as scalar only, or is
used as plural and has a rule set: neither the text nor the error, for any slot values and count. -/
theorem resolve_fixed (catalog : Catalog) (usages : KeyUsages) (isDefault : Bool)
    (template : Template) (arguments : List String) (count : Int)
    (hk : template.key ≠ sentinelKey) (hmarker : template.key ≠ markerKey) :
    let result := catalog.diff usages isDefault
    let patched := (result.2.fix result.1 usages).2
    (usages.isScalar template.key = true → usages.isPlural template.key = false →
        patched.resolveScalar template arguments = catalog.resolveScalar template arguments)
      ∧ (usages.isPlural template.key = true →
          (∃ rules, catalog.get? template.key = some (.plural rules)) →
          patched.resolvePlural template count arguments
            = catalog.resolvePlural template count arguments) := by
  change (_ → _ → (catalog.fixed usages isDefault).resolveScalar template arguments = _)
    ∧ (_ → _ → (catalog.fixed usages isDefault).resolvePlural template count arguments = _)
  refine ⟨fun hs hp => ?_, fun hp ⟨rules, hget⟩ => ?_⟩
  · have hcases : catalog.Waits template.key
        ∨ ∃ entry, catalog.get? template.key = some entry
          ∧ serves usages isDefault template.key entry = true := waits_or_serves hs
    rcases hcases with hwaits | ⟨entry, hget, hserves⟩
    · rw [hwaits.resolveScalar, (hwaits.fixed hk hmarker hp).resolveScalar]
    · have hsame := get?_fixed_of_serves hk hget (by simp [stays, hp]) hserves
      exact resolveScalar_congr (hsame.trans hget.symm) arguments
  · have hserves : serves usages isDefault template.key (.plural rules) = true := by
      simp [serves, hp, Entry.isPlural]
    have hsame := get?_fixed_of_serves hk hget (by simp [stays, Entry.isPlural]) hserves
    exact resolvePlural_congr (hsame.trans hget.symm) count arguments

/-- In the default locale a redundant `null` goes, and its call site shows the fallback as before; a
rule set between unused keys stays. -/
theorem resolve_fixed_redundant :
    let catalog : Catalog :=
      ⟨[("Hi {1}", .null), ("old", .scalar "x"), ("# items", .plural PluralRules.skeleton)],
        by decide +kernel⟩
    let usages : KeyUsages := { scalar := .ofList ["Hi {1}"], plural := .ofList ["# items"] }
    let patched := catalog.fixed usages true
    patched.keys = ["# items", ""]
      ∧ patched.resolveScalar (.ofSegments ["Hi ", ""]) ["Ada"]
          = catalog.resolveScalar (.ofSegments ["Hi ", ""]) ["Ada"]
      ∧ patched.resolvePlural (.ofSegments ["# items"]) 3 []
          = catalog.resolvePlural (.ofSegments ["# items"]) 3 [] :=
  ⟨by decide +kernel,
    (resolve_fixed _ _ true (.ofSegments ["Hi ", ""]) ["Ada"] 0 (by decide +kernel)
      (by decide +kernel)).1 (by decide +kernel) (by decide +kernel),
    (resolve_fixed _ _ true (.ofSegments ["# items"]) [] 3 (by decide +kernel)
      (by decide +kernel)).2 (by decide +kernel) ⟨PluralRules.skeleton, by decide +kernel⟩⟩

end Phrasebook.Catalog
