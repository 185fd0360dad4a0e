import Phrasebook.Proofs.Drift.Repair

/-!
# Proofs/Drift/Pending — fixes do not lose the translations that wait

    { … }  ──adds keys──▸  { …, "👇": …, "a": null, "": "" }  ──fix──▸ · ──fix──▸ · ──fix──▸ ·
                                     the marker stays, whatever the later fixes look for

A fix that adds keys leaves the marker above them.  A later fix may find the marker unused, take it
for a plural key without a rule set or have it among its missing keys, and **the marker is there
afterwards in every case** (`markerKey_mem_keys_fixed`).  While the same keys are in use, the marker
is all that the next fix finds, which then leaves the catalog alone (`fixOnce_fixed`).

`KeepsPending` says this of runs of any length, and `KeepsPending.of_step` gets it from one run.
-/

namespace Phrasebook

/-- What one fix looks for: the keys in use at the time, and whether the catalog is the one of the
default locale. -/
structure FixRun where
  usages : KeyUsages
  isDefault : Bool

/-- Whether source code uses neither of the keys that a fix writes on its own account. -/
def FixRun.SparesReserved (run : FixRun) : Prop :=
  Catalog.sentinelKey ∉ run.usages.allKeys.toList ∧ Catalog.markerKey ∉ run.usages.allKeys.toList

/-! ## Runs one after the other -/

section Runs

variable {σ ρ : Type} {step : σ → FixRun → ρ × σ} {marked : σ → Prop}
  {outcome : ρ → Option FixOutcome} {fails : ρ → Prop}

/-- What runs leave one after the other. -/
def FixRun.leaves (step : σ → FixRun → ρ × σ) (state : σ) (runs : List FixRun) : σ :=
  runs.foldl (fun state run => (step state run).2) state

@[simp] theorem FixRun.leaves_nil (state : σ) : leaves step state [] = state := rfl

@[simp] theorem FixRun.leaves_cons (state : σ) (run : FixRun) (runs : List FixRun) :
    leaves step state (run :: runs) = leaves step (step state run).2 runs := rfl

/-- No sequence of fixes that starts at a state loses what waits there. -/
structure KeepsPending (step : σ → FixRun → ρ × σ) (marked : σ → Prop)
    (outcome : ρ → Option FixOutcome) (fails : ρ → Prop) (state : σ) : Prop where
  /-- A run that adds keys leaves the marker. -/
  marks : ∀ earlier run, outcome (step (FixRun.leaves step state earlier) run).1 = some .keysAdded →
    marked (step (FixRun.leaves step state earlier) run).2
  /-- A marker that is there stays for good. -/
  keeps : ∀ earlier later, marked (FixRun.leaves step state earlier) →
    marked (FixRun.leaves step state (earlier ++ later))
  /-- After a run that adds keys, any number of runs that look for the same change nothing, and
  each of them fails for want of translations. -/
  waits : ∀ earlier run count,
    outcome (step (FixRun.leaves step state earlier) run).1 = some .keysAdded → run.SparesReserved →
      let after := (step (FixRun.leaves step state earlier) run).2
      let last := step (FixRun.leaves step after (List.replicate count run)) run
      outcome last.1 = some .hasMissingTranslations ∧ fails last.1 ∧ last.2 = after

/-- The marker survives runs if it survives each of them. -/
theorem FixRun.marked_leaves (hstep : ∀ state run, marked state → marked (step state run).2)
    {state : σ} (h : marked state) (runs : List FixRun) : marked (leaves step state runs) := by
  induction runs generalizing state with
  | nil => exact h
  | cons run runs ih =>
    rw [leaves_cons]
    exact ih (hstep state run h)

/-- A run that changes nothing does so any number of times. -/
theorem FixRun.leaves_replicate {state : σ} {run : FixRun} (h : (step state run).2 = state)
    (count : Nat) : leaves step state (List.replicate count run) = state := by
  induction count with
  | zero => rfl
  | succ count ih =>
    rw [List.replicate_succ, leaves_cons, h]
    exact ih

/-- **What holds of one run holds of runs of any length.** -/
theorem KeepsPending.of_step
    (hmarks : ∀ state run, outcome (step state run).1 = some .keysAdded →
      marked (step state run).2)
    (hkeeps : ∀ state run, marked state → marked (step state run).2)
    (hwaits : ∀ state run, outcome (step state run).1 = some .keysAdded → run.SparesReserved →
      let again := step (step state run).2 run
      outcome again.1 = some .hasMissingTranslations ∧ fails again.1
        ∧ again.2 = (step state run).2)
    (state : σ) : KeepsPending step marked outcome fails state where
  marks earlier run := hmarks _ run
  keeps earlier later h := by
    rw [FixRun.leaves, List.foldl_append]
    exact FixRun.marked_leaves hkeeps h later
  waits earlier run count ho hr := by
    obtain ⟨hmissing, hfails, hsame⟩ := hwaits _ run ho hr
    intro after last
    have hstill : FixRun.leaves step after (List.replicate count run) = after :=
      FixRun.leaves_replicate hsame count
    have hlast : last = step after run := congrArg (step · run) hstill
    rw [hlast]
    exact ⟨hmissing, hfails, hsame⟩

end Runs

namespace Catalog

variable {catalog : Catalog} {usages : KeyUsages} {isDefault : Bool} {diff : CatalogDiff}
  {run : FixRun}

/-! ## One run -/

/-- One fix of a catalog: it is compared with the keys in use and patched. -/
def fixOnce (catalog : Catalog) (run : FixRun) : FixOutcome × Catalog :=
  let (diff, kept) := catalog.diff run.usages run.isDefault
  kept.fix diff run.usages

theorem fixOnce_eq (catalog : Catalog) (run : FixRun) :
    catalog.fixOnce run
      = (catalog.kept run.usages).fix (catalog.diff run.usages run.isDefault).1 run.usages := rfl

theorem fixOnce_snd (catalog : Catalog) (run : FixRun) :
    (catalog.fixOnce run).2 = catalog.fixed run.usages run.isDefault := rfl

theorem onlyMarkerLeft_eq_false_of_missing (h : diff.missing ≠ []) :
    diff.onlyMarkerLeft = false := by
  rw [← Bool.not_eq_true, onlyMarkerLeft_iff]
  exact fun hleft => h hleft.1

theorem fix_fst_eq_keysAdded_iff :
    (catalog.fix diff usages).1 = .keysAdded ↔ diff.missing ≠ [] := by
  by_cases hm : diff.onlyMarkerLeft = true
  · rw [fix_of_onlyMarkerLeft hm]
    simp [(onlyMarkerLeft_iff.1 hm).1]
  · have houtcome : ∀ added removed : Bool,
        (if added then FixOutcome.keysAdded
          else if removed then .translationsFixed else .upToDate) = .keysAdded ↔ added = true := by
      decide
    rw [fix, if_neg hm]
    exact (houtcome _ _).trans (by simp)

/-- **Keys are added below a marker.** -/
theorem markerKey_mem_keys_fixed_of_missing
    (h : (catalog.diff usages isDefault).1.missing ≠ []) :
    markerKey ∈ (catalog.fixed usages isDefault).keys := by
  have hm := onlyMarkerLeft_eq_false_of_missing h
  rw [fixed, fix_snd hm, mem_keys_insert, mem_keys_repaired fits_diff]
  by_cases hkept : markerKey ∈ (catalog.kept usages).keys
  · exact .inr (.inl ⟨hkept, markerKey_ne_sentinelKey, markerKey_not_mem_unused⟩)
  · exact .inr (.inr (.inr ⟨rfl, h, hkept⟩))

/-- **A fix keeps the marker.**  If it takes the marker out as a plural key without a rule set, the
marker is a missing key and comes back. -/
theorem markerKey_mem_keys_fixed (h : markerKey ∈ catalog.keys) :
    markerKey ∈ (catalog.fixed usages isDefault).keys := by
  by_cases hmissing : (catalog.diff usages isDefault).1.missing = []
  · have hkept : markerKey ∈ (catalog.kept usages).keys := by
      rwa [kept_of_missing_eq_nil hmissing]
    rcases hm : (catalog.diff usages isDefault).1.onlyMarkerLeft with _ | _
    · rw [fixed, fix_snd hm, mem_keys_insert, mem_keys_repaired fits_diff]
      exact .inr (.inl ⟨hkept, markerKey_ne_sentinelKey, markerKey_not_mem_unused⟩)
    · rwa [fixed, fix_of_onlyMarkerLeft hm]
  · exact markerKey_mem_keys_fixed_of_missing hmissing

/-- **After keys were added, the marker is all that is left.** -/
theorem onlyMarkerLeft_diff_fixed (h : (catalog.diff usages isDefault).1.missing ≠ [])
    (hs : sentinelKey ∉ usages.allKeys.toList) (hmarker : markerKey ∉ usages.allKeys.toList) :
    ((catalog.fixed usages isDefault).diff usages isDefault).1.onlyMarkerLeft = true := by
  have hm := onlyMarkerLeft_eq_false_of_missing h
  obtain ⟨entry, hget⟩ : ∃ entry, (catalog.fixed usages isDefault).get? markerKey = some entry :=
    Option.isSome_iff_exists.1 (contains_iff.2 (markerKey_mem_keys_fixed_of_missing h))
  rw [KeyUsages.mem_allKeys, not_or] at hmarker
  have hextra : markerKey ∈ ((catalog.fixed usages isDefault).diff usages isDefault).1.extra := by
    change markerKey ∈ ((catalog.fixed usages isDefault).kept usages).extraKeys usages isDefault
    rw [kept_fixed hs hm, mem_extraKeys]
    exact ⟨markerKey_ne_sentinelKey, entry, hget, by simp [serves, hmarker]⟩
  refine onlyMarkerLeft_iff.2 ⟨missing_fixed hs hm, ?_⟩
  rcases extra_fixed hs hm with hnone | hone
  · rw [hnone] at hextra
    exact absurd hextra List.not_mem_nil
  · exact hone

/-- **A fix after keys were added leaves the catalog alone.** -/
theorem fixOnce_fixed (h : (catalog.diff run.usages run.isDefault).1.missing ≠ [])
    (hr : run.SparesReserved) :
    (catalog.fixed run.usages run.isDefault).fixOnce run
      = (.hasMissingTranslations, catalog.fixed run.usages run.isDefault) := by
  rw [fixOnce_eq, fix_of_onlyMarkerLeft (onlyMarkerLeft_diff_fixed h hr.1 hr.2),
    kept_fixed hr.1 (onlyMarkerLeft_eq_false_of_missing h)]

end Catalog

end Phrasebook
