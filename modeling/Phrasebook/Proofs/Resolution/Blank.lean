import Phrasebook.Proofs.Resolution.Preserved

/-!
# Proofs/Resolution/Blank — no call site shows nothing

    entry ──tier──▸ text ──count──▸ text ──slots──▸ text      "" behind any arrow ──▸ fallback

A text can be empty in the catalog, or become empty when its slots are filled, and a rule set can
have no text for a count.  In each case the call site shows its fallback, so **it shows the empty
text only where the fallback is empty**; and **a key that holds no text shows what an empty catalog
shows** (`resolve_blank`).
-/

namespace Phrasebook

theorem orElseText_eq_empty_iff {text fallback : String} :
    orElseText text fallback = "" ↔ text = "" ∧ fallback = "" := by
  rw [orElseText]
  split <;> simp [*]

theorem fillSlots_empty (arguments : List String) : fillSlots "" arguments = "" := by
  rw [fillSlots]
  split <;> rfl

namespace Catalog

variable {catalog : Catalog} {template : Template} {arguments : List String} {count : Int}
  {key : String}

/-! ## Call sites that show the empty text -/

theorem fallback_eq_empty_of_resolveScalar
    (h : catalog.resolveScalar template arguments = .ok "") : template.fallback arguments = "" := by
  rw [resolveScalar] at h
  cases hget : catalog.get? template.key with
  | none =>
    rw [hget] at h
    exact Except.ok.inj h
  | some entry =>
    rw [hget] at h
    cases entry with
    | null => exact Except.ok.inj h
    | scalar text => exact (orElseText_eq_empty_iff.1 (Except.ok.inj h)).2
    | plural rules => cases h
    | invalid value => cases h

theorem fallback_eq_empty_of_resolvePlural {shown : PluralText}
    (h : catalog.resolvePlural template count arguments = .ok shown) (hempty : shown.text = "") :
    template.fallback arguments = "" := by
  rw [resolvePlural] at h
  cases hget : catalog.get? template.key with
  | none =>
    rw [hget] at h
    obtain rfl := Except.ok.inj h
    exact hempty
  | some entry =>
    rw [hget] at h
    cases entry with
    | null =>
      obtain rfl := Except.ok.inj h
      exact hempty
    | scalar text =>
      dsimp only at h
      split at h
      · obtain rfl := Except.ok.inj h
        exact hempty
      · cases h
    | plural rules =>
      dsimp only at h
      split at h
      · obtain rfl := Except.ok.inj h
        exact (orElseText_eq_empty_iff.1 hempty).2
      · obtain rfl := Except.ok.inj h
        exact hempty
    | invalid value => cases h

/-! ## Keys that hold no text -/

/-- The catalog holds no text at the key: no entry, one that waits for its translation, or the empty
text. -/
def Blank (catalog : Catalog) (key : String) : Prop :=
  catalog.Waits key ∨ catalog.get? key = some (.scalar "")

theorem blank_empty (key : String) : Catalog.empty.Blank key := .inl (.inl rfl)

/-- **A key that holds no text shows the fallback.** -/
theorem Blank.resolveScalar (h : catalog.Blank template.key) (arguments : List String) :
    catalog.resolveScalar template arguments = .ok (template.fallback arguments) := by
  rcases h with h | h
  · exact h.resolveScalar arguments
  · rw [Catalog.resolveScalar, h]
    dsimp only
    rw [fillSlots_empty, orElseText, if_pos rfl]

theorem Blank.resolvePlural (h : catalog.Blank template.key) (count : Int)
    (arguments : List String) :
    catalog.resolvePlural template count arguments
      = .ok { text := template.fallback arguments } := by
  rw [Catalog.resolvePlural]
  rcases h with (h | h) | h <;> rw [h]
  rfl

/-- **A call site shows the empty text only where its fallback is empty**, for either operation and
whatever the entry, the slot values and the count are; and where the catalog holds no text at the
key, it shows what it shows with an empty catalog. -/
theorem resolve_blank (catalog : Catalog) (template : Template) (arguments : List String)
    (count : Int) :
    (catalog.resolveScalar template arguments = .ok "" → template.fallback arguments = "")
      ∧ (∀ shown, catalog.resolvePlural template count arguments = .ok shown → shown.text = "" →
          template.fallback arguments = "")
      ∧ (catalog.Blank template.key →
          catalog.resolveScalar template arguments
              = Catalog.empty.resolveScalar template arguments
            ∧ catalog.resolvePlural template count arguments
              = Catalog.empty.resolvePlural template count arguments) := by
  refine ⟨fallback_eq_empty_of_resolveScalar, fun shown => fallback_eq_empty_of_resolvePlural,
    fun h => ⟨?_, ?_⟩⟩
  · rw [h.resolveScalar, (blank_empty _).resolveScalar]
  · rw [h.resolvePlural, (blank_empty _).resolvePlural]

/-- A slot value can empty the text of a rule set; then the fallback is shown, which it empties as
well.  The empty text under a key counts as none. -/
theorem resolve_blank_empty_slot :
    let slot : Template := .ofSegments ["", ""]
    let save : Template := .ofSegments ["Save"]
    let catalog : Catalog :=
      ⟨[("\x7b1\x7d", .plural { one := some "\x7b1\x7d" }), ("Save", .scalar "")],
        by decide +kernel⟩
    catalog.resolvePlural slot 1 [""] = .ok { text := "" } ∧ slot.fallback [""] = ""
      ∧ catalog.resolveScalar save [] = Catalog.empty.resolveScalar save []
      ∧ catalog.resolvePlural save 1 [] = Catalog.empty.resolvePlural save 1 [] := by
  intro slot save catalog
  have hshown : catalog.resolvePlural slot 1 [""] = .ok { text := "" } := by
    have hsome : (catalog.resolvePlural slot 1 [""]).toOption = some { text := "" } := by
      decide +kernel
    cases hresult : catalog.resolvePlural slot 1 [""] with
    | ok shown => simpa [hresult, Except.toOption] using hsome
    | error error => simp [hresult, Except.toOption] at hsome
  have hsave : catalog.Blank save.key := .inr (by decide +kernel)
  obtain ⟨-, hplural, -⟩ := resolve_blank catalog slot [""] 1
  exact ⟨hshown, hplural _ hshown rfl, (resolve_blank catalog save [] 1).2.2 hsave⟩

end Catalog

end Phrasebook
