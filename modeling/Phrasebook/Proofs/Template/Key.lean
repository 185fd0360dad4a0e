import Phrasebook.Template
import Mathlib.Data.List.Infix

/-!
# Proofs/Template/Key — which templates share a key

    ["Hello ", "!"]       ──▸  Hello {1}!  ◂──  ["Hello {1}!"]

A key copies its segments as they are, so a segment that shows the marker of a slot can be read as
that slot.  A template is **unmistakable** if no segment shows the marker of the slot that follows
it, or would follow it.  Cutting a text at the first marker of slot one, then at the first one of
slot two, and so on, gives the one unmistakable template with that text as its key
(`existsUnique_unmistakable`): keys tell unmistakable templates apart, and **every other template
shares its key with one of them** (`unmistakable_iff`).
-/

namespace Phrasebook

/-! ## Cutting at a mark -/

section Cut

variable {α : Type} {c : α} {mark before after before' after' text : List α}

/-- A mark whose first character does not recur cannot reach over the end of a text. -/
theorem infix_of_append_eq (hc : c ∉ mark) (h : before ++ c :: after = mark ++ after') :
    mark <+: before := by
  rcases List.append_eq_append_iff.1 h with ⟨rest, hmark, hrest⟩ | ⟨rest, hbefore, -⟩
  · cases rest with
    | nil => exact ⟨[], by rw [List.append_nil, hmark, List.append_nil]⟩
    | cons d rest =>
      -- then the mark goes on with the first character of the one behind it
      obtain ⟨rfl, -⟩ := List.cons.inj hrest
      exact absurd (hmark ▸ List.mem_append_right _ List.mem_cons_self) hc
  · exact ⟨rest, hbefore.symm⟩

/-- **A text is cut at its first mark in one way only**, if the first character of the mark does not
recur in it. -/
theorem cut_unique (hc : c ∉ mark) (hb : ¬ c :: mark <:+: before) (hb' : ¬ c :: mark <:+: before')
    (h : before ++ c :: mark ++ after = before' ++ c :: mark ++ after') :
    before = before' ∧ after = after' := by
  induction before generalizing before' with
  | nil =>
    cases before' with
    | nil => simpa using h
    | cons d rest =>
      simp only [List.nil_append, List.cons_append, List.append_assoc, List.cons.injEq] at h
      obtain ⟨rfl, h⟩ := h
      have hmark := infix_of_append_eq hc h.symm
      exact absurd (List.prefix_cons_inj c |>.2 hmark).isInfix hb'
  | cons d rest ih =>
    cases before' with
    | nil =>
      simp only [List.nil_append, List.cons_append, List.append_assoc, List.cons.injEq] at h
      obtain ⟨rfl, h⟩ := h
      have hmark := infix_of_append_eq hc h
      exact absurd (List.prefix_cons_inj d |>.2 hmark).isInfix hb
    | cons d' rest' =>
      simp only [List.cons_append, List.cons.injEq] at h
      obtain ⟨rfl, h⟩ := h
      obtain ⟨rfl, hafter⟩ := ih (fun hi => hb (List.infix_cons hi))
        (fun hi => hb' (List.infix_cons hi)) h
      exact ⟨rfl, hafter⟩

/-- **A text that shows a mark shows a first one.** -/
theorem exists_cut (h : mark <:+: text) (hne : mark ≠ []) :
    ∃ before after, text = before ++ mark ++ after ∧ ¬ mark <:+: before := by
  induction text with
  | nil => exact absurd (List.eq_nil_of_infix_nil h) hne
  | cons d text ih =>
    rcases List.infix_cons_iff.1 h with ⟨after, hafter⟩ | h
    · exact ⟨[], after, hafter.symm, fun hi => hne (List.eq_nil_of_infix_nil hi)⟩
    · by_cases hstart : mark <+: d :: text
      · obtain ⟨after, hafter⟩ := hstart
        exact ⟨[], after, hafter.symm, fun hi => hne (List.eq_nil_of_infix_nil hi)⟩
      · obtain ⟨before, after, rfl, hb⟩ := ih h
        refine ⟨d :: before, after, rfl, fun hi => ?_⟩
        rcases List.infix_cons_iff.1 hi with hi | hi
        · exact hstart (hi.trans ⟨mark ++ after, by simp⟩)
        · exact hb hi

end Cut

/-! ## Slot markers -/

/-- The marker of a slot behind its opening brace. -/
def slotMarkerTail (slot : Nat) : List Char := Decimal.digits slot ++ ['\x7d']

theorem toList_slotMarker (slot : Nat) :
    (slotMarker slot).toList = '\x7b' :: slotMarkerTail slot := by
  simp [slotMarker, slotMarkerTail, Decimal.ofNat]

/-- The opening brace of a slot marker does not recur in it. -/
theorem brace_not_mem_slotMarkerTail (slot : Nat) : '\x7b' ∉ slotMarkerTail slot := by
  intro h
  rcases List.mem_append.1 h with h | h
  · exact absurd (Nat.isDigit_of_mem_toDigits (by decide) (by decide) h) (by decide)
  · exact absurd (List.mem_singleton.1 h) (by decide)

/-! ## Unmistakable segments -/

/-- Whether no segment shows the marker of the slot that follows it, where `slot` follows the first
one.  The last segment must not show the marker of a further slot. -/
def Unmistakable : Nat → List String → Prop
  | _, [] => True
  | slot, segment :: rest =>
    ¬ (slotMarker slot).toList <:+: segment.toList ∧ Unmistakable (slot + 1) rest

variable {slot : Nat} {segments other : List String}

theorem toList_keyFrom_cons {segment : String} (h : segments ≠ []) :
    (keyFrom slot (segment :: segments)).toList
      = segment.toList ++ '\x7b' :: slotMarkerTail slot
        ++ (keyFrom (slot + 1) segments).toList := by
  cases segments with
  | nil => exact absurd rfl h
  | cons next rest => simp [keyFrom, toList_slotMarker]

/-- A key with a slot shows the marker of its first slot. -/
theorem slotMarker_infix_keyFrom (slot : Nat) (segment : String) (h : segments ≠ []) :
    (slotMarker slot).toList <:+: (keyFrom slot (segment :: segments)).toList := by
  rw [toList_keyFrom_cons h, toList_slotMarker]
  exact ⟨_, _, rfl⟩

/-- **Unmistakable segments are told apart by their key.** -/
theorem keyFrom_inj (hs : segments ≠ []) (ho : other ≠ []) (h : Unmistakable slot segments)
    (h' : Unmistakable slot other) (hkey : keyFrom slot segments = keyFrom slot other) :
    segments = other := by
  induction segments generalizing slot other with
  | nil => exact absurd rfl hs
  | cons segment rest ih =>
    cases other with
    | nil => exact absurd rfl ho
    | cons segment' rest' =>
      cases rest with
      | nil =>
        cases rest' with
        | nil => exact congrArg ([·]) hkey
        | cons next' rest' =>
          have hshown := slotMarker_infix_keyFrom slot segment' (List.cons_ne_nil next' rest')
          rw [← hkey] at hshown
          exact absurd hshown h.1
      | cons next rest =>
        cases rest' with
        | nil =>
          have hshown := slotMarker_infix_keyFrom slot segment (List.cons_ne_nil next rest)
          rw [hkey] at hshown
          exact absurd hshown h'.1
        | cons next' rest' =>
          have hlist := congrArg String.toList hkey
          rw [toList_keyFrom_cons (List.cons_ne_nil _ _),
            toList_keyFrom_cons (List.cons_ne_nil _ _)] at hlist
          have hb := toList_slotMarker slot ▸ h.1
          have hb' := toList_slotMarker slot ▸ h'.1
          obtain ⟨hsegment, hrest⟩ :=
            cut_unique (brace_not_mem_slotMarkerTail slot) hb hb' hlist
          rw [String.toList_inj.1 hsegment, ih (List.cons_ne_nil _ _) (List.cons_ne_nil _ _) h.2
            h'.2 (String.toList_inj.1 hrest)]

/-- **Every text is the key of unmistakable segments**: it is cut at the first marker of each slot
in turn. -/
theorem exists_unmistakable (slot : Nat) (text : List Char) :
    ∃ segments, segments ≠ [] ∧ Unmistakable slot segments
      ∧ (keyFrom slot segments).toList = text := by
  by_cases h : (slotMarker slot).toList <:+: text
  · have hne : (slotMarker slot).toList ≠ [] := by simp [toList_slotMarker]
    obtain ⟨before, after, htext, hb⟩ := exists_cut h hne
    have hlt : after.length < text.length := by
      rw [htext, toList_slotMarker]
      simp only [List.length_append, List.length_cons]
      omega
    obtain ⟨segments, hs, hu, hkey⟩ := exists_unmistakable (slot + 1) after
    refine ⟨String.ofList before :: segments, List.cons_ne_nil _ _, ⟨?_, hu⟩, ?_⟩
    · rwa [String.toList_ofList]
    · rw [toList_keyFrom_cons hs, hkey, String.toList_ofList, htext, toList_slotMarker]
  · exact ⟨[String.ofList text], List.cons_ne_nil _ _, ⟨by rwa [String.toList_ofList], trivial⟩,
      String.toList_ofList⟩
termination_by text.length

/-! ## Templates -/

namespace Template

/-- Whether no segment shows the marker of the slot that follows it, or would follow it. -/
def Unmistakable (template : Template) : Prop := Phrasebook.Unmistakable 1 template.segments

theorem ext_segments : ∀ {a b : Template}, a.segments = b.segments → a = b
  | ⟨_, _⟩, ⟨_, _⟩, rfl => rfl

/-- **Every text is the key of exactly one unmistakable template.** -/
theorem existsUnique_unmistakable (text : String) :
    ∃! template : Template, template.Unmistakable ∧ template.key = text := by
  obtain ⟨segments, hne, hu, hkey⟩ := exists_unmistakable 1 text.toList
  refine ⟨⟨segments, hne⟩, ⟨hu, String.toList_inj.1 hkey⟩, ?_⟩
  rintro other ⟨hother, rfl⟩
  exact ext_segments (keyFrom_inj other.nonempty hne hother hu (String.toList_inj.1 hkey).symm)

/-- **When a key belongs to one template**: a template is unmistakable exactly if no other
unmistakable template has its key.  So unmistakable templates with one key are equal, and a template
that is not unmistakable shares its key with another one. -/
theorem unmistakable_iff (template : Template) :
    template.Unmistakable
      ↔ ∀ other : Template, other.Unmistakable → other.key = template.key → other = template := by
  obtain ⟨reading, ⟨hu, hkey⟩, hunique⟩ := existsUnique_unmistakable template.key
  constructor
  · intro h other hother hsame
    exact (hunique other ⟨hother, hsame⟩).trans (hunique template ⟨h, rfl⟩).symm
  · intro h
    exact h reading hu hkey ▸ hu

/-- Literal text that looks like a slot, and a slot. -/
theorem key_of_literal_marker :
    (ofSegments ["\x7b1\x7d"]).key = (ofSegments ["", ""]).key
      ∧ (ofSegments ["\x7b1\x7d"]).segments ≠ (ofSegments ["", ""]).segments := by
  decide

end Template

end Phrasebook
