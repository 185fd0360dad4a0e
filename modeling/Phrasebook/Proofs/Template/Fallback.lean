import Phrasebook.Template
import Phrasebook.Proofs.Text.Search

/-!
# Proofs/Template/Fallback — what the fallback of a template shows

    a ~ │ ~ b        the text of the slots, and what stands behind it
      ╰─┴─╯
       cut           a marker may begin in the one and end in the other

The segments with the values of their slots are cut at the first variant marker.  A text that is
put behind them is shown but for the case that they show a marker themselves, and it moves the cut
into them if they end with half a marker (`exists_withoutVariant_append`).  So a surplus value is
shown (`fallback_eq_iff_surplus`), and **a variant suffix changes the key, and the fallback only by
a tilde at its end** (`fallback_withVariant`).
-/

namespace Phrasebook

/-! ## Cutting at the variant marker -/

section Cut

variable {text : String} {front : List Char}

theorem withoutVariant_eq_self (h : ¬ variantMarker <:+: text.toList) :
    withoutVariant text = text := by
  rw [withoutVariant, Text.before_eq_self h, String.ofList_toList]

/-- Nothing behind a variant marker is shown. -/
theorem withoutVariant_append_of_occurs (h : variantMarker <:+: text.toList) (behind : String) :
    withoutVariant (text ++ behind) = withoutVariant text := by
  rw [withoutVariant, String.toList_append, Text.before_append_of_occurs h, withoutVariant]

/-- A text that begins with a variant marker shows nothing. -/
theorem withoutVariant_of_prefix (h : variantMarker <+: text.toList) :
    withoutVariant text = "" := by
  obtain ⟨name, hname⟩ := h
  rw [withoutVariant, ← hname]
  rfl

/-- What stands in front is kept if no marker begins in it. -/
theorem before_variantMarker_append (h : ¬ variantMarker <:+: front ++ ['~']) (behind : List Char) :
    Text.before variantMarker (front ++ behind) = front ++ Text.before variantMarker behind := by
  induction front with
  | nil => rfl
  | cons c front ih =>
    rw [List.cons_append, List.infix_cons_iff, not_or] at h
    have hstart : ¬ variantMarker <+: c :: (front ++ behind) := by
      intro hmark
      obtain ⟨rfl, hnext⟩ := List.cons_prefix_cons.1 hmark
      cases front with
      | nil => exact h.1 (List.prefix_refl _)
      | cons d front =>
        obtain ⟨rfl, -⟩ := List.cons_prefix_cons.1 hnext
        exact h.1 (List.prefix_append _ _)
    rw [List.cons_append, Text.before, if_neg (by simpa using hstart), ih h.2, List.cons_append]

/-- The half marker that a text ends with, if it does. -/
def openTilde (text : String) : String := if ['~'] <:+ text.toList then "~" else ""

theorem openTilde_eq_empty_iff : openTilde text = "" ↔ ¬ ['~'] <:+ text.toList := by
  rw [openTilde]
  split <;> simp [*]

/-- A text without a marker divides into what is shown in any case and its half marker. -/
theorem exists_eq_append_openTilde (h : ¬ variantMarker <:+: text.toList) :
    ∃ front, text = front ++ openTilde text ∧ ¬ variantMarker <:+: front.toList ++ ['~'] := by
  by_cases htilde : ['~'] <:+ text.toList
  · obtain ⟨front, hfront⟩ := htilde
    have htext : text = String.ofList front ++ "~" := by
      rw [← String.toList_inj, ← hfront]
      simp
    refine ⟨String.ofList front, ?_, ?_⟩
    · rwa [openTilde, if_pos ⟨front, hfront⟩]
    · rwa [String.toList_ofList, hfront]
  · refine ⟨text, by rw [openTilde_eq_empty_iff.2 htilde, String.append_empty], fun hmark => ?_⟩
    rcases List.infix_concat_iff.1 hmark with ⟨front, hend⟩ | hinside
    · have hsplit : (front ++ ['~']) ++ ['~'] = text.toList ++ ['~'] := by
        simpa [variantMarker] using hend
      exact htilde ⟨front, List.append_cancel_right hsplit⟩
    · exact h hinside

/-- **A text that is put behind one without a marker** is cut by itself, behind the half marker that
the first one ends with. -/
theorem exists_withoutVariant_append (h : ¬ variantMarker <:+: text.toList) :
    ∃ front, text = front ++ openTilde text ∧
      ∀ behind, withoutVariant (text ++ behind)
        = front ++ withoutVariant (openTilde text ++ behind) := by
  obtain ⟨front, htext, hfront⟩ := exists_eq_append_openTilde h
  refine ⟨front, htext, fun behind => ?_⟩
  have hassoc : (text ++ behind).toList = front.toList ++ (openTilde text ++ behind).toList := by
    conv_lhs => rw [htext]
    simp
  rw [withoutVariant, hassoc, before_variantMarker_append hfront, withoutVariant,
    String.ofList_append, String.ofList_toList]

/-- **A variant suffix is cut off, with the half marker in front of it.** -/
theorem eq_withoutVariant_append (h : ¬ variantMarker <:+: text.toList) (name : String) :
    text = withoutVariant (text ++ (String.ofList variantMarker ++ name)) ++ openTilde text := by
  obtain ⟨front, htext, hbehind⟩ := exists_withoutVariant_append h
  have hstart : variantMarker <+:
      (openTilde text ++ (String.ofList variantMarker ++ name)).toList := by
    rw [openTilde]
    split <;> simp [variantMarker]
  rw [hbehind, withoutVariant_of_prefix hstart, String.append_empty]
  exact htext

end Cut

/-! ## Interleaving -/

section Interleave

variable {segments values : List String}

/-- **The value behind the last segment is shown as well.** -/
theorem interleave_eq_append (h : segments ≠ []) (values : List String) :
    interleave segments values = interleave segments (values.take (segments.length - 1))
      ++ values[segments.length - 1]?.getD "" := by
  induction segments generalizing values with
  | nil => exact absurd rfl h
  | cons segment rest ih =>
    cases rest with
    | nil => cases values <;> simp [interleave]
    | cons next rest =>
      cases values with
      | nil => simp [interleave]
      | cons value values =>
        have hrest := ih (List.cons_ne_nil next rest) values
        simpa [interleave, String.append_assoc] using hrest

/-- The segments with a text behind the last one. -/
def suffixLast (suffix : String) : List String → List String
  | [] => []
  | [segment] => [segment ++ suffix]
  | segment :: next :: rest => segment :: suffixLast suffix (next :: rest)

theorem suffixLast_ne_nil (suffix : String) (h : segments ≠ []) :
    suffixLast suffix segments ≠ [] := by
  cases segments with
  | nil => exact absurd rfl h
  | cons segment rest => cases rest <;> exact List.cons_ne_nil _ _

/-- A suffix of the last segment is a suffix of the key. -/
theorem keyFrom_suffixLast (suffix : String) (h : segments ≠ []) (slot : Nat) :
    keyFrom slot (suffixLast suffix segments) = keyFrom slot segments ++ suffix := by
  induction segments generalizing slot with
  | nil => exact absurd rfl h
  | cons segment rest ih =>
    cases rest with
    | nil => rfl
    | cons next rest =>
      have hrest := ih (List.cons_ne_nil next rest) (slot + 1)
      obtain ⟨last, others, hlast⟩ :=
        List.exists_cons_of_ne_nil (suffixLast_ne_nil suffix (List.cons_ne_nil next rest))
      rw [suffixLast, keyFrom, String.append_assoc, ← hrest, hlast, keyFrom]

/-- A suffix of the last segment is a suffix of what is shown, if no value stands behind it. -/
theorem interleave_suffixLast (suffix : String) (h : values.length < segments.length) :
    interleave (suffixLast suffix segments) values = interleave segments values ++ suffix := by
  induction segments generalizing values with
  | nil => cases h
  | cons segment rest ih =>
    cases rest with
    | nil =>
      obtain rfl := List.eq_nil_of_length_eq_zero (Nat.lt_one_iff.1 h)
      simp [suffixLast, interleave]
    | cons next rest =>
      cases values with
      | nil => simp [suffixLast, interleave, ih, String.append_assoc]
      | cons value values =>
        have hrest := ih (Nat.lt_of_succ_lt_succ h)
        simp [suffixLast, interleave, hrest, String.append_assoc]

end Interleave

namespace Template

variable {template : Template} {values u v : List String}

/-! ## Surplus values -/

/-- The segments with the values of the slots. -/
def slotText (template : Template) (values : List String) : String :=
  interleave template.segments (values.take template.slotCount)

/-- The value that stands behind the last segment, if there is one. -/
def surplus (template : Template) (values : List String) : String :=
  values[template.slotCount]?.getD ""

/-- **The fallback is the text of the slots and the surplus value behind it**, cut at the first
variant marker. -/
theorem fallback_eq (template : Template) (values : List String) :
    template.fallback values
      = withoutVariant (template.slotText values ++ template.surplus values) := by
  rw [fallback, fallbackText, interleave_eq_append template.nonempty, slotText, surplus, slotCount]

theorem slotText_congr (h : ∀ slot < template.slotCount, u[slot]? = v[slot]?) :
    template.slotText u = template.slotText v := by
  have htake : u.take template.slotCount = v.take template.slotCount := by
    apply List.ext_getElem?
    intro slot
    rw [List.getElem?_take, List.getElem?_take]
    split
    · exact h slot ‹_›
    · rfl
  rw [slotText, htake, slotText]

/-- **When surplus values are not shown**: two lists of values with the same values for the slots
give one fallback exactly if the text of the slots is cut already, or the surplus values are the
same up to their own cut, where the text of the slots can end with half a marker. -/
theorem fallback_eq_iff_surplus (template : Template) (u v : List String)
    (h : ∀ slot < template.slotCount, u[slot]? = v[slot]?) :
    template.fallback u = template.fallback v
      ↔ variantMarker <:+: (template.slotText u).toList
        ∨ withoutVariant (openTilde (template.slotText u) ++ template.surplus u)
          = withoutVariant (openTilde (template.slotText u) ++ template.surplus v) := by
  rw [fallback_eq, fallback_eq, ← slotText_congr h]
  by_cases hmark : variantMarker <:+: (template.slotText u).toList
  · rw [withoutVariant_append_of_occurs hmark, withoutVariant_append_of_occurs hmark]
    exact iff_of_true rfl (.inl hmark)
  · obtain ⟨front, -, hbehind⟩ := exists_withoutVariant_append hmark
    rw [hbehind, hbehind, String.append_right_inj, or_iff_right hmark]

/-- A surplus value that is a variant suffix is not shown. -/
theorem fallback_eq_iff_surplus_variant :
    let template := ofSegments ["Hi ", "~"]
    (∀ slot < template.slotCount, ["Ann", "~x"][slot]? = ["Ann", "~y", "z"][slot]?)
      ∧ template.fallback ["Ann", "~x"] = template.fallback ["Ann", "~y", "z"] := by
  intro template
  have hslots : ∀ slot < template.slotCount,
      ["Ann", "~x"][slot]? = ["Ann", "~y", "z"][slot]? := by decide
  exact ⟨hslots, (fallback_eq_iff_surplus template _ _ hslots).2 (.inr (by decide))⟩

/-- A template without slots shows a value. -/
theorem fallback_shows_surplus :
    (ofSegments ["a"]).slotCount = 0 ∧ (ofSegments ["a"]).fallback ["x"] = "ax"
      ∧ (ofSegments ["a"]).fallback [] = "a" := by
  decide

/-! ## Variant suffixes -/

/-- The template with a variant suffix behind its last segment. -/
def withVariant (template : Template) (name : String) : Template where
  segments := suffixLast (String.ofList variantMarker ++ name) template.segments
  nonempty := suffixLast_ne_nil _ template.nonempty

theorem key_withVariant (template : Template) (name : String) :
    (template.withVariant name).key = template.key ++ (String.ofList variantMarker ++ name) :=
  keyFrom_suffixLast _ template.nonempty 1

theorem key_withVariant_ne (template : Template) (name : String) :
    (template.withVariant name).key ≠ template.key := by
  intro hsame
  have hlength := congrArg String.length (key_withVariant template name ▸ hsame)
  simp [variantMarker] at hlength

theorem fallback_withVariant_eq (name : String) (h : values.length ≤ template.slotCount) :
    (template.withVariant name).fallback values
      = withoutVariant (interleave template.segments values
        ++ (String.ofList variantMarker ++ name)) := by
  have hpos := List.length_pos_iff.2 template.nonempty
  have hlt : values.length < template.segments.length := by
    rw [slotCount] at h
    omega
  rw [fallback, fallbackText, withVariant, interleave_suffixLast _ hlt]

/-- **A variant suffix changes the key.**  The fallback stays exactly if what is shown has a variant
marker already or does not end with a tilde; without a marker, the fallback with the suffix lacks
just that tilde, which the first marker begins with. -/
theorem fallback_withVariant (template : Template) (name : String) (values : List String)
    (h : values.length ≤ template.slotCount) :
    (template.withVariant name).key ≠ template.key
      ∧ ((template.withVariant name).fallback values = template.fallback values
        ↔ variantMarker <:+: (interleave template.segments values).toList
          ∨ ¬ ['~'] <:+ (interleave template.segments values).toList)
      ∧ (¬ variantMarker <:+: (interleave template.segments values).toList →
        template.fallback values = (template.withVariant name).fallback values
          ++ openTilde (interleave template.segments values)) := by
  refine ⟨key_withVariant_ne template name, ?_⟩
  rw [fallback_withVariant_eq name h, fallback, fallbackText]
  generalize interleave template.segments values = shown
  by_cases hmark : variantMarker <:+: shown.toList
  · rw [withoutVariant_append_of_occurs hmark]
    exact ⟨iff_of_true rfl (.inl hmark), fun hnot => absurd hmark hnot⟩
  · have hshown := eq_withoutVariant_append hmark name
    rw [withoutVariant_eq_self hmark, or_iff_right hmark, ← openTilde_eq_empty_iff]
    refine ⟨⟨fun hsame => ?_, fun htilde => ?_⟩, fun _ => hshown⟩
    · rw [hsame] at hshown
      have hlength := congrArg String.length hshown
      simpa using hlength
    · rw [htilde, String.append_empty] at hshown
      exact hshown.symm

/-- The suffix of a template with a slot. -/
theorem fallback_withVariant_menu :
    let template := ofSegments ["Hi ", "!"]
    ["Ann"].length ≤ template.slotCount
      ∧ (template.withVariant "menu").key = "Hi \x7b1\x7d!~~menu"
      ∧ (template.withVariant "menu").key ≠ template.key
      ∧ (template.withVariant "menu").fallback ["Ann"] = template.fallback ["Ann"]
      ∧ template.fallback ["Ann"] = "Hi Ann!" := by
  intro template
  have hcount : ["Ann"].length ≤ template.slotCount := by decide
  obtain ⟨hkey, hfallback, -⟩ := fallback_withVariant template "menu" ["Ann"] hcount
  exact ⟨hcount, by decide, hkey, hfallback.2 (.inr (by decide)), by decide⟩

/-- A tilde in front of the suffix is cut off with it. -/
theorem fallback_withVariant_ne :
    (ofSegments ["a~"]).slotCount = 0
      ∧ ((ofSegments ["a~"]).withVariant "x").fallback [] = "a"
      ∧ (ofSegments ["a~"]).fallback [] = "a~" := by
  decide

end Template

end Phrasebook
