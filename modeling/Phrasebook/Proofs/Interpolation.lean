import Mathlib.Tactic.IntervalCases
import Phrasebook.Interpolation
import Phrasebook.Proofs.Template.Key

/-!
# Proofs/Interpolation — filling slot markers is one pass over the text

    t₀  {1}  t₁  {7}  t₂          the text, cut at its markers
    t₀   a   t₁  {7}  t₂          what the pass makes of it, for the one argument a

A marker has one opening brace, at its start, so no two markers of a text overlap, and a text is cut
into plain texts and markers in one way only (`factors_unique`, `exists_factors`).  The pass
copies a plain text whatever braces and digits are left open in it (`scan_plain`), puts an argument
or the marker itself in the place of a marker (`scan_marker`), and goes on behind it: **what an
argument brings in is never read again** (`interpolate_factors`).
-/

namespace Phrasebook

namespace Interpolation

/-! ## Markers -/

/-- The signs that count as the digits of a marker: the ten decimal digits, and possibly digits of
other scripts, but no brace. -/
structure DigitSigns where
  contains : Char → Bool
  of_isDigit : ∀ c, c.isDigit = true → contains c = true
  no_opening : contains '{' = false
  no_closing : contains '}' = false

/-- The ten decimal digits and no other sign. -/
def DigitSigns.decimal : DigitSigns := ⟨Char.isDigit, fun _ h => h, by decide, by decide⟩

variable {signs : DigitSigns}

/-- A slot marker: one or more digits between braces. -/
@[ext]
structure Marker (signs : DigitSigns) where
  digits : List Char
  ne_nil : digits ≠ []
  all_digits : ∀ c ∈ digits, signs.contains c = true

namespace Marker

/-- The marker as it stands in a text. -/
def text (marker : Marker signs) : List Char := '{' :: (marker.digits ++ ['}'])

/-- The number that the digits denote, if all of them are decimal digits. -/
def number? (marker : Marker signs) : Option Nat :=
  if marker.digits.all Char.isDigit then some (Decimal.toNat marker.digits) else none

/-- What a marker becomes: the argument with its number, counted from one, or the marker itself if
there is none. -/
def replacement (arguments : List String) (marker : Marker signs) : List Char :=
  match marker.number? with
  | some n => if h : 1 ≤ n ∧ n ≤ arguments.length then arguments[n - 1].toList else marker.text
  | none => marker.text

theorem not_mem_digits {c : Char} (h : signs.contains c = false) (marker : Marker signs) :
    c ∉ marker.digits := fun hmem => by simp [marker.all_digits c hmem] at h

/-- The opening brace of a marker does not recur in it. -/
theorem brace_not_mem_tail (marker : Marker signs) : '{' ∉ marker.digits ++ ['}'] := by
  simp [marker.not_mem_digits signs.no_opening]

/-- **A marker ends at its closing brace.** -/
theorem unique {marker marker' : Marker signs} {after after' : List Char}
    (h : marker.text ++ after = marker'.text ++ after') : marker = marker' ∧ after = after' := by
  have hbrace : ∀ m : Marker signs, ¬ ['}'] <:+: m.digits := fun m hi =>
    m.not_mem_digits signs.no_closing (hi.subset List.mem_cons_self)
  have hdigits : marker.digits ++ ['}'] ++ after = marker'.digits ++ ['}'] ++ after' :=
    (List.cons.inj h).2
  obtain ⟨hmarker, hafter⟩ :=
    cut_unique List.not_mem_nil (hbrace marker) (hbrace marker') hdigits
  exact ⟨Marker.ext hmarker, hafter⟩

/-- A decimal marker is a marker for any signs. -/
def ofDecimal (marker : Marker .decimal) : Marker signs :=
  ⟨marker.digits, marker.ne_nil, fun c hc => signs.of_isDigit c (marker.all_digits c hc)⟩

end Marker

/-- Whether no marker stands in the text. -/
def MarkerFree (signs : DigitSigns) (text : List Char) : Prop :=
  ∀ marker : Marker signs, ¬ marker.text <:+: text

variable {plain part first first' : List Char} {arguments : List String}
  {rest rest' : List (Marker signs × List Char)}

theorem MarkerFree.mono (h : MarkerFree signs plain) (hpart : part <:+: plain) :
    MarkerFree signs part := fun marker hi => h marker (hi.trans hpart)

theorem MarkerFree.decimal (h : MarkerFree signs plain) : MarkerFree .decimal plain :=
  fun marker => h marker.ofDecimal

/-- A text with braces of one kind alone has no marker. -/
theorem markerFree_of_not_mem (h : '{' ∉ plain ∨ '}' ∉ plain) : MarkerFree signs plain := by
  intro marker hi
  rcases h with h | h
  · exact h (hi.subset (by simp [Marker.text]))
  · exact h (hi.subset (by simp [Marker.text]))

theorem markerFree_nil : MarkerFree signs [] := fun _ hi =>
  nomatch List.eq_nil_of_infix_nil hi

/-! ## Cutting a text at its markers -/

/-- A text cut at its markers: plain texts, with a marker between any two neighbours. -/
@[ext]
structure Factors (signs : DigitSigns) where
  first : List Char
  rest : List (Marker signs × List Char)
  plain : MarkerFree signs first ∧ ∀ piece ∈ rest, MarkerFree signs piece.2

/-- The plain texts with something in the place of each marker. -/
def render (f : Marker signs → List Char) (first : List Char)
    (rest : List (Marker signs × List Char)) : List Char :=
  first ++ rest.flatMap fun piece => f piece.1 ++ piece.2

theorem render_nil (f : Marker signs → List Char) : render f first [] = first := by simp [render]

theorem render_cons (f : Marker signs → List Char) (piece : Marker signs × List Char) :
    render f first (piece :: rest) = first ++ (f piece.1 ++ render f piece.2 rest) := by
  simp [render]

namespace Factors

/-- The text that was cut. -/
def text (factors : Factors signs) : List Char := render Marker.text factors.first factors.rest

/-- The text with each marker replaced. -/
def filled (factors : Factors signs) (arguments : List String) : List Char :=
  render (Marker.replacement arguments) factors.first factors.rest

end Factors

/-- Of two ways to cut a text at a marker, neither cuts inside of the marker of the other. -/
theorem eq_nil_of_append_marker {marker marker' : Marker signs} {after after' : List Char}
    (hfree : MarkerFree signs part) (h : marker.text ++ after = part ++ (marker'.text ++ after')) :
    part = [] := by
  cases part with
  | nil => rfl
  | cons c part =>
    obtain ⟨rfl, htail⟩ := List.cons.inj h
    have hreach : part ++ '{' :: (marker'.digits ++ ['}'] ++ after')
        = marker.digits ++ ['}'] ++ after := htail.symm
    have hmarker := infix_of_append_eq marker.brace_not_mem_tail hreach
    exact absurd (List.prefix_cons_inj '{' |>.2 hmarker).isInfix (hfree marker)

/-- **A text is cut at its first marker in one way only.** -/
theorem first_unique {marker marker' : Marker signs} {after after' : List Char}
    (hfree : MarkerFree signs first) (hfree' : MarkerFree signs first')
    (h : first ++ (marker.text ++ after) = first' ++ (marker'.text ++ after')) :
    first = first' ∧ marker = marker' ∧ after = after' := by
  rcases List.append_eq_append_iff.1 h with ⟨part, rfl, hbehind⟩ | ⟨part, rfl, hbehind⟩
  · obtain rfl := eq_nil_of_append_marker
      (hfree'.mono (List.suffix_append first part).isInfix) hbehind
    exact ⟨(List.append_nil first).symm, Marker.unique hbehind⟩
  · obtain rfl := eq_nil_of_append_marker
      (hfree.mono (List.suffix_append first' part).isInfix) hbehind
    obtain ⟨hmarker, hafter⟩ := Marker.unique hbehind
    exact ⟨List.append_nil first', hmarker.symm, hafter.symm⟩

/-- **A text is cut at its markers in one way only.** -/
theorem factors_unique (hfree : MarkerFree signs first)
    (hrest : ∀ piece ∈ rest, MarkerFree signs piece.2) (hfree' : MarkerFree signs first')
    (hrest' : ∀ piece ∈ rest', MarkerFree signs piece.2)
    (h : render Marker.text first rest = render Marker.text first' rest') :
    first = first' ∧ rest = rest' := by
  induction rest generalizing first first' rest' with
  | nil =>
    cases rest' with
    | nil => exact ⟨by rwa [render_nil, render_nil] at h, rfl⟩
    | cons piece' rest' =>
      rw [render_nil, render_cons] at h
      exact absurd ⟨first', _, by rw [h, List.append_assoc]⟩ (hfree piece'.1)
  | cons piece rest ih =>
    cases rest' with
    | nil =>
      rw [render_nil, render_cons] at h
      exact absurd ⟨first, _, by rw [← h, List.append_assoc]⟩ (hfree' piece.1)
    | cons piece' rest' =>
      rw [render_cons, render_cons] at h
      obtain ⟨rfl, hmarker, h⟩ := first_unique hfree hfree' h
      obtain ⟨hplain, rfl⟩ := ih (hrest piece (by simp)) (fun p hp => hrest p (by simp [hp]))
        (hrest' piece' (by simp)) (fun p hp => hrest' p (by simp [hp])) h
      exact ⟨rfl, by rw [Prod.ext hmarker hplain]⟩

/-- **Every text can be cut at its markers.** -/
theorem exists_factors (signs : DigitSigns) (text : List Char) :
    ∃ factors : Factors signs, factors.text = text := by
  by_cases hstart : ∃ marker : Marker signs, marker.text <+: text
  · obtain ⟨marker, after, htext⟩ := hstart
    have hlt : after.length < text.length := by
      rw [← htext, Marker.text]
      simp only [List.length_append, List.length_cons]
      omega
    obtain ⟨factors, rfl⟩ := exists_factors signs after
    refine ⟨⟨[], (marker, factors.first) :: factors.rest, markerFree_nil, ?_⟩, ?_⟩
    · exact List.forall_mem_cons.2 factors.plain
    · rw [Factors.text, render_cons]
      exact htext
  · cases text with
    | nil => exact ⟨⟨[], [], markerFree_nil, by simp⟩, rfl⟩
    | cons c text =>
      obtain ⟨factors, rfl⟩ := exists_factors signs text
      refine ⟨⟨c :: factors.first, factors.rest, fun marker hi => ?_, factors.plain.2⟩, rfl⟩
      rcases List.infix_cons_iff.1 hi with hi | hi
      · exact hstart ⟨marker, hi.trans (List.prefix_append _ _)⟩
      · exact factors.plain.1 marker hi
termination_by text.length

/-! ## The pass over a plain text -/

/-- The part of the text that the pass holds back while it reads digits. -/
def heldBack : Option (List Char) → List Char
  | none => []
  | some digits => '{' :: digits.reverse

/-- Whether all that is held back behind the brace are decimal digits. -/
def HoldsDigits (opened : Option (List Char)) : Prop :=
  ∀ digits, opened = some digits → ∀ c ∈ digits, c.isDigit = true

theorem holdsDigits_none : HoldsDigits none := fun _ h => nomatch h

theorem holdsDigits_some {digits : List Char} :
    HoldsDigits (some digits) ↔ ∀ c ∈ digits, c.isDigit = true :=
  ⟨fun h => h digits rfl, fun h _ he => Option.some.inj he ▸ h⟩

/-- The digits that are held back and a closing brace are a marker. -/
theorem not_markerFree_of_closing {digits : List Char} (hd : HoldsDigits (some digits))
    (hne : digits ≠ []) : ¬ MarkerFree .decimal (heldBack (some digits) ++ '}' :: plain) := by
  intro hfree
  have hdigits : ∀ c ∈ digits.reverse, c.isDigit = true := fun c hc =>
    holdsDigits_some.1 hd c (List.mem_reverse.1 hc)
  refine hfree ⟨digits.reverse, by simpa using hne, hdigits⟩ ⟨[], plain, ?_⟩
  simp [Marker.text, heldBack]

/-- **The pass copies a text without markers**, whatever brace and digits it holds back at the
start, and however the text is left open at its end: what comes next ends it or opens anew. -/
theorem scan_plain (arguments : List String) (tail : List Char)
    (htail : tail = [] ∨ ∃ behind, tail = '{' :: behind)
    (opened : Option (List Char)) (hd : HoldsDigits opened)
    (hfree : MarkerFree .decimal (heldBack opened ++ plain)) :
    scan arguments opened (plain ++ tail)
      = heldBack opened ++ plain ++ scan arguments none tail := by
  induction plain generalizing opened with
  | nil =>
    cases opened with
    | none => rfl
    | some digits =>
      rcases htail with rfl | ⟨behind, rfl⟩
      · simp [scan, heldBack]
      · simp [scan, heldBack]
  | cons c plain ih =>
    have hbehind : MarkerFree .decimal (c :: plain) :=
      hfree.mono (List.suffix_append _ _).isInfix
    have hplain : MarkerFree .decimal plain := hbehind.mono (List.suffix_cons c plain).isInfix
    cases opened with
    | none =>
      by_cases hopen : c = '{'
      · subst hopen
        have hrest := ih (some []) (holdsDigits_some.2 (by simp)) hbehind
        simpa [scan, heldBack] using hrest
      · have hrest := ih none holdsDigits_none hplain
        simpa [scan, heldBack, hopen] using hrest
    | some digits =>
      by_cases hdigit : c.isDigit = true
      · have hmore : HoldsDigits (some (c :: digits)) :=
          holdsDigits_some.2 (List.forall_mem_cons.2 ⟨hdigit, holdsDigits_some.1 hd⟩)
        have hrest := ih (some (c :: digits)) hmore (by simpa [heldBack] using hfree)
        simpa [scan, hdigit, heldBack] using hrest
      · by_cases hclose : c = '}' ∧ digits ≠ []
        · obtain ⟨rfl, hne⟩ := hclose
          exact absurd hfree (not_markerFree_of_closing hd hne)
        · by_cases hopen : c = '{'
          · subst hopen
            have hrest := ih (some []) (holdsDigits_some.2 (by simp)) hbehind
            simpa [scan, heldBack] using hrest
          · have hrest := ih none holdsDigits_none hplain
            simpa [scan, hdigit, hclose, hopen, heldBack] using hrest

/-! ## The pass over a marker -/

/-- A run of digits and the brace behind it. -/
theorem scan_digits {digits : List Char} (hdigits : ∀ c ∈ digits, c.isDigit = true)
    (held tail : List Char) (hne : held.reverse ++ digits ≠ []) :
    scan arguments (some held) (digits ++ '}' :: tail)
      = fill arguments (held.reverse ++ digits) ++ scan arguments none tail := by
  induction digits generalizing held with
  | nil =>
    have hheld : held ≠ [] := by simpa using hne
    simp [scan, hheld]
  | cons c digits ih =>
    obtain ⟨hc, hdigits⟩ := List.forall_mem_cons.1 hdigits
    have hrest := ih hdigits (c :: held) (by simp)
    simpa [scan, hc] using hrest

/-- A text without an opening brace is copied. -/
theorem scan_none_append (arguments : List String) (hopen : '{' ∉ plain) (tail : List Char) :
    scan arguments none (plain ++ tail) = plain ++ scan arguments none tail := by
  induction plain with
  | nil => rfl
  | cons c plain ih =>
    obtain ⟨hc, hplain⟩ := not_or.1 (mt List.mem_cons.2 hopen)
    simp [scan, Ne.symm hc, ih hplain]

/-- **A marker with a digit that is not decimal is copied.** -/
theorem scan_other_digits {digits : List Char} (hother : ∃ c ∈ digits, c.isDigit = false)
    (hopen : '{' ∉ digits) (hclose : '}' ∉ digits) (held tail : List Char) :
    scan arguments (some held) (digits ++ '}' :: tail)
      = '{' :: held.reverse ++ digits ++ '}' :: scan arguments none tail := by
  induction digits generalizing held with
  | nil => simp at hother
  | cons c digits ih =>
    obtain ⟨hc, hopen⟩ := not_or.1 (mt List.mem_cons.2 hopen)
    obtain ⟨hc', hclose⟩ := not_or.1 (mt List.mem_cons.2 hclose)
    by_cases hdigit : c.isDigit = true
    · have hrest := ih (by simpa [hdigit] using hother) hopen hclose (c :: held)
      simpa [scan, hdigit] using hrest
    · have hrest : '{' ∉ digits ++ ['}'] := by simp [hopen]
      have hcopy := scan_none_append arguments hrest tail
      simpa [scan, hdigit, Ne.symm hc, Ne.symm hc'] using hcopy

/-- A number names an argument exactly if it lies between one and their count. -/
theorem fill_eq_replacement {marker : Marker signs}
    (hdecimal : ∀ c ∈ marker.digits, c.isDigit = true) :
    fill arguments marker.digits = marker.replacement arguments := by
  have hnumber : marker.number? = some (Decimal.toNat marker.digits) :=
    if_pos (List.all_eq_true.2 hdecimal)
  rw [fill, Marker.replacement, hnumber]
  cases Decimal.toNat marker.digits with
  | zero => simp [Marker.text]
  | succ n =>
    by_cases hn : n < arguments.length
    · simp [hn, Nat.succ_le_of_lt hn]
    · have hnone : ¬ n + 1 ≤ arguments.length := by omega
      simp [hn, hnone, Marker.text]

/-- **The pass puts the replacement in the place of a marker** and goes on behind it. -/
theorem scan_marker (marker : Marker signs) (tail : List Char) :
    scan arguments none (marker.text ++ tail)
      = marker.replacement arguments ++ scan arguments none tail := by
  have hopened : scan arguments none (marker.text ++ tail)
      = scan arguments (some []) (marker.digits ++ '}' :: tail) := by
    simp [Marker.text, scan]
  rw [hopened]
  by_cases hdecimal : ∀ c ∈ marker.digits, c.isDigit = true
  · rw [scan_digits hdecimal [] tail (by simpa using marker.ne_nil)]
    exact congrArg (· ++ _) (fill_eq_replacement hdecimal)
  · have hnumber : marker.number? = none := if_neg fun hall => hdecimal (List.all_eq_true.1 hall)
    have hother : ∃ c ∈ marker.digits, c.isDigit = false := by simpa using hdecimal
    rw [scan_other_digits hother (marker.not_mem_digits signs.no_opening)
      (marker.not_mem_digits signs.no_closing), Marker.replacement, hnumber]
    simp [Marker.text]

/-! ## The whole pass -/

/-- **Cut at its markers, a text is filled piece by piece.** -/
theorem scan_render (hfree : MarkerFree signs first)
    (hrest : ∀ piece ∈ rest, MarkerFree signs piece.2) :
    scan arguments none (render Marker.text first rest)
      = render (Marker.replacement arguments) first rest := by
  induction rest generalizing first with
  | nil =>
    have hcopy := scan_plain arguments [] (.inl rfl) none holdsDigits_none hfree.decimal
    simpa [render_nil, heldBack, scan] using hcopy
  | cons piece rest ih =>
    obtain ⟨hpiece, hrest⟩ := List.forall_mem_cons.1 hrest
    have hcopy := scan_plain arguments (piece.1.text ++ render Marker.text piece.2 rest)
      (.inr ⟨_, rfl⟩) none holdsDigits_none hfree.decimal
    rw [render_cons, render_cons, hcopy, scan_marker, ih hpiece hrest]
    rfl

/-- **Interpolation is one exact pass.**  Whatever signs besides the decimal digits count as digits,
a text is cut at its markers in exactly one way, and interpolation replaces each marker whose
number names an argument by that argument and leaves all else as it is. -/
theorem interpolate_factors (signs : DigitSigns) (text : String) (arguments : List String) :
    ∃ factors : Factors signs, factors.text = text.toList
      ∧ (∀ other : Factors signs, other.text = text.toList → other = factors)
      ∧ (interpolate text arguments).toList = factors.filled arguments := by
  obtain ⟨factors, htext⟩ := exists_factors signs text.toList
  refine ⟨factors, htext, fun other hother => ?_, ?_⟩
  · obtain ⟨hfirst, hrest⟩ := factors_unique other.plain.1 other.plain.2 factors.plain.1
      factors.plain.2 (hother.trans htext.symm)
    exact Factors.ext hfirst hrest
  · rw [interpolate, String.toList_ofList, ← htext]
    exact scan_render factors.plain.1 factors.plain.2

/-- A text with a brace left open, markers with a leading zero and inside of another brace, and one
that names no argument, cut by hand. -/
def bracesFactors : Factors .decimal where
  first := ['{', '1']
  rest :=
    [(⟨['0', '2'], List.cons_ne_nil _ _, List.all_eq_true.1 rfl⟩, ['{']),
      (⟨['1'], List.cons_ne_nil _ _, List.all_eq_true.1 rfl⟩, ['}']),
      (⟨['3'], List.cons_ne_nil _ _, List.all_eq_true.1 rfl⟩, [])]
  plain := by
    refine ⟨markerFree_of_not_mem (by decide), ?_⟩
    simp only [List.forall_mem_cons]
    exact ⟨markerFree_of_not_mem (by decide), markerFree_of_not_mem (by decide),
      markerFree_of_not_mem (by decide), fun _ h => nomatch h⟩

/-- The argument for the first marker looks like the second one, and is not read again. -/
theorem interpolate_factors_braces :
    let text := "\x7b1\x7b02\x7d\x7b\x7b1\x7d\x7d\x7b3\x7d"
    let arguments := ["b", "\x7b1\x7d"]
    bracesFactors.text = text.toList
      ∧ (interpolate text arguments).toList = bracesFactors.filled arguments
      ∧ interpolate text arguments = "\x7b1\x7b1\x7d\x7bb\x7d\x7b3\x7d" := by
  intro text arguments
  have htext : bracesFactors.text = text.toList := by decide
  obtain ⟨factors, -, hunique, hfilled⟩ := interpolate_factors .decimal text arguments
  rw [← hunique bracesFactors htext] at hfilled
  refine ⟨htext, hfilled, ?_⟩
  rw [← String.toList_inj, hfilled]
  decide

end Interpolation

end Phrasebook
