import Mathlib.Data.List.Infix
import Phrasebook.Project.Glob

/-!
# Proofs/Project/Glob — which texts a pattern stands for

    **/*.ts      src/ui/ a .ts        pieces ▸ run ▸ literal '.' ▸ literal 't' ▸ literal 's'

`Matches` says part by part how a text is cut; a run takes any characters, slashes included, and
whole pieces end behind a slash.  **The test tries just these cuts** (`matchesText_iff`).
-/

namespace Phrasebook.Glob

variable {part : Part} {parts : List Part} {text rest : List Char}

/-- Whether the part stands for one character, and for this one. -/
def Part.Takes : Part → Char → Prop
  | .literal d, c => c = d
  | .any, _ => True
  | .oneOf ranges, c => ∃ range ∈ ranges, range.contains c
  | .noneOf ranges, c => ¬ ∃ range ∈ ranges, range.contains c
  | .run, _ => False
  | .pieces, _ => False

/-- The text is one that the parts stand for, the one behind the other. -/
inductive Matches : List Part → List Char → Prop
  | nil : Matches [] []
  | one {part : Part} {c : Char} {parts : List Part} {text : List Char} :
    part.Takes c → Matches parts text → Matches (part :: parts) (c :: text)
  /-- A run stands for any characters. -/
  | run (front : List Char) {parts : List Part} {text : List Char} :
    Matches parts text → Matches (.run :: parts) (front ++ text)
  /-- Whole pieces can be none. -/
  | noPieces {parts : List Part} {text : List Char} :
    Matches parts text → Matches (.pieces :: parts) text
  /-- Whole pieces in front of others end in a slash. -/
  | somePieces (front : List Char) {parts : List Part} {text : List Char} :
    Matches parts text → Matches (.pieces :: parts) (front ++ '/' :: text)
  /-- Whole pieces can go up to the end. -/
  | allPieces (text : List Char) {parts : List Part} :
    Matches parts [] → Matches (.pieces :: parts) text

/-! ## How a text is cut -/

theorem matches_nil_iff : Matches [] text ↔ text = [] := by
  refine ⟨fun h => ?_, fun h => h ▸ .nil⟩
  cases h
  rfl

theorem matches_run_iff :
    Matches (.run :: parts) text ↔ ∃ rest, rest <:+ text ∧ Matches parts rest := by
  constructor
  · intro h
    cases h with
    | one htakes => cases htakes
    | run front hrest => exact ⟨_, List.suffix_append _ _, hrest⟩
  · rintro ⟨rest, ⟨front, rfl⟩, hrest⟩
    exact .run front hrest

theorem matches_pieces_iff :
    Matches (.pieces :: parts) text ↔ ∃ rest,
      (rest = text ∨ rest = [] ∨ ∃ front, text = front ++ '/' :: rest) ∧ Matches parts rest := by
  constructor
  · intro h
    cases h with
    | one htakes => cases htakes
    | noPieces hrest => exact ⟨_, .inl rfl, hrest⟩
    | somePieces front hrest => exact ⟨_, .inr (.inr ⟨front, rfl⟩), hrest⟩
    | allPieces text hrest => exact ⟨_, .inr (.inl rfl), hrest⟩
  · rintro ⟨rest, rfl | rfl | ⟨front, rfl⟩, hrest⟩
    · exact .noPieces hrest
    · exact .allPieces text hrest
    · exact .somePieces front hrest

theorem matches_one_iff (hrun : part ≠ .run) (hpieces : part ≠ .pieces) :
    Matches (part :: parts) text
      ↔ ∃ c rest, text = c :: rest ∧ part.Takes c ∧ Matches parts rest := by
  constructor
  · intro h
    cases h with
    | one htakes hrest => exact ⟨_, _, rfl, htakes, hrest⟩
    | run => exact absurd rfl hrun
    | noPieces => exact absurd rfl hpieces
    | somePieces => exact absurd rfl hpieces
    | allPieces => exact absurd rfl hpieces
  · rintro ⟨c, rest, rfl, htakes, hrest⟩
    exact .one htakes hrest

/-! ## The cuts that are tried -/

theorem mem_afterRun_iff : rest ∈ afterRun text ↔ rest <:+ text := by
  induction text with
  | nil => simp [afterRun]
  | cons c text ih => rw [afterRun, List.mem_cons, ih, List.suffix_cons_iff]

/-- What is left behind a slash, or nothing. -/
theorem mem_afterSlash_iff :
    rest ∈ afterSlash text ↔ rest = [] ∨ ∃ front, text = front ++ '/' :: rest := by
  induction text with
  | nil => simp [afterSlash]
  | cons c text ih =>
    have hcut : (∃ front, c :: text = front ++ '/' :: rest)
        ↔ (c = '/' ∧ rest = text) ∨ ∃ front, text = front ++ '/' :: rest := by
      constructor
      · rintro ⟨_ | ⟨d, front⟩, h⟩
        · obtain ⟨rfl, rfl⟩ := List.cons.inj h
          exact .inl ⟨rfl, rfl⟩
        · exact .inr ⟨front, (List.cons.inj h).2⟩
      · rintro (⟨rfl, rfl⟩ | ⟨front, rfl⟩)
        · exact ⟨[], rfl⟩
        · exact ⟨c :: front, rfl⟩
    rw [afterSlash, hcut]
    split
    · next hc =>
      rw [List.mem_cons, ih]
      simp only [hc, true_and]
      tauto
    · next hc => simp only [ih, hc, false_and, false_or]

theorem matchesText_one_iff (hrun : part ≠ .run) (hpieces : part ≠ .pieces) :
    matchesText (part :: parts) text = true
      ↔ ∃ c rest, text = c :: rest ∧ part.Takes c ∧ matchesText parts rest = true := by
  cases text with
  | nil => cases part <;> simp_all [matchesText]
  | cons c text => cases part <;> simp_all [matchesText, Part.Takes]

/-- **A text passes the test exactly if the parts stand for it.** -/
theorem matchesText_iff : matchesText parts text = true ↔ Matches parts text := by
  induction parts generalizing text with
  | nil => rw [matchesText, List.isEmpty_iff, matches_nil_iff]
  | cons part parts ih =>
    by_cases hrun : part = .run
    · subst hrun
      simp only [matchesText, List.any_eq_true, mem_afterRun_iff, ih, matches_run_iff]
    · by_cases hpieces : part = .pieces
      · subst hpieces
        simp only [matchesText, List.any_eq_true, afterPieces, List.mem_cons, mem_afterSlash_iff,
          ih, matches_pieces_iff]
      · rw [matchesText_one_iff hrun hpieces, matches_one_iff hrun hpieces]
        simp only [ih]

end Phrasebook.Glob
