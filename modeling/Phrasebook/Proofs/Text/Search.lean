import Phrasebook.Text.Search
import Mathlib.Data.List.Infix

/-!
# Proofs/Text/Search — what searching in a text finds

`occurs` is the relation `<:+:` (`occurs_iff`).  `before` leaves a text without the mark as it is,
and what stands behind an occurrence does not change it (`before_append_of_occurs`).
-/

namespace Phrasebook.Text

variable {mark text : List Char}

@[simp] theorem occurs_iff : occurs mark text = true ↔ mark <:+: text := by
  induction text with
  | nil => simp [occurs]
  | cons c rest ih => simp [occurs, ih, List.infix_cons_iff]

/-- A text without the mark is not cut. -/
theorem before_eq_self (h : ¬ mark <:+: text) : before mark text = text := by
  induction text with
  | nil => rfl
  | cons c text ih =>
    rw [List.infix_cons_iff, not_or] at h
    rw [before, if_neg (by simpa using h.1), ih h.2]

/-- A text with the mark is cut inside. -/
theorem before_append_of_occurs (h : mark <:+: text) (behind : List Char) :
    before mark (text ++ behind) = before mark text := by
  induction text with
  | nil =>
    obtain rfl := List.eq_nil_of_infix_nil h
    cases behind <;> rfl
  | cons c text ih =>
    rw [List.cons_append, before, before]
    by_cases hstart : mark <+: c :: text
    · rw [if_pos (by simpa using hstart.trans (List.prefix_append _ behind)),
        if_pos (by simpa using hstart)]
    · have hinside := (List.infix_cons_iff.1 h).resolve_left hstart
      -- a mark that fits into the text does not begin at its front and end behind it
      have hlong : ¬ mark <+: c :: (text ++ behind) := fun hmark =>
        hstart (List.prefix_of_prefix_length_le hmark (List.prefix_append (c :: text) behind)
          (hinside.length_le.trans (Nat.le_succ _)))
      rw [if_neg (by simpa using hlong), if_neg (by simpa using hstart), ih hinside]

/-- The first occurrence of a character divides the text. -/
theorem replaceFirst_eq (old : Char) (new text : List Char) :
    replaceFirst old new text = match text.dropWhile (· ≠ old) with
      | [] => text
      | _ :: behind => text.takeWhile (· ≠ old) ++ new ++ behind := by
  induction text with
  | nil => rfl
  | cons c text ih =>
    by_cases h : c = old
    · simp [replaceFirst, h]
    · rw [replaceFirst, if_neg h, ih]
      simp only [List.dropWhile_cons, List.takeWhile_cons, h, ne_eq, not_false_eq_true,
        decide_true, if_true]
      split <;> rfl

end Phrasebook.Text
