import Phrasebook.Proofs.Double.Order
import Phrasebook.Proofs.Text.Search
import Phrasebook.Resolution

/-!
# Proofs/Resolution/Tiers — which text of a rule set a count shows

    count = 0 ──▸ zero   count = 1 ──▸ one   count > limit ──▸ many   else ──▸ other, with the count

The first text in this order that is there is shown.  The rule compares the count with the limit as
whole numbers (`tierText`), the selection compares them as doubles (`isMany_iff`).  A count below
`2 ^ 53` has a double of its own (`not_merges`); beyond, **the text for many items is missed where
the count and the limit below it have the same nearest double** (`select_eq_tierText_iff`).
-/

namespace Phrasebook

open Double

/-! ## The count in a text -/

/-- A text with the decimal count in the place of its first `#`. -/
def countWritten (text : String) (count : Int) : String :=
  match text.toList.dropWhile (· ≠ '#') with
  | [] => text
  | _ :: behind =>
    String.ofList (text.toList.takeWhile (· ≠ '#') ++ (toString count).toList ++ behind)

theorem Decimal.ofInt_eq_toString (count : Int) : Decimal.ofInt count = toString count := by
  cases count with
  | ofNat n => rfl
  | negSucc n => rfl

theorem withCount_eq_countWritten (text : String) (count : Int) :
    withCount text count = countWritten text count := by
  rw [withCount, Text.replaceFirst_eq, Decimal.ofInt_eq_toString, countWritten, countPlaceholder]
  cases text.toList.dropWhile (· ≠ '#') with
  | nil => exact String.ofList_toList
  | cons sign behind => rfl

namespace PluralRules

variable {rules : PluralRules} {count limit : Int}

/-! ## The rule -/

/-- The text for a count, where `above` says whether the count is above the limit. -/
def textFor (rules : PluralRules) (count : Int) (above : Bool) : Option String :=
  if count = 0 ∧ rules.zeroText ≠ none then rules.zeroText
  else if count = 1 ∧ rules.oneText ≠ none then rules.oneText
  else if above ∧ rules.manyText ≠ none then rules.manyText
  else rules.otherText.map (countWritten · count)

/-- Whether the count is above the limit, as whole numbers; a limit of zero is none. -/
def isAbove (rules : PluralRules) (count : Int) : Bool :=
  match rules.manyLimit with
  | some (.whole limit) => limit ≠ 0 ∧ limit < count
  | _ => false

/-- **The tier rule**: the first of the texts for zero, one and many items that is there and that
the count asks for, else the general one. -/
def tierText (rules : PluralRules) (count : Int) : Option String :=
  rules.textFor count (rules.isAbove count)

/-- The selection follows the rule but for how it compares the count with the limit. -/
theorem select_eq_textFor (rules : PluralRules) (count : Int) :
    rules.select count = rules.textFor count (rules.isMany count) := by
  rw [select, textFor]
  simp only [withCount_eq_countWritten]
  -- which texts are there settles, with the count, where both of them stop
  cases rules.zeroText <;> cases rules.oneText <;> cases rules.manyText <;> grind

/-! ## The comparison -/

/-- The limit, if there is one, is a whole number of 64 bits, with a sign or without. -/
def WholeLimit (rules : PluralRules) : Prop :=
  ∀ n, rules.manyLimit = some n →
    ∃ limit : Int, n = .whole limit ∧ -2 ^ 63 ≤ limit ∧ limit < 2 ^ 64

/-- The count is above the limit, but has the same nearest double. -/
def Merges (rules : PluralRules) (count : Int) : Prop :=
  ∃ limit, rules.manyLimit = some (.whole limit) ∧ limit ≠ 0 ∧ limit < count ∧
    nearestInt limit = nearestInt count

theorem merges_iff (h : rules.manyLimit = some (.whole limit)) :
    rules.Merges count
      ↔ limit ≠ 0 ∧ limit < count ∧ nearestInt limit = nearestInt count := by
  simp [Merges, h]

/-- A whole number below `2 ^ 53` has its double for itself. -/
theorem not_merges (h : count.natAbs < 2 ^ 53) : ¬ rules.Merges count := by
  rintro ⟨limit, -, -, hlt, hnearest⟩
  exact hlt.ne (eq_of_nearestInt_eq h hnearest)

/-- **As doubles a count is above the limit if it is as a whole number and has another double.** -/
theorem isMany_iff (hlimit : rules.WholeLimit) (hlow : -2 ^ 63 ≤ count) (hhigh : count < 2 ^ 63) :
    rules.isMany count = true ↔ rules.isAbove count = true ∧ ¬ rules.Merges count := by
  have hcount : count.natAbs ≤ 2 ^ 64 := by omega
  cases h : rules.manyLimit with
  | none => simp [isMany, PluralRules.limit, isAbove, h]
  | some n =>
    obtain ⟨limit, rfl, hl, hh⟩ := hlimit n h
    have hbound : limit.natAbs ≤ 2 ^ 64 := by omega
    have hdouble : (Json.Number.whole limit).toDouble = Float.ofInt limit := rfl
    rw [merges_iff h, isMany, PluralRules.limit, isAbove, h, Option.map_some, hdouble,
      Option.filter_some, ofInt_bne_zero hbound]
    by_cases hzero : limit = 0
    · simp [hzero]
    · simp only [hzero, ne_eq, not_false_eq_true, decide_true, if_true, decide_eq_true_iff,
        true_and, ofInt_lt_ofInt_iff hbound hcount]
      tauto

/-! ## The rule and the selection -/

/-- The text for many items is there and the count is above the limit, but the doubles do not tell
the two apart; and the text that is shown instead is another one. -/
def MissesMany (rules : PluralRules) (count : Int) : Prop :=
  rules.Merges count ∧
    ∃ text, rules.manyText = some text ∧ rules.otherText.map (countWritten · count) ≠ some text

/-- Where the doubles are not told apart, the rule gives the text for many items and the selection
the general one. -/
theorem select_of_merges (hmany : rules.isMany count = false) (hmerges : rules.Merges count) :
    rules.select count = rules.otherText.map (countWritten · count) ∧
      rules.tierText count = if rules.manyText ≠ none then rules.manyText
        else rules.otherText.map (countWritten · count) := by
  have hzero : count ≠ 0 := fun h => not_merges (by omega) hmerges
  have hone : count ≠ 1 := fun h => not_merges (by omega) hmerges
  have habove : rules.isAbove count = true := by
    obtain ⟨limit, hlimit, hne, hlt, -⟩ := hmerges
    simp [isAbove, hlimit, hne, hlt]
  rw [select_eq_textFor, hmany, tierText, habove]
  simp [textFor, hzero, hone]

theorem select_of_not_merges (hlimit : rules.WholeLimit) (hlow : -2 ^ 63 ≤ count)
    (hhigh : count < 2 ^ 63) (h : ¬ rules.Merges count) :
    rules.select count = rules.tierText count := by
  have hsame : rules.isMany count = rules.isAbove count := by
    rw [Bool.eq_iff_iff, isMany_iff hlimit hlow hhigh]
    exact and_iff_left h
  rw [select_eq_textFor, hsame, tierText]

/-- **The selection follows the tier rule, but for a count that is above the limit with the same
nearest double.** -/
theorem select_eq_tierText_iff (hlimit : rules.WholeLimit) (hlow : -2 ^ 63 ≤ count)
    (hhigh : count < 2 ^ 63) :
    rules.select count = rules.tierText count ↔ ¬ rules.MissesMany count := by
  by_cases hmerges : rules.Merges count
  · have hmany : rules.isMany count = false := by
      simpa [hmerges] using isMany_iff hlimit hlow hhigh
    obtain ⟨hselect, htier⟩ := select_of_merges hmany hmerges
    rw [hselect, htier, MissesMany]
    cases rules.manyText with
    | none => simp
    | some text => simp [hmerges]
  · exact iff_of_true (select_of_not_merges hlimit hlow hhigh hmerges)
      fun hmisses => hmerges hmisses.1

/-- The rule set with a limit of `2 ^ 53`, a text for many items and one for the others. -/
def atTwoPow : PluralRules where
  other := some "#"
  many := some "M"
  manyLimit := some (.whole (2 ^ 53))

theorem wholeLimit_atTwoPow : atTwoPow.WholeLimit := by
  rintro n ⟨⟩
  exact ⟨2 ^ 53, rfl, by decide, by decide⟩

/-- The next double behind the limit is told apart from it. -/
theorem select_eq_tierText_iff_atTwoPow :
    atTwoPow.WholeLimit ∧ atTwoPow.select (2 ^ 53 + 2) = atTwoPow.tierText (2 ^ 53 + 2) := by
  refine ⟨wholeLimit_atTwoPow,
    (select_eq_tierText_iff wholeLimit_atTwoPow (by decide) (by decide)).2 ?_⟩
  rintro ⟨hmerges, -⟩
  obtain ⟨-, -, hnearest⟩ := (merges_iff rfl).1 hmerges
  exact absurd hnearest (by decide +kernel)

/-- One item more than the limit is not: the rule asks for the text for many items. -/
theorem select_misses_many :
    atTwoPow.WholeLimit ∧ atTwoPow.select (2 ^ 53 + 1) = some "9007199254740993"
      ∧ atTwoPow.tierText (2 ^ 53 + 1) = some "M" :=
  ⟨wholeLimit_atTwoPow, by decide +kernel, by decide +kernel⟩

end PluralRules

end Phrasebook
