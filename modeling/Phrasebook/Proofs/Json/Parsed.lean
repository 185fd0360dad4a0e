import Phrasebook.Proofs.Json.NumberText
import Phrasebook.Proofs.Json.Values

/-!
# Proofs/Json/Parsed — what holds of every value that was read

A value that was read nests less deep than the reader goes and names no field twice, and each of its
numbers came from the scanner of numbers.
-/

namespace Phrasebook.Json

section Scanned

variable {α β : Type} {scanned : Scanned α} {rest : List Char}

theorem Scanned.andThen_eq_ok {next : α → List Char → Scanned β} {result : β}
    (h : scanned.andThen next = .ok (result, rest)) :
    ∃ middle behind, scanned = .ok (middle, behind) ∧ next middle behind = .ok (result, rest) := by
  cases scanned with
  | error fault => cases h
  | ok read => exact ⟨read.1, read.2, rfl, h⟩

theorem Scanned.change_eq_ok {f : α → β} {result : β}
    (h : scanned.change f = .ok (result, rest)) :
    ∃ before, scanned = .ok (before, rest) ∧ f before = result := by
  obtain ⟨before, behind, hscanned, hok⟩ := Scanned.andThen_eq_ok h
  cases hok
  exact ⟨before, hscanned, rfl⟩

end Scanned

open Scan

/-- What holds of every number that the scanner gives. -/
def Scan.HoldsOfNumbers (p : Number → Prop) : Prop :=
  ∀ negative text n rest, Scan.number negative text = .ok (n, rest) → p n

/-- What is read of a list or an object, or of the rest of one, with this much fuel. -/
structure Scan.ReadsWell (p : Number → Prop) (fuel : Nat) : Prop where
  value : ∀ {depth text v rest}, Scan.value fuel depth text = .ok (v, rest) →
    v.Fits depth ∧ ∀ n ∈ v.numbers, p n
  items : ∀ {depth first text vs rest}, Scan.items fuel depth first text = .ok (vs, rest) →
    FitItems depth vs ∧ ∀ n ∈ numbersOfItems vs, p n
  item : ∀ {depth text vs rest}, Scan.item fuel depth text = .ok (vs, rest) →
    FitItems depth vs ∧ ∀ n ∈ numbersOfItems vs, p n
  fields : ∀ {depth first read text fs rest}, (Fields.names read).Nodup → FitFields depth read →
    (∀ n ∈ numbersOfFields read, p n) →
    Scan.fields fuel depth first read text = .ok (fs, rest) →
    (Fields.names fs).Nodup ∧ FitFields depth fs ∧ ∀ n ∈ numbersOfFields fs, p n
  field : ∀ {depth read text fs rest}, (Fields.names read).Nodup → FitFields depth read →
    (∀ n ∈ numbersOfFields read, p n) →
    Scan.field fuel depth read text = .ok (fs, rest) →
    (Fields.names fs).Nodup ∧ FitFields depth fs ∧ ∀ n ∈ numbersOfFields fs, p n

theorem fitFields_put {depth : Nat} {name : String} {v : Json} {fields : List (String × Json)}
    (hv : v.Fits depth) (h : FitFields depth fields) :
    FitFields depth (Fields.put name v fields) := by
  induction fields with
  | nil => exact ⟨hv, trivial⟩
  | cons field fields ih =>
    rw [Fields.put]
    split
    · exact ⟨hv, h.2⟩
    · exact ⟨h.1, ih h.2⟩

theorem forall_numbersOfFields_put {p : Number → Prop} {name : String} {v : Json}
    {fields : List (String × Json)} (hv : ∀ n ∈ v.numbers, p n)
    (h : ∀ n ∈ numbersOfFields fields, p n) :
    ∀ n ∈ numbersOfFields (Fields.put name v fields), p n := by
  induction fields with
  | nil => simpa [Fields.put, numbersOfFields] using hv
  | cons field fields ih =>
    have hrest : ∀ n ∈ numbersOfFields fields, p n := fun n hn =>
      h n (by simp [numbersOfFields, hn])
    have hhead : ∀ n ∈ field.2.numbers, p n := fun n hn => h n (by simp [numbersOfFields, hn])
    rw [Fields.put]
    split
    · intro n hn
      rcases List.mem_append.1 hn with hn | hn
      · exact hv n hn
      · exact hrest n hn
    · intro n hn
      rcases List.mem_append.1 hn with hn | hn
      · exact hhead n hn
      · exact ih hrest n hn

section Steps

variable {p : Number → Prop} {fuel depth : Nat} {first : Bool} {text rest : List Char} {v : Json}
  {vs : List Json} {read fs : List (String × Json)}

theorem fits_of_value (hp : HoldsOfNumbers p) (ih : ReadsWell p fuel)
    (h : Scan.value (fuel + 1) depth text = .ok (v, rest)) :
    v.Fits depth ∧ ∀ n ∈ v.numbers, p n := by
  rw [Scan.value] at h
  split at h
  · cases h
  · obtain ⟨_, -, rfl⟩ := Scanned.change_eq_ok h
    simp [Fits, numbers]
  · obtain ⟨_, -, rfl⟩ := Scanned.change_eq_ok h
    simp [Fits, numbers]
  · obtain ⟨_, -, rfl⟩ := Scanned.change_eq_ok h
    simp [Fits, numbers]
  · obtain ⟨n, hread, rfl⟩ := Scanned.change_eq_ok h
    simpa [Fits, numbers] using hp _ _ _ _ hread
  · obtain ⟨_, -, rfl⟩ := Scanned.change_eq_ok h
    simp [Fits, numbers]
  · split at h
    · cases h
    · obtain ⟨vs, hread, rfl⟩ := Scanned.change_eq_ok h
      obtain ⟨hfit, hn⟩ := ih.items hread
      exact ⟨⟨by omega, hfit⟩, hn⟩
  · split at h
    · cases h
    · obtain ⟨fs, hread, rfl⟩ := Scanned.change_eq_ok h
      have hnodup : (Fields.names ([] : List (String × Json))).Nodup := List.nodup_nil
      obtain ⟨hd, hfit, hn⟩ := ih.fields hnodup trivial
        (fun _ hmem => absurd hmem List.not_mem_nil) hread
      exact ⟨⟨by omega, hd, hfit⟩, hn⟩
  · split at h
    · obtain ⟨n, hread, rfl⟩ := Scanned.change_eq_ok h
      simpa [Fits, numbers] using hp _ _ _ _ hread
    · cases h

theorem fitItems_of_items (ih : ReadsWell p fuel)
    (h : Scan.items (fuel + 1) depth first text = .ok (vs, rest)) :
    FitItems depth vs ∧ ∀ n ∈ numbersOfItems vs, p n := by
  rw [Scan.items] at h
  split at h
  · cases h
  · cases h
    exact ⟨trivial, fun _ hmem => absurd hmem List.not_mem_nil⟩
  · split at h
    · exact ih.item h
    · split at h
      · split at h
        · cases h
        · cases h
        · exact ih.item h
      · cases h

theorem fitItems_of_item (ih : ReadsWell p fuel)
    (h : Scan.item (fuel + 1) depth text = .ok (vs, rest)) :
    FitItems depth vs ∧ ∀ n ∈ numbersOfItems vs, p n := by
  rw [Scan.item] at h
  obtain ⟨v, behind, hv, h⟩ := Scanned.andThen_eq_ok h
  obtain ⟨vs, hvs, rfl⟩ := Scanned.change_eq_ok h
  refine ⟨⟨(ih.value hv).1, (ih.items hvs).1⟩, ?_⟩
  intro n hn
  exact (List.mem_append.1 hn).elim ((ih.value hv).2 n) ((ih.items hvs).2 n)

theorem fitFields_of_fields (ih : ReadsWell p fuel) (hd : (Fields.names read).Nodup)
    (hfit : FitFields depth read) (hn : ∀ n ∈ numbersOfFields read, p n)
    (h : Scan.fields (fuel + 1) depth first read text = .ok (fs, rest)) :
    (Fields.names fs).Nodup ∧ FitFields depth fs ∧ ∀ n ∈ numbersOfFields fs, p n := by
  rw [Scan.fields] at h
  split at h
  · cases h
  · cases h
    exact ⟨hd, hfit, hn⟩
  · split at h
    · split at h
      · exact ih.field hd hfit hn h
      · cases h
    · split at h
      · split at h
        · cases h
        · exact ih.field hd hfit hn h
        · cases h
        · cases h
      · cases h

theorem fitFields_of_field (ih : ReadsWell p fuel) (hd : (Fields.names read).Nodup)
    (hfit : FitFields depth read) (hn : ∀ n ∈ numbersOfFields read, p n)
    (h : Scan.field (fuel + 1) depth read text = .ok (fs, rest)) :
    (Fields.names fs).Nodup ∧ FitFields depth fs ∧ ∀ n ∈ numbersOfFields fs, p n := by
  rw [Scan.field] at h
  obtain ⟨name, behind, -, h⟩ := Scanned.andThen_eq_ok h
  split at h
  · cases h
  · obtain ⟨v, rest, hv, h⟩ := Scanned.andThen_eq_ok h
    obtain ⟨hfits, hnumbers⟩ := ih.value hv
    exact ih.fields (Fields.nodup_names_put hd) (fitFields_put hfits hfit)
      (forall_numbersOfFields_put hnumbers hn) h
  · cases h

end Steps

/-- **Whatever the fuel, what is read fits.** -/
theorem Scan.readsWell {p : Number → Prop} (hp : HoldsOfNumbers p) (fuel : Nat) :
    ReadsWell p fuel := by
  induction fuel with
  | zero =>
    -- without fuel nothing is read
    constructor
    · intro _ _ _ _ h
      rw [Scan.value] at h
      cases h
    · intro _ _ _ _ _ h
      rw [Scan.items] at h
      cases h
    · intro _ _ _ _ h
      rw [Scan.item] at h
      cases h
    · intro _ _ _ _ _ _ _ _ _ h
      rw [Scan.fields] at h
      cases h
    · intro _ _ _ _ _ _ _ _ h
      rw [Scan.field] at h
      cases h
  | succ fuel ih =>
    constructor
    · exact fits_of_value hp ih
    · exact fitItems_of_items ih
    · exact fitItems_of_item ih
    · exact fitFields_of_fields ih
    · exact fitFields_of_field ih

/-- **What a text holds fits the reader**, and its numbers are numbers that the scanner gives. -/
theorem fits_of_parse {p : Number → Prop} (hp : HoldsOfNumbers p) {text : String} {v : Json}
    (h : parse text = .ok v) : v.Fits depthLimit ∧ ∀ n ∈ v.numbers, p n := by
  rw [parse] at h
  split at h
  · rename_i result hread
    cases h
    cases hvalue : Scan.value (4 * text.toList.length + 4) depthLimit text.toList with
    | error fault =>
      rw [hvalue] at hread
      cases hread
    | ok read =>
      obtain ⟨v, rest⟩ := read
      rw [hvalue, finish] at hread
      split at hread
      · cases hread
        exact (readsWell hp _).value hvalue
      · cases hread
  · cases h

/-! ## Where numbers come from -/

/-- What holds of whole numbers of 64 bits and of every double that the scanner makes. -/
structure Scan.HoldsOfParts (p : Number → Prop) : Prop where
  whole : ∀ {value}, (Number.whole value).InRange → p (.whole value)
  /-- A whole number below the range. -/
  below : ∀ {significand}, significand ≤ wholeLimit → p (.double (-(Float.ofNat significand)))
  /-- A number whose exponent is far below the range. -/
  zero : ∀ negative : Bool, p (.double (if negative then -0.0 else 0.0))
  scaled : ∀ {significand exponent value}, significand ≤ wholeLimit →
    scaleInto 8 (Float.ofNat significand) exponent = some value →
    ∀ negative : Bool, p (.double (if negative then -value else value))

section Parts

variable {p : Number → Prop} {negative : Bool} {significand count skipped : Nat}
  {start exponent : Int} {text rest : List Char} {n : Number}

theorem takeDigits_le (h : significand ≤ wholeLimit) :
    (takeDigits significand count text).1 ≤ wholeLimit := by
  induction text generalizing significand count with
  | nil => exact h
  | cons c text ih =>
    rw [takeDigits]
    split
    · rename_i hfits
      exact ih hfits.2
    · exact h

theorem double_holds (hp : HoldsOfParts p) (hle : significand ≤ wholeLimit)
    (h : double negative significand exponent text = .ok (n, rest)) : p n := by
  rw [double] at h
  split at h
  · rename_i hscaled
    cases h
    exact hp.scaled hle hscaled negative
  · cases h

theorem exponentPart_holds (hp : HoldsOfParts p) (hle : significand ≤ wholeLimit)
    (h : exponentPart negative significand start text = .ok (n, rest)) : p n := by
  rw [exponentPart] at h
  dsimp only at h
  split at h
  · cases h
  · split at h
    · split at h
      · exact double_holds hp hle h
      · split at h
        · cases h
        · cases h
          exact hp.zero negative
    · cases h

theorem fractionPart_holds (hp : HoldsOfParts p) (hle : significand ≤ wholeLimit)
    (h : fractionPart negative significand start text = .ok (n, rest)) : p n := by
  have hdigits : (takeDigits significand 0 text).1 ≤ wholeLimit := takeDigits_le hle
  rw [fractionPart] at h
  dsimp only at h
  split at h
  · split at h <;> cases h
  · split at h
    · exact exponentPart_holds hp hdigits h
    · exact exponentPart_holds hp hdigits h
    · exact double_holds hp hdigits h

theorem wholeNumber_holds (hp : HoldsOfParts p) (hle : significand ≤ wholeLimit) :
    p (wholeNumber negative significand) := by
  have hlimit : wholeLimit = 2 ^ 64 - 1 := rfl
  rw [wholeNumber]
  split
  · exact hp.whole ⟨by omega, by omega⟩
  · split
    · rename_i hfits
      have hpow : Nat.pow 2 63 = 2 ^ 63 := rfl
      exact hp.whole ⟨by omega, by omega⟩
    · exact hp.below hle

theorem numberTail_holds (hp : HoldsOfParts p) (hle : significand ≤ wholeLimit)
    (h : numberTail negative significand skipped text = .ok (n, rest)) : p n := by
  rw [numberTail.eq_def] at h
  split at h
  · exact fractionPart_holds hp hle h
  · exact exponentPart_holds hp hle h
  · exact exponentPart_holds hp hle h
  · split at h
    · cases h
      exact wholeNumber_holds hp hle
    · exact double_holds hp hle h

end Parts

/-- **Numbers come from whole numbers of 64 bits and from scaled doubles alone.** -/
theorem Scan.HoldsOfParts.holdsOfNumbers {p : Number → Prop} (hp : HoldsOfParts p) :
    HoldsOfNumbers p := by
  intro negative text n rest h
  cases text with
  | nil => cases h
  | cons c text =>
    by_cases hzero : c = '0'
    · subst hzero
      rw [Scan.number] at h
      split at h
      · cases h
      · exact numberTail_holds hp (Nat.zero_le _) h
    cases hc : c.isDigit with
    | false =>
      rw [number_other hc] at h
      cases h
    | true =>
      rw [number_digit hzero hc] at h
      exact numberTail_holds hp (takeDigits_le (Nat.zero_le _)) h

/-- **Whole numbers that were read have 64 bits.** -/
theorem holdsOfNumbers_inRange : HoldsOfNumbers Number.InRange :=
  HoldsOfParts.holdsOfNumbers
    { whole := id, below := fun _ => trivial, zero := fun _ => trivial,
      scaled := fun _ _ _ => trivial }

end Phrasebook.Json
