import Phrasebook.Proofs.KeySet
import Phrasebook.Proofs.Source.Grammar
import Phrasebook.Source.Extraction

/-!
# Proofs/Source/Extraction — what the filter can miss

The filter decides by the text alone whether a file is read.  Read or not, a text without usages
has no keys.  For a text with usages the filter must let it through, and it looks for plain places
of markers:

    __`a`           found
    __ `a`          missed, unless a marker stands plainly elsewhere in the text
    \u005f_`a`      missed likewise

Each usage has a place (`usages_shown`), so **the filter changes nothing in a text where every
place is plain**, and in general nothing exactly if one place is plain or the text mentions the
library (`keyUsages_filter`).
-/

namespace Phrasebook.Source

variable {markers : Markers} {path code : String} {list : List Usage}

/-- **Each usage of a text has a place there.** -/
theorem usages_shown (h : usages markers path code = .ok list) {usage : Usage}
    (husage : usage ∈ list) :
    ∃ place : Place, place.Shows (markers.name usage.kind) usage.kind.sign code.toList := by
  unfold usages at h
  split at h
  · next tree hparse =>
    cases h
    exact (Tree.Anchored.of_parse? hparse).usages usage husage
  · cases h

/-- The filter changes nothing exactly if there is nothing to find or the text gets through. -/
theorem keyUsages_eq_iff (h : usages markers path code = .ok list) :
    keyUsages markers true path code = keyUsages markers false path code ↔
      list = [] ∨ markers.mayOccurIn code = true := by
  have hread : keyUsages markers false path code = .ok (.ofList list) := by
    simp [keyUsages, h, Except.map]
  by_cases hmay : markers.mayOccurIn code = true
  · simp [keyUsages, hmay]
  · have hskipped : keyUsages markers true path code = .ok .empty := by simp [keyUsages, hmay]
    rw [hread, hskipped, Except.ok.injEq, eq_comm, KeyUsages.ofList_eq_empty_iff,
      or_iff_left hmay]

/-- **What the filter can miss.**  In a text that parses, each usage has a place: the name of its
marker, with or without escapes, a gap of blanks, comments and type arguments, and its sign.  The
filter keeps the keys of the text exactly if there are no usages, the text mentions the library, or
one place is plain; so it keeps them if all places are plain. -/
theorem keyUsages_filter (h : usages markers path code = .ok list) :
    (∀ usage ∈ list, ∃ place : Place,
      place.Shows (markers.name usage.kind) usage.kind.sign code.toList) ∧
    (keyUsages markers true path code = keyUsages markers false path code ↔
      list = [] ∨ libraryName.toList <:+: code.toList ∨
        ∃ (kind : Kind) (place : Place), place.Shows (markers.name kind) kind.sign code.toList ∧
          place.Plain (markers.name kind)) ∧
    ((∀ (kind : Kind) (place : Place), place.Shows (markers.name kind) kind.sign code.toList →
        place.Plain (markers.name kind)) →
      keyUsages markers true path code = keyUsages markers false path code) := by
  have hiff := (keyUsages_eq_iff h).trans (or_congr_right Markers.mayOccurIn_iff)
  refine ⟨fun usage husage => usages_shown h husage, hiff, fun hplain => hiff.mpr ?_⟩
  cases list with
  | nil => exact .inl rfl
  | cons usage list =>
    obtain ⟨place, hplace⟩ := usages_shown h (List.mem_cons_self (a := usage) (l := list))
    exact .inr (.inr ⟨usage.kind, place, hplace, hplain _ _ hplace⟩)

theorem keyUsages_filter_plain_scalar :
    let code := "x = __`a` + __p<T> /* n */ (2)`# b`;"
    usages {} "page.ts" code = .ok [⟨.scalar, ["a"]⟩, ⟨.plural, ["# b"]⟩] ∧
      (∃ place : Place, place.Shows "__p" '(' code.toList) ∧
      keyUsages {} true "page.ts" code = keyUsages {} false "page.ts" code := by
  intro code
  have h : usages {} "page.ts" code = .ok [⟨.scalar, ["a"]⟩, ⟨.plural, ["# b"]⟩] := by
    decide +kernel
  obtain ⟨hplaces, hiff, -⟩ := keyUsages_filter h
  have hplain : "__".toList ++ ['\x60'] <:+: code.toList := by decide +kernel
  exact ⟨h, hplaces ⟨.plural, ["# b"]⟩ (by simp),
    hiff.mpr (.inr (.inr ⟨.scalar, exists_plain_iff.mpr hplain⟩))⟩

/-- A blank in front of the template is enough for the filter to miss its key. -/
theorem keyUsages_filter_misses :
    keyUsages {} true "page.ts" "x = __ `a`;" ≠ keyUsages {} false "page.ts" "x = __ `a`;" := by
  decide +kernel

end Phrasebook.Source
