import Phrasebook.Proofs.Source.Place
import Mathlib.Data.List.TakeWhile

/-!
# Proofs/Source/Token — tokens and the text that they are read from

Reading a token takes a piece off the front of a text.  **The piece of a sign is the sign, and the
piece of a word spells it** (`readFrom_readToken`); in front of it stand blanks (`start_cut`).  All
other readers are only asked to leave the end of their text.
-/

namespace Phrasebook.Source

/-! ## Blanks -/

/-- What a text in front of a token is, by what it starts inside of. -/
def BlankMode.Behind : BlankMode → List Char → Prop
  | .plain, gap => Blanks gap
  | .lineComment, gap => Blanks ('/' :: '/' :: gap)
  | .blockComment, gap => Blanks ('/' :: '*' :: gap)

theorem isSpace_slash : isSpace '/' = false := by
  rw [isSpace]
  decide

theorem isLineEnd_slash : isLineEnd '/' = false := by decide

theorem Blanks.lineComment_cons {c : Char} {gap : List Char} (hc : isLineEnd c = false)
    (h : Blanks ('/' :: '/' :: gap)) : Blanks ('/' :: '/' :: c :: gap) := by
  generalize htext : '/' :: '/' :: gap = text at h
  cases h with
  | nil => cases htext
  | blank hblank =>
    cases htext
    simp [isSpace_slash, isLineEnd_slash] at hblank
  | line words hwords hend hrest =>
    cases htext
    exact .line (c :: words) (by simpa [hc] using hwords) hend hrest
  | block => cases htext

theorem Blanks.blockComment_cons {c : Char} {gap : List Char}
    (hc : ¬ ['*', '/'] <+: c :: gap) (h : Blanks ('/' :: '*' :: gap)) :
    Blanks ('/' :: '*' :: c :: gap) := by
  generalize htext : '/' :: '*' :: gap = text at h
  cases h with
  | nil => cases htext
  | blank hblank =>
    cases htext
    simp [isSpace_slash, isLineEnd_slash] at hblank
  | line => cases htext
  | block words hwords hrest =>
    cases htext
    refine .block (c :: words) ?_ hrest
    rw [List.infix_cons_iff, not_or]
    exact ⟨fun hp => hc (hp.trans (List.prefix_append _ _)), hwords⟩

theorem behind_step {mode mode' : BlankMode} (piece : List Char) {rest here : List Char}
    (h : ∃ gap, mode.Behind gap ∧ rest = gap ++ here)
    (hstep : ∀ gap, rest = gap ++ here → mode.Behind gap → mode'.Behind (piece ++ gap)) :
    ∃ gap, mode'.Behind gap ∧ piece ++ rest = gap ++ here := by
  obtain ⟨gap, hgap, rfl⟩ := h
  exact ⟨piece ++ gap, hstep gap rfl hgap, by simp⟩

/-- Only blanks are skipped on the way to a token. -/
theorem skipBlanks_behind {mode : BlankMode} {ended : Bool} {text : List Char} :
    ∀ {ended' : Bool} {here : List Char}, skipBlanks mode ended text = some (ended', here) →
      here ≠ [] → ∃ gap, mode.Behind gap ∧ text = gap ++ here := by
  fun_induction skipBlanks mode ended text with
  | case1 => intro _ _ h; cases h
  | case2 => intro _ _ h hne; cases h; exact absurd rfl hne
  | case3 ended c rest hc ih =>
    intro _ _ h hne
    exact behind_step [c] (ih h hne) fun gap _ => .blank (.inl hc)
  | case4 ended c rest _ hc ih =>
    intro _ _ h hne
    exact behind_step [c] (ih h hne) fun gap _ => .blank (.inr hc)
  | case5 ended rest _ _ ih =>
    intro _ _ h hne
    exact behind_step ['/', '/'] (ih h hne) fun gap _ hgap => hgap
  | case6 ended rest _ _ ih =>
    intro _ _ h hne
    exact behind_step ['/', '*'] (ih h hne) fun gap _ hgap => hgap
  | case7 | case8 => intro _ _ h _; cases h; exact ⟨[], .nil, rfl⟩
  | case9 ended c rest hc ih =>
    intro _ _ h hne
    exact behind_step [c] (ih h hne) fun gap _ => .line [] (by simp) hc
  | case10 ended c rest hc ih =>
    intro _ _ h hne
    exact behind_step [c] (ih h hne) fun gap _ => .lineComment_cons (by simpa using hc)
  | case11 ended rest ih =>
    intro _ _ h hne
    exact behind_step ['*', '/'] (ih h hne) fun gap _ => .block [] (by simp)
  | case12 ended rest hslash ih =>
    intro _ here h hne
    refine behind_step ['*'] (ih h hne) fun gap hgap => .blockComment_cons ?_
    rintro ⟨more, hmore⟩
    simp only [List.cons_append, List.nil_append, List.cons.injEq, true_and] at hmore
    exact hslash (more ++ here) (by rw [hgap, ← hmore]; rfl)
  | case13 ended c rest hc ih =>
    intro _ _ h hne
    refine behind_step [c] (ih h hne) fun gap _ => .blockComment_cons ?_
    exact fun hp => hc (List.cons_prefix_cons.mp hp).1.symm

theorem skipBlanks_suffix {mode : BlankMode} {ended ended' : Bool} {text here : List Char}
    (h : skipBlanks mode ended text = some (ended', here)) : here <:+ text := by
  obtain rfl | hne := eq_or_ne here []
  · exact List.nil_suffix
  · obtain ⟨gap, -, rfl⟩ := skipBlanks_behind h hne
    exact List.suffix_append gap here

/-! ## Words -/

/-- The characters of an escape are an escape of their own. -/
theorem unicodeEscape?_cut {text rest : List Char} {point : Nat}
    (h : unicodeEscape? text = some (point, rest)) :
    ∃ digits, text = digits ++ rest ∧ unicodeEscape? digits = some (point, []) := by
  unfold unicodeEscape? at h
  split at h
  · next more =>
    dsimp only at h
    split at h
    · next digits number dropped first others point' close after hdigits hnumber hafter =>
      split at h
      · next hpoint =>
        cases h
        have hinside : ∀ c ∈ first :: others, decide (c ≠ '\x7d') = true := by
          rw [← hdigits]
          exact fun c => List.mem_takeWhile_imp
        have hclose : decide (close ≠ '\x7d') = false := by
          have := List.head?_dropWhile_not (fun c => decide (c ≠ '\x7d')) more
          rwa [hafter] at this
        refine ⟨'\x7b' :: (first :: others) ++ [close], ?_, ?_⟩
        · rw [← List.takeWhile_append_dropWhile (p := fun c => decide (c ≠ '\x7d')) (l := more),
            hdigits, hafter]
          simp
        · rw [hdigits] at hnumber
          rw [List.cons_append, unicodeEscape?, List.takeWhile_append_of_pos hinside,
            List.dropWhile_append_of_pos hinside, List.takeWhile_cons_of_neg (by simp [hclose]),
            List.dropWhile_cons_of_neg (by simp [hclose]), List.append_nil, hnumber]
          exact if_pos hpoint
      · cases h
    · cases h
  · next a b c d more hopen =>
    rw [Option.map_eq_some_iff] at h
    obtain ⟨point', hpoint, h⟩ := h
    cases h
    refine ⟨[a, b, c, d], rfl, ?_⟩
    rw [unicodeEscape?, hpoint]
    · rfl
    · exact hopen
  · cases h

theorem nameTail_spells {bound text : List Char} :
    ∀ {chars : List Char} {escaped : Bool} {rest : List Char},
      nameTail bound text = (some chars, escaped, rest) →
        ∃ spelling, text = spelling ++ rest ∧ Spells spelling chars := by
  fun_induction nameTail bound text with
  | case1 | case2 | case7 => rintro _ _ _ ⟨⟩; exact ⟨[], rfl, .nil⟩
  | case3 _ bound text point more hescape tail _ rest htail _ ih =>
    rintro chars _ _ h
    obtain ⟨digits, rfl, hdigits⟩ := unicodeEscape?_cut hescape
    cases tail with
    | none => cases h
    | some tail =>
      cases h
      obtain ⟨spelling, rfl, hspells⟩ := ih htail
      exact ⟨'\\' :: 'u' :: digits ++ spelling, by simp, .escaped hdigits hspells⟩
  | case4 | case5 => rintro _ _ _ ⟨⟩
  | case6 _ bound c text _ _ tail escaped rest htail ih =>
    rintro chars _ _ h
    cases tail with
    | none => cases h
    | some tail =>
      cases h
      obtain ⟨spelling, rfl, hspells⟩ := ih htail
      exact ⟨c :: spelling, rfl, .plain c hspells⟩

theorem nameTail_suffix (bound text : List Char) : (nameTail bound text).2.2 <:+ text := by
  fun_induction nameTail bound text with
  | case1 | case2 | case7 => exact List.suffix_rfl
  | case3 _ bound text point more hescape tail _ rest htail _ ih
  | case4 _ bound text point more hescape tail _ rest htail _ ih =>
    obtain ⟨digits, rfl, -⟩ := unicodeEscape?_cut hescape
    rw [htail] at ih
    exact ih.trans ⟨'\\' :: 'u' :: digits, rfl⟩
  | case5 => exact ⟨['\\', 'u'], rfl⟩
  | case6 _ bound c text _ _ tail escaped rest htail ih =>
    rw [htail] at ih
    exact ih.trans (List.suffix_cons c text)

/-! ## Readers that only leave the end of their text -/

theorem suffix_cons_of_suffix {c : Char} {rest text : List Char} (h : rest <:+ text) :
    rest <:+ c :: text := h.trans (List.suffix_cons c text)

theorem unicodeEscape?_suffix {text rest : List Char} {point : Nat}
    (h : unicodeEscape? text = some (point, rest)) : rest <:+ text := by
  obtain ⟨digits, rfl, -⟩ := unicodeEscape?_cut h
  exact List.suffix_append digits rest

theorem escape?_suffix {text rest : List Char} {points : List Nat}
    (h : escape? text = some (points, rest)) : rest <:+ text := by
  unfold escape? at h
  grind [suffix_cons_of_suffix, unicodeEscape?_suffix, Option.map_eq_some_iff]

theorem textTail_suffix {quote : Char} {bound text : List Char} :
    ∀ {chars rest : List Char}, textTail quote bound text = some (chars, rest) → rest <:+ text := by
  fun_induction textTail quote bound text <;>
    grind [suffix_cons_of_suffix, escape?_suffix, List.IsSuffix.trans, Option.map_eq_some_iff]

theorem readChunk_suffix {bound text : List Char} :
    ∀ {chunk : Chunk}, readChunk bound text = some chunk → chunk.rest <:+ text := by
  fun_induction readChunk bound text <;>
    grind [suffix_cons_of_suffix, escape?_suffix, List.IsSuffix.trans, Option.map_eq_some_iff,
      Chunk.prepend]

theorem skipPattern_suffix {inClass : Bool} {text : List Char} :
    ∀ {rest : List Char}, skipPattern inClass text = some rest → rest <:+ text := by
  fun_induction skipPattern inClass text <;>
    grind [suffix_cons_of_suffix, List.dropWhile_suffix, List.IsSuffix.trans]

/-- A number that was read, or an attempt at one, and the text behind it. -/
structure IsNumeric (text : List Char) (out : Token × List Char) : Prop where
  token : out.1 = .number ∨ out.1 = .bad
  rest : out.2 <:+ text

theorem IsNumeric.of_suffix {text more : List Char} {out : Token × List Char}
    (h : IsNumeric more out) (hsuffix : more <:+ text) : IsNumeric text out :=
  ⟨h.token, h.rest.trans hsuffix⟩

theorem isNumeric_bad {text rest : List Char} (h : rest <:+ text) : IsNumeric text (.bad, rest) :=
  ⟨.inr rfl, h⟩

theorem isNumeric_endNumber (text : List Char) : IsNumeric text (endNumber text) := by
  unfold endNumber
  split
  · exact isNumeric_bad List.suffix_rfl
  · exact ⟨.inl rfl, List.suffix_rfl⟩

theorem isNumeric_endWhole (text : List Char) : IsNumeric text (endWhole text) := by
  unfold endWhole
  split
  · exact (isNumeric_endNumber _).of_suffix (List.suffix_cons _ _)
  · exact isNumeric_endNumber _

theorem isNumeric_readExponent (text : List Char) : IsNumeric text (readExponent text) := by
  unfold readExponent
  grind [isNumeric_bad, isNumeric_endNumber, IsNumeric.of_suffix, suffix_cons_of_suffix,
    List.dropWhile_suffix]

theorem isNumeric_readNumber (text : List Char) : IsNumeric text (readNumber text) := by
  unfold readNumber
  grind [isNumeric_bad, isNumeric_endNumber, isNumeric_endWhole, isNumeric_readExponent,
    IsNumeric.of_suffix, suffix_cons_of_suffix, List.dropWhile_suffix]

/-! ## Tokens -/

/-- The piece of a text that a token is read from. -/
def Token.WrittenBy (piece : List Char) : Token → Prop
  | .sign content => piece = content.toList
  | .word content _ => Spells piece content.toList
  | _ => True

/-- The token is written in front of the text behind it. -/
def ReadFrom (text : List Char) (out : Token × List Char) : Prop :=
  ∃ piece, text = piece ++ out.2 ∧ out.1.WrittenBy piece

theorem IsNumeric.readFrom {text : List Char} {out : Token × List Char} (h : IsNumeric text out) :
    ReadFrom text out := by
  obtain ⟨piece, hpiece⟩ := h.rest
  refine ⟨piece, hpiece.symm, ?_⟩
  obtain htoken | htoken := h.token <;> rw [htoken] <;> trivial

theorem readFrom_bad {text rest : List Char} (h : rest <:+ text) : ReadFrom text (.bad, rest) :=
  (isNumeric_bad h).readFrom

theorem ReadFrom.suffix {text : List Char} {out : Token × List Char} (h : ReadFrom text out) :
    out.2 <:+ text := by
  obtain ⟨piece, hpiece, -⟩ := h
  exact ⟨piece, hpiece.symm⟩

theorem readFrom_readName (text : List Char) : ReadFrom text (readName text) := by
  unfold readName
  split
  · next chars escaped rest h =>
    obtain ⟨spelling, hcut, hspells⟩ := nameTail_spells h
    exact ⟨spelling, hcut, by rwa [Token.WrittenBy, String.toList_ofList]⟩
  · next escaped rest h =>
    have hrest := nameTail_suffix text text
    rw [h] at hrest
    exact readFrom_bad hrest

theorem readFrom_readText (quote : Char) (rest : List Char) :
    ReadFrom (quote :: rest) (readText quote rest) := by
  unfold readText
  split
  · next chars more h =>
    obtain ⟨piece, hpiece⟩ := suffix_cons_of_suffix (c := quote) (textTail_suffix h)
    exact ⟨piece, hpiece.symm, trivial⟩
  · exact readFrom_bad (List.suffix_cons _ _)

theorem readFrom_readSign (text : List Char) : ReadFrom text (readSign text) := by
  unfold readSign
  split
  · next sign h =>
    have hprefix : sign.toList <+: text := by simpa using List.find?_some h
    obtain ⟨rest, rfl⟩ := hprefix
    exact ⟨sign.toList, by rw [← String.length_toList, List.drop_left], rfl⟩
  · split
    · next c rest _ =>
      split
      · exact ⟨['?'], rfl, rfl⟩
      · exact ⟨['?', '.'], rfl, rfl⟩
    · exact ⟨['?', '.'], rfl, rfl⟩
    · next c rest _ _ _ =>
      split
      · exact ⟨[c], rfl, by rw [Token.WrittenBy, String.toList_ofList]⟩
      · exact readFrom_bad (List.suffix_cons c rest)
    · exact readFrom_bad List.suffix_rfl

/-- **A sign is read from itself, and a word from what spells it.** -/
theorem readFrom_readToken (text : List Char) : ReadFrom text (readToken text) := by
  unfold readToken
  split
  · exact ⟨[], rfl, trivial⟩
  · exact readFrom_readText _ _
  · exact readFrom_readText _ _
  · split
    · exact (isNumeric_readNumber _).readFrom
    · exact readFrom_readSign _
  · next rest =>
    split
    · obtain ⟨piece, hpiece⟩ := suffix_cons_of_suffix (c := '#') (readFrom_readName rest).suffix
      split
      · next h =>
        rw [h] at hpiece
        exact ⟨piece, hpiece.symm, trivial⟩
      · next h =>
        exact readFrom_bad ⟨piece, by simpa only [h] using hpiece⟩
    · exact readFrom_bad (List.suffix_cons _ _)
  · split
    · exact (isNumeric_readNumber _).readFrom
    · split
      · exact readFrom_readName _
      · exact readFrom_readSign _

/-! ## The first token of a text -/

theorem start_here_suffix (text : List Char) : (Cursor.start text).here <:+ text := by
  unfold Cursor.start
  split
  · exact List.suffix_rfl
  · next ended here h => exact skipBlanks_suffix h

theorem start_after_suffix_here (text : List Char) :
    (Cursor.start text).after <:+ (Cursor.start text).here := by
  unfold Cursor.start
  split
  · exact List.nil_suffix
  · exact (readFrom_readToken _).suffix

theorem start_after_suffix (text : List Char) : (Cursor.start text).after <:+ text :=
  (start_after_suffix_here text).trans (start_here_suffix text)

/-- What stands in front of the text behind the first token: blanks, and what writes the token. -/
theorem start_cut (text : List Char) (hend : (Cursor.start text).token ≠ .ending)
    (hbad : (Cursor.start text).token ≠ .bad) :
    ∃ gap piece, Blanks gap ∧ (Cursor.start text).token.WrittenBy piece ∧
      text = gap ++ piece ++ (Cursor.start text).after := by
  cases hskip : skipBlanks .plain false text with
  | none => exact absurd (by rw [Cursor.start, hskip]) hbad
  | some out =>
    obtain ⟨ended, here⟩ := out
    have hstart : Cursor.start text =
        { token := (readToken here).1, here, after := (readToken here).2, lineEnded := ended } := by
      rw [Cursor.start, hskip]
    have hne : here ≠ [] := by
      rintro rfl
      exact hend (by rw [hstart]; rfl)
    obtain ⟨gap, hgap, rfl⟩ := skipBlanks_behind hskip hne
    obtain ⟨piece, hpiece, hwrites⟩ := readFrom_readToken here
    rw [hstart]
    exact ⟨gap, piece, hgap, hwrites, by rw [List.append_assoc, ← hpiece]⟩

/-- A text that starts with a sign. -/
theorem start_sign {text : List Char} {sign : String}
    (h : (Cursor.start text).token = .sign sign) :
    ∃ gap, Blanks gap ∧ text = gap ++ sign.toList ++ (Cursor.start text).after := by
  obtain ⟨gap, piece, hgap, hwrites, hcut⟩ := start_cut text (by simp [h]) (by simp [h])
  rw [h] at hwrites
  cases hwrites
  exact ⟨gap, hgap, hcut⟩

/-- A text that starts with a word. -/
theorem start_word {text : List Char} {word : String} {escaped : Bool}
    (h : (Cursor.start text).token = .word word escaped) :
    ∃ gap spelling, Blanks gap ∧ Spells spelling word.toList ∧
      text = gap ++ spelling ++ (Cursor.start text).after := by
  obtain ⟨gap, spelling, hgap, hwrites, hcut⟩ := start_cut text (by simp [h]) (by simp [h])
  rw [h] at hwrites
  exact ⟨gap, spelling, hgap, hwrites, hcut⟩

end Phrasebook.Source
