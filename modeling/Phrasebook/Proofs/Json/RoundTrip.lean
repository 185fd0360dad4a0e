import Phrasebook.Proofs.Json.NumberText
import Phrasebook.Proofs.Json.Strings
import Phrasebook.Proofs.Json.Values

/-!
# Proofs/Json/RoundTrip — a written value reads back

A value that nests less deep than the reader goes and names no field twice reads back as itself, up
to its numbers: each number becomes what its own text is read as (`parse_pretty`).  The induction
follows the value; lists and objects carry it along what is left of them behind each comma.
-/

namespace Phrasebook.Json

open Scan

/-! ## Blanks -/

theorem skipBlanks_blank {c : Char} (hc : isBlank c = true) (text : List Char) :
    skipBlanks (c :: text) = skipBlanks text := by simp [skipBlanks, hc]

theorem skipBlanks_eq_nil {text : List Char} (h : ∀ c ∈ text, isBlank c = true) :
    skipBlanks text = [] := by
  induction text with
  | nil => rfl
  | cons c text ih =>
    rw [skipBlanks_blank (h c (by simp))]
    exact ih fun d hd => h d (List.mem_cons_of_mem c hd)

theorem skipBlanks_newline (depth : Nat) (text : List Char) :
    skipBlanks ((newline depth).toList ++ text) = skipBlanks text := by
  have hspaces : ∀ n, skipBlanks (List.replicate n ' ' ++ text) = skipBlanks text := by
    intro n
    induction n with
    | zero => rfl
    | succ n ih => rw [List.replicate_succ, List.cons_append, skipBlanks_blank (by decide), ih]
  have hline : (newline depth).toList = '\n' :: List.replicate (2 * depth) ' ' := by simp [newline]
  rw [hline, List.cons_append, skipBlanks_blank (by decide), hspaces]

/-- What closes a list or an object starts with a line break. -/
theorem endsNumber_newline (depth : Nat) (text : List Char) :
    EndsNumber ((newline depth).toList ++ text) := by
  intro c tail h
  have hc : c = '\n' := by
    rw [newline, String.toList_append] at h
    exact (List.cons.inj h).1.symm
  subst hc
  decide

theorem endsNumber_comma (text : List Char) : EndsNumber (',' :: text) := by
  intro c tail h
  obtain rfl := (List.cons.inj h).1
  decide

theorem value_blank {c : Char} (hc : isBlank c = true) (fuel depth : Nat) (text : List Char) :
    value (fuel + 1) depth (c :: text) = value (fuel + 1) depth text := by
  rw [value, value, skipBlanks_blank hc]

/-! ## Texts as characters -/

/-- The items behind the first one, each behind its comma. -/
def behindItem (indent : Nat) : List Json → List Char
  | [] => []
  | item :: rest =>
    ',' :: (newline indent).toList ++ (prettyAt indent item).toList ++ behindItem indent rest

/-- The fields behind the first one, each behind its comma. -/
def behindField (indent : Nat) : List (String × Json) → List Char
  | [] => []
  | (name, item) :: rest =>
    ',' :: (newline indent).toList ++ (quote name).toList ++ ':' :: ' ' ::
      (prettyAt indent item).toList ++ behindField indent rest

theorem toList_prettyItems (indent : Nat) (item : Json) (rest : List Json) :
    (prettyItems indent (item :: rest)).toList
      = (newline indent).toList ++ ((prettyAt indent item).toList ++ behindItem indent rest) := by
  induction rest generalizing item with
  | nil => simp [prettyItems, behindItem]
  | cons next rest ih => simp [prettyItems, behindItem, ih]

theorem toList_prettyFields (indent : Nat) (name : String) (item : Json)
    (rest : List (String × Json)) :
    (prettyFields indent ((name, item) :: rest)).toList
      = (newline indent).toList ++ ((quote name).toList ++ ':' :: ' ' ::
          ((prettyAt indent item).toList ++ behindField indent rest)) := by
  induction rest generalizing name item with
  | nil => simp [prettyFields, behindField]
  | cons next rest ih =>
    obtain ⟨next, value⟩ := next
    simp [prettyFields, behindField, ih]

theorem toList_prettyAt_array (indent : Nat) (item : Json) (rest : List Json) :
    (prettyAt indent (array (item :: rest))).toList
      = '[' :: ((newline (indent + 1)).toList ++ ((prettyAt (indent + 1) item).toList ++
          (behindItem (indent + 1) rest ++ ((newline indent).toList ++ [']'])))) := by
  simp [prettyAt, toList_prettyItems]

theorem toList_prettyAt_object (indent : Nat) (name : String) (item : Json)
    (rest : List (String × Json)) :
    (prettyAt indent (object ((name, item) :: rest))).toList
      = '\x7b' :: ((newline (indent + 1)).toList ++ ((quote name).toList ++ ':' :: ' ' ::
          ((prettyAt (indent + 1) item).toList ++
            (behindField (indent + 1) rest ++ ((newline indent).toList ++ ['\x7d']))))) := by
  simp [prettyAt, toList_prettyFields]

/-- A written value starts with a character that is no blank and closes nothing. -/
theorem prettyAt_eq_cons (indent : Nat) (v : Json) :
    ∃ c tail, (prettyAt indent v).toList = c :: tail ∧ isBlank c = false ∧ c ≠ ']' := by
  have hnumber (n : Number) :
      ∃ c tail, n.text.toList = c :: tail ∧ isBlank c = false ∧ c ≠ ']' := by
    obtain ⟨body, hbody, htext⟩ := text_cases n
    cases body with
    | nil => cases hbody.starts
    | cons c tail =>
      rcases htext with htext | htext
      · refine ⟨c, tail, htext, hbody.solid c (by simp), fun he => ?_⟩
        have hc : c.isDigit = true := hbody.starts
        rw [he] at hc
        cases hc
      · exact ⟨'-', c :: tail, htext, rfl, by decide⟩
  cases v with
  | null => exact ⟨'n', ['u', 'l', 'l'], by simp [prettyAt], rfl, by decide⟩
  | bool value =>
    cases value
    · exact ⟨'f', ['a', 'l', 's', 'e'], by simp [prettyAt], rfl, by decide⟩
    · exact ⟨'t', ['r', 'u', 'e'], by simp [prettyAt], rfl, by decide⟩
  | number n => exact hnumber n
  | string text => exact ⟨'"', _, toList_quote text, rfl, by decide⟩
  | array items =>
    cases items with
    | nil => exact ⟨'[', [']'], by simp [prettyAt], rfl, by decide⟩
    | cons item items =>
      exact ⟨'[', _, toList_prettyAt_array indent item items, rfl, by decide⟩
  | object fields =>
    cases fields with
    | nil => exact ⟨'\x7b', ['\x7d'], by simp [prettyAt], rfl, by decide⟩
    | cons field fields =>
      exact ⟨'\x7b', _, toList_prettyAt_object indent field.1 field.2 fields, rfl, by decide⟩

/-! ## One item, one field -/

section Steps

variable {c : Char} {tail rest : List Char}

theorem items_first (hc : isBlank c = false) (hclose : c ≠ ']') (fuel depth indent : Nat) :
    items (fuel + 1) depth true ((newline indent).toList ++ c :: tail)
      = item fuel depth (c :: tail) := by
  rw [items, skipBlanks_newline, skipBlanks_cons hc]
  simp

theorem items_next (hc : isBlank c = false) (hclose : c ≠ ']') (fuel depth indent : Nat) :
    items (fuel + 1) depth false (',' :: ((newline indent).toList ++ c :: tail))
      = item fuel depth (c :: tail) := by
  have hskip : skipBlanks ((newline indent).toList ++ c :: tail) = c :: tail :=
    (skipBlanks_newline indent _).trans (skipBlanks_cons hc tail)
  rw [items, skipBlanks_cons (by decide)]
  simp [hskip, hclose]

theorem items_close (first : Bool) (fuel depth indent : Nat) :
    items (fuel + 1) depth first ((newline indent).toList ++ ']' :: rest) = .ok ([], rest) := by
  rw [items, skipBlanks_newline, skipBlanks_cons (by decide)]
  rfl

theorem item_of_value {fuel depth : Nat} {text behind : List Char} {v : Json} {vs : List Json}
    (hv : value fuel depth text = .ok (v, behind))
    (hvs : items fuel depth false behind = .ok (vs, rest)) :
    item (fuel + 1) depth text = .ok (v :: vs, rest) := by
  rw [item, hv]
  simp [Scanned.andThen, Scanned.change, hvs]

theorem value_array {depth : Nat} (h : 1 < depth) (fuel : Nat) (text : List Char) :
    value (fuel + 1) depth ('[' :: text) = (items fuel (depth - 1) true text).change .array := by
  rw [value, skipBlanks_cons (by decide)]
  exact if_neg (by omega)

theorem value_object {depth : Nat} (h : 1 < depth) (fuel : Nat) (text : List Char) :
    value (fuel + 1) depth ('\x7b' :: text)
      = (fields fuel (depth - 1) true [] text).change .object := by
  rw [value, skipBlanks_cons (by decide)]
  exact if_neg (by omega)

theorem fields_first (read : List (String × Json)) (fuel depth indent : Nat) :
    fields (fuel + 1) depth true read ((newline indent).toList ++ '"' :: tail)
      = field fuel depth read tail := by
  rw [fields, skipBlanks_newline, skipBlanks_cons (by decide)]
  rfl

theorem fields_next (read : List (String × Json)) (fuel depth indent : Nat) :
    fields (fuel + 1) depth false read (',' :: ((newline indent).toList ++ '"' :: tail))
      = field fuel depth read tail := by
  have hskip : skipBlanks ((newline indent).toList ++ '"' :: tail) = '"' :: tail :=
    (skipBlanks_newline indent _).trans (skipBlanks_cons (by decide) tail)
  rw [fields, skipBlanks_cons (by decide)]
  simp [hskip]

theorem fields_close (first : Bool) (read : List (String × Json)) (fuel depth indent : Nat) :
    fields (fuel + 1) depth first read ((newline indent).toList ++ '\x7d' :: rest)
      = .ok (read, rest) := by
  rw [fields, skipBlanks_newline, skipBlanks_cons (by decide)]
  rfl

theorem field_of_value {fuel depth : Nat} {read : List (String × Json)} {name : String}
    {text behind : List Char} {v : Json} (hv : value (fuel + 1) depth text = .ok (v, behind)) :
    field (fuel + 2) depth read
        (name.toList.flatMap escapeChar ++ '"' :: ':' :: ' ' :: text)
      = fields (fuel + 1) depth false (Fields.put name v read) behind := by
  rw [field, string_escaped]
  simp only [Scanned.andThen, skipBlanks_cons (show isBlank ':' = false by decide),
    value_blank (show isBlank ' ' = true by decide), hv, String.ofList_toList]

end Steps

/-! ## The round trip -/

/-- Every value takes some fuel. -/
theorem exists_fuel {indent fuel : Nat} {v : Json}
    (h : 4 * (prettyAt indent v).toList.length ≤ fuel) : ∃ k, fuel = k + 1 := by
  obtain ⟨c, tail, htext, -⟩ := prettyAt_eq_cons indent v
  rw [htext, List.length_cons] at h
  exact ⟨fuel - 1, by omega⟩

theorem endsNumber_behindItem (indent outer : Nat) (vs : List Json) (rest : List Char) :
    EndsNumber (behindItem indent vs ++ ((newline outer).toList ++ ']' :: rest)) := by
  cases vs with
  | nil => exact endsNumber_newline outer _
  | cons v vs => exact endsNumber_comma _

theorem endsNumber_behindField (indent outer : Nat) (fs : List (String × Json))
    (rest : List Char) :
    EndsNumber (behindField indent fs ++ ((newline outer).toList ++ '\x7d' :: rest)) := by
  cases fs with
  | nil => exact endsNumber_newline outer _
  | cons field fs => exact endsNumber_comma _

mutual

/-- **A written value is read in full**, with every number as its text reads. -/
theorem value_prettyAt {f : Number → Number} {depth indent fuel : Nat} {rest : List Char} :
    ∀ v : Json, v.Fits depth → (∀ n ∈ v.numbers, n.Rereads (f n)) →
      4 * (prettyAt indent v).toList.length ≤ fuel → EndsNumber rest →
      value fuel depth ((prettyAt indent v).toList ++ rest) = .ok (v.mapNumbers f, rest)
  | null => by
    intro _ _ hfuel _
    obtain ⟨fuel, rfl⟩ := exists_fuel hfuel
    have htext : (prettyAt indent null).toList = ['n', 'u', 'l', 'l'] := by simp [prettyAt]
    rw [htext, List.cons_append, value, skipBlanks_cons (by decide)]
    rfl
  | bool true => by
    intro _ _ hfuel _
    obtain ⟨fuel, rfl⟩ := exists_fuel hfuel
    have htext : (prettyAt indent (bool true)).toList = ['t', 'r', 'u', 'e'] := by simp [prettyAt]
    rw [htext, List.cons_append, value, skipBlanks_cons (by decide)]
    rfl
  | bool false => by
    intro _ _ hfuel _
    obtain ⟨fuel, rfl⟩ := exists_fuel hfuel
    have htext : (prettyAt indent (bool false)).toList = ['f', 'a', 'l', 's', 'e'] := by
      simp [prettyAt]
    rw [htext, List.cons_append, value, skipBlanks_cons (by decide)]
    rfl
  | number n => by
    intro _ hn hfuel hrest
    obtain ⟨fuel, rfl⟩ := exists_fuel hfuel
    rw [prettyAt]
    exact value_of_rereads (hn n (by simp [numbers])) hrest fuel depth
  | string text => by
    intro _ _ hfuel _
    obtain ⟨fuel, rfl⟩ := exists_fuel hfuel
    rw [prettyAt, toList_quote, List.cons_append, value, skipBlanks_cons (by decide)]
    simp [string_escaped, Scanned.change, Scanned.andThen, mapNumbers]
  | array [] => by
    intro hfits _ hfuel _
    have htext : (prettyAt indent (array [])).toList = ['[', ']'] := by simp [prettyAt]
    rw [htext] at hfuel ⊢
    simp only [List.length_cons, List.length_nil] at hfuel
    obtain ⟨fuel, rfl⟩ : ∃ k, fuel = k + 2 := ⟨fuel - 2, by omega⟩
    rw [List.cons_append, value_array hfits.1, items, List.cons_append,
      skipBlanks_cons (by decide)]
    rfl
  | array (v :: vs) => by
    intro hfits hn hfuel hrest
    obtain ⟨hdepth, hv, hvs⟩ := hfits
    rw [toList_prettyAt_array] at hfuel ⊢
    simp only [List.length_cons, List.length_append] at hfuel
    obtain ⟨fuel, rfl⟩ : ∃ k, fuel = k + 3 := ⟨fuel - 3, by omega⟩
    obtain ⟨c, tail, htext, hblank, hclose⟩ := prettyAt_eq_cons (indent + 1) v
    have hhead : value fuel (depth - 1) ((prettyAt (indent + 1) v).toList ++
        (behindItem (indent + 1) vs ++ ((newline indent).toList ++ ']' :: rest))) = _ :=
      value_prettyAt v hv (fun n h => hn n (by simp [numbers, numbersOfItems, h])) (by omega)
        (endsNumber_behindItem _ _ _ _)
    have htail : items fuel (depth - 1) false (behindItem (indent + 1) vs ++
        ((newline indent).toList ++ ']' :: rest)) = _ :=
      items_behindItem vs hvs (fun n h => hn n (by simp [numbers, numbersOfItems, h])) (by omega)
    have hitem := item_of_value hhead htail
    rw [htext, List.cons_append] at hitem
    rw [List.cons_append, value_array hdepth, List.append_assoc, List.append_assoc,
      List.append_assoc, List.append_assoc, List.singleton_append, htext, List.cons_append,
      items_first hblank hclose, hitem]
    rfl
  | object [] => by
    intro hfits _ hfuel _
    have htext : (prettyAt indent (object [])).toList = ['\x7b', '\x7d'] := by simp [prettyAt]
    rw [htext] at hfuel ⊢
    simp only [List.length_cons, List.length_nil] at hfuel
    obtain ⟨fuel, rfl⟩ : ∃ k, fuel = k + 2 := ⟨fuel - 2, by omega⟩
    rw [List.cons_append, value_object hfits.1, fields, List.cons_append,
      skipBlanks_cons (by decide)]
    rfl
  | object ((name, v) :: fs) => by
    intro hfits hn hfuel hrest
    obtain ⟨hdepth, hd, hv, hfs⟩ := hfits
    rw [toList_prettyAt_object] at hfuel ⊢
    simp only [List.length_cons, List.length_append] at hfuel
    obtain ⟨fuel, rfl⟩ : ∃ k, fuel = k + 4 := ⟨fuel - 4, by omega⟩
    have hhead : value (fuel + 1) (depth - 1) ((prettyAt (indent + 1) v).toList ++
        (behindField (indent + 1) fs ++ ((newline indent).toList ++ '\x7d' :: rest))) = _ :=
      value_prettyAt v hv (fun n h => hn n (by simp [numbers, numbersOfFields, h])) (by omega)
        (endsNumber_behindField _ _ _ _)
    have htail : fields (fuel + 1) (depth - 1) false [(name, v.mapNumbers f)]
        (behindField (indent + 1) fs ++ ((newline indent).toList ++ '\x7d' :: rest)) = _ :=
      fields_behindField fs hfs hd (fun n h => hn n (by simp [numbers, numbersOfFields, h]))
        (by omega)
    rw [List.cons_append, value_object hdepth, toList_quote]
    simp only [List.append_assoc, List.cons_append, List.nil_append]
    rw [fields_first, field_of_value hhead, Fields.put, htail]
    rfl
termination_by structural v => v

theorem items_behindItem {f : Number → Number} {depth indent outer fuel : Nat} {rest : List Char} :
    ∀ vs : List Json, FitItems depth vs → (∀ n ∈ numbersOfItems vs, n.Rereads (f n)) →
      4 * (behindItem indent vs).length + 1 ≤ fuel →
      items fuel depth false (behindItem indent vs ++ ((newline outer).toList ++ ']' :: rest))
        = .ok (mapItems f vs, rest)
  | [] => by
    intro _ _ hfuel
    obtain ⟨fuel, rfl⟩ : ∃ k, fuel = k + 1 := ⟨fuel - 1, by omega⟩
    exact items_close false fuel depth outer
  | v :: vs => by
    intro hfits hn hfuel
    simp only [behindItem, List.length_cons, List.length_append] at hfuel
    obtain ⟨fuel, rfl⟩ : ∃ k, fuel = k + 2 := ⟨fuel - 2, by omega⟩
    obtain ⟨c, tail, htext, hblank, hclose⟩ := prettyAt_eq_cons indent v
    have hhead : value fuel depth ((prettyAt indent v).toList ++
        (behindItem indent vs ++ ((newline outer).toList ++ ']' :: rest))) = _ :=
      value_prettyAt v hfits.1 (fun n h => hn n (by simp [numbersOfItems, h])) (by omega)
        (endsNumber_behindItem _ _ _ _)
    have htail : items fuel depth false (behindItem indent vs ++
        ((newline outer).toList ++ ']' :: rest)) = _ :=
      items_behindItem vs hfits.2 (fun n h => hn n (by simp [numbersOfItems, h])) (by omega)
    have hitem := item_of_value hhead htail
    rw [htext, List.cons_append] at hitem
    simp only [behindItem, List.append_assoc, List.cons_append]
    rw [htext, List.cons_append, items_next hblank hclose, hitem]
    rfl
termination_by structural vs => vs

theorem fields_behindField {f : Number → Number} {depth indent outer fuel : Nat}
    {rest : List Char} {read : List (String × Json)} :
    ∀ fs : List (String × Json), FitFields depth fs →
      (Fields.names read ++ Fields.names fs).Nodup →
      (∀ n ∈ numbersOfFields fs, n.Rereads (f n)) →
      4 * (behindField indent fs).length + 1 ≤ fuel →
      fields fuel depth false read
          (behindField indent fs ++ ((newline outer).toList ++ '\x7d' :: rest))
        = .ok (read ++ mapFields f fs, rest)
  | [] => by
    intro _ _ _ hfuel
    obtain ⟨fuel, rfl⟩ : ∃ k, fuel = k + 1 := ⟨fuel - 1, by omega⟩
    rw [mapFields, List.append_nil]
    exact fields_close false read fuel depth outer
  | (name, v) :: fs => by
    intro hfits hd hn hfuel
    simp only [behindField, List.length_cons, List.length_append] at hfuel
    obtain ⟨fuel, rfl⟩ : ∃ k, fuel = k + 3 := ⟨fuel - 3, by omega⟩
    have hhead : value (fuel + 1) depth ((prettyAt indent v).toList ++
        (behindField indent fs ++ ((newline outer).toList ++ '\x7d' :: rest))) = _ :=
      value_prettyAt v hfits.1 (fun n h => hn n (by simp [numbersOfFields, h])) (by omega)
        (endsNumber_behindField _ _ _ _)
    have hnew : name ∉ Fields.names read := fun hmem =>
      (List.nodup_append.1 hd).2.2 name hmem name (by simp) rfl
    have htail : fields (fuel + 1) depth false (read ++ [(name, v.mapNumbers f)])
        (behindField indent fs ++ ((newline outer).toList ++ '\x7d' :: rest)) = _ :=
      fields_behindField fs hfits.2 (by simpa using hd)
        (fun n h => hn n (by simp [numbersOfFields, h])) (by omega)
    simp only [behindField, toList_quote, List.append_assoc, List.cons_append, List.nil_append]
    rw [fields_next, field_of_value hhead, Fields.put_of_not_mem hnew, htail]
    simp [mapFields]
termination_by structural fs => fs

end

/-- Blanks close a number. -/
theorem endsNumber_of_isBlank {text : List Char} (h : ∀ c ∈ text, isBlank c = true) :
    EndsNumber text := by
  intro c tail he
  have hc : isBlank c = true := h c (by simp [he])
  have hne : ∀ d : Char, isBlank d = false → c ≠ d := by
    intro d hd heq
    rw [heq, hd] at hc
    cases hc
  refine ⟨?_, hne '.' rfl, hne 'e' rfl, hne 'E' rfl⟩
  cases hdigit : c.isDigit with
  | false => rfl
  | true =>
    rw [isBlank_of_isDigit hdigit] at hc
    cases hc

/-- **A written value reads back**, with every number as its text reads and whatever blanks stand
behind it. -/
theorem parse_pretty {f : Number → Number} {v : Json} {blanks : String}
    (hfits : v.Fits depthLimit) (hn : ∀ n ∈ v.numbers, n.Rereads (f n))
    (hblanks : ∀ c ∈ blanks.toList, isBlank c = true) :
    parse (v.pretty ++ blanks) = .ok (v.mapNumbers f) := by
  have hrest : skipBlanks blanks.toList = [] := skipBlanks_eq_nil hblanks
  have hlength : 4 * (prettyAt 0 v).toList.length
      ≤ 4 * (v.pretty ++ blanks).toList.length + 4 := by
    rw [pretty, String.toList_append, List.length_append]
    omega
  have hvalue := value_prettyAt v hfits hn hlength (endsNumber_of_isBlank hblanks)
  rw [String.toList_append] at hvalue
  rw [parse, String.toList_append]
  simp only [pretty] at hvalue ⊢
  rw [hvalue, finish, hrest]

end Phrasebook.Json
