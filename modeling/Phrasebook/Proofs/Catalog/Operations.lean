import Mathlib.Data.List.Induction
import Mathlib.Data.List.Perm.Subperm
import Phrasebook.Proofs.Catalog.Text

/-!
# Proofs/Catalog/Operations — a catalog is an ordered map over whole runs

    a b c ──erase a──▸ b c ──insert b──▸ b c ──insert a──▸ b c a
                                                           │   └─ not there throughout
                                                           └─ there throughout

One operation follows the rules of an ordered map (`step_perform`).  Behind a run of operations a
key reads what the last one on it says (`get?_performAll`), and **the keys that were never removed
stand first, in the order that they had** (`survivors_prefix`).  All that is known of the order of
two keys follows from that.
-/

namespace Phrasebook.Catalog

/-! ## One operation -/

/-- One operation on a catalog. -/
inductive Operation where
  /-- Sets the entry of a key. -/
  | insert (key : String) (entry : Entry)
  /-- Removes a key. -/
  | erase (key : String)
  deriving DecidableEq

/-- The key that an operation is about. -/
def Operation.key : Operation → String
  | .insert key _ => key
  | .erase key => key

/-- What the key of an operation reads behind it. -/
def Operation.entry? : Operation → Option Entry
  | .insert _ entry => some entry
  | .erase _ => none

/-- Carries out an operation: the entry that its key had, and the catalog that it leaves. -/
def perform (catalog : Catalog) : Operation → Option Entry × Catalog
  | .insert key entry => catalog.getThenInsert? key entry
  | .erase key => catalog.getThenErase? key

/-- The rules of an ordered map: what an operation answers, and what it leaves. -/
inductive Step (before : Catalog) : Operation → Option Entry → Catalog → Prop
  /-- A known key gets its entry in its place. -/
  | replace {key : String} {old entry : Entry} {above below : List (String × Entry)}
      {after : Catalog} (known : before.entries = above ++ (key, old) :: below)
      (left : after.entries = above ++ (key, entry) :: below) :
      Step before (.insert key entry) (some old) after
  /-- An unknown key is set below all others. -/
  | append {key : String} {entry : Entry} {after : Catalog} (unknown : key ∉ before.keys)
      (left : after.entries = before.entries ++ [(key, entry)]) :
      Step before (.insert key entry) none after
  /-- A known key leaves the others as they stand. -/
  | delete {key : String} {old : Entry} {above below : List (String × Entry)} {after : Catalog}
      (known : before.entries = above ++ (key, old) :: below)
      (left : after.entries = above ++ below) : Step before (.erase key) (some old) after
  /-- There is no unknown key to remove. -/
  | skip {key : String} (unknown : key ∉ before.keys) : Step before (.erase key) none before

variable {catalog start : Catalog} {key x y : String} {entry : Entry}
  {operations : List Operation}

/-- A known key stands between the entries above and below it, and at no other place. -/
theorem exists_entries_eq (h : catalog.get? key = some entry) :
    ∃ above below, catalog.entries = above ++ (key, entry) :: below
      ∧ key ∉ Fields.names above ∧ key ∉ Fields.names below := by
  obtain ⟨above, below, hentries, habove⟩ := Fields.exists_eq_append_of_get? h
  refine ⟨above, below, hentries, habove, ?_⟩
  have hdistinct := catalog.distinct
  rw [hentries, Fields.names_append, Fields.names_cons, List.nodup_append, List.nodup_cons]
    at hdistinct
  exact hdistinct.2.1.1

theorem step_insert :
    Step catalog (.insert key entry) (catalog.get? key) (catalog.insert key entry) := by
  cases hget : catalog.get? key with
  | none =>
    have hunknown := get?_eq_none_iff.1 hget
    exact .append hunknown (entries_insert_of_not_mem hunknown)
  | some old =>
    obtain ⟨above, below, hentries, habove, -⟩ := exists_entries_eq hget
    have hput : Fields.put key entry (above ++ (key, old) :: below)
        = above ++ (key, entry) :: below := Fields.put_append_cons habove
    exact .replace hentries ((congrArg (Fields.put key entry) hentries).trans hput)

theorem step_erase : Step catalog (.erase key) (catalog.get? key) (catalog.erase key) := by
  cases hget : catalog.get? key with
  | none =>
    have hunknown := get?_eq_none_iff.1 hget
    have hsame : catalog.erase key = catalog := ext_entries (Fields.without_of_not_mem hunknown)
    rw [hsame]
    exact .skip hunknown
  | some old =>
    obtain ⟨above, below, hentries, habove, hbelow⟩ := exists_entries_eq hget
    have hwithout : Fields.without key (above ++ (key, old) :: below) = above ++ below :=
      Fields.without_append_cons habove hbelow
    exact .delete hentries ((congrArg (Fields.without key) hentries).trans hwithout)

/-- **An operation follows the rules of an ordered map.** -/
theorem step_perform (catalog : Catalog) (operation : Operation) :
    Step catalog operation (catalog.perform operation).1 (catalog.perform operation).2 := by
  cases operation with
  | insert key entry => exact step_insert
  | erase key => exact step_erase

/-- The number of keys goes up if a key is new, and down if one is gone. -/
theorem Step.size_add {after : Catalog} {operation : Operation} {answer : Option Entry}
    (h : Step catalog operation answer after) :
    after.size + answer.toList.length = catalog.size + operation.entry?.toList.length := by
  cases h with
  | replace known left => simp [size, known, left, Operation.entry?]
  | append unknown left => simp [size, left, Operation.entry?]
  | delete known left => simp [size, known, left, Operation.entry?]; omega
  | skip unknown => rfl

theorem answer_perform (operation : Operation) :
    (catalog.perform operation).1 = catalog.get? operation.key := by
  cases operation <;> rfl

theorem get?_perform (operation : Operation) :
    (catalog.perform operation).2.get? x
      = if operation.key = x then operation.entry? else catalog.get? x := by
  cases operation with
  | insert key entry => exact get?_insert
  | erase key =>
    change (catalog.erase key).get? x = if key = x then none else catalog.get? x
    simp only [get?_erase, eq_comm]

/-! ## What a key reads behind a run -/

/-- The catalog behind a sequence of operations. -/
def performAll (catalog : Catalog) (operations : List Operation) : Catalog :=
  operations.foldl (fun catalog operation => (catalog.perform operation).2) catalog

theorem performAll_concat (operation : Operation) :
    start.performAll (operations ++ [operation])
      = ((start.performAll operations).perform operation).2 := List.foldl_concat ..

/-- The last operation on a key. -/
def lastOperation? (operations : List Operation) (key : String) : Option Operation :=
  operations.reverse.find? (·.key = key)

/-- What the operations leave at a key: what the last one on it says, or what the key read before. -/
def entryAfter (start : Catalog) (operations : List Operation) (key : String) : Option Entry :=
  match lastOperation? operations key with
  | some operation => operation.entry?
  | none => start.get? key

theorem lastOperation?_concat (operation : Operation) :
    lastOperation? (operations ++ [operation]) key
      = if operation.key = key then some operation else lastOperation? operations key := by
  rw [lastOperation?, List.reverse_append, List.reverse_singleton, List.singleton_append,
    List.find?_cons]
  by_cases h : operation.key = key <;> simp [h, lastOperation?]

/-- **A key reads what the last operation on it says.** -/
theorem get?_performAll : (start.performAll operations).get? key = start.entryAfter operations key
    := by
  induction operations using List.reverseRecOn with
  | nil => rfl
  | append_singleton operations operation ih =>
    rw [performAll_concat, get?_perform, entryAfter, lastOperation?_concat]
    by_cases h : operation.key = key
    · simp [h]
    · rw [if_neg h, if_neg h, ih, entryAfter]

/-! ## The order behind a run -/

/-- The keys that no operation removes, in their order. -/
def survivors (start : Catalog) (operations : List Operation) : List String :=
  start.keys.filter fun key => .erase key ∉ operations

theorem mem_survivors :
    key ∈ start.survivors operations ↔ key ∈ start.keys ∧ .erase key ∉ operations := by
  simp [survivors]

theorem keys_prefix_insert : catalog.keys <+: (catalog.insert key entry).keys := by
  by_cases h : key ∈ catalog.keys
  · simp only [keys_insert_of_mem h, List.prefix_rfl]
  · rw [keys_insert_of_not_mem h]
    exact List.prefix_append ..

/-- **The keys that were never removed stand first**, in the order that they had. -/
theorem survivors_prefix : start.survivors operations <+: (start.performAll operations).keys := by
  induction operations using List.reverseRecOn with
  | nil => simp [survivors, performAll]
  | append_singleton operations operation ih =>
    rw [performAll_concat]
    cases operation with
    | insert key entry =>
      have hsame : start.survivors (operations ++ [.insert key entry])
          = start.survivors operations := by
        simp [survivors]
      rw [hsame]
      exact ih.trans keys_prefix_insert
    | erase key =>
      have hless : start.survivors (operations ++ [.erase key])
          = (start.survivors operations).filter (· ≠ key) := by
        simp [survivors, List.filter_filter, and_comm]
      change _ <+: ((start.performAll operations).erase key).keys
      rw [hless, keys_erase]
      exact ih.filter _

/-- A key stays through a run if it is there before and behind each of the operations. -/
def Stays (start : Catalog) (operations : List Operation) (key : String) : Prop :=
  ∀ done, done <+: operations → key ∈ (start.performAll done).keys

/-- A key stays exactly if it is there at first and is never removed. -/
theorem stays_iff : start.Stays operations key ↔ key ∈ start.survivors operations := by
  rw [mem_survivors]
  constructor
  · refine fun h => ⟨h [] List.nil_prefix, fun hmem => ?_⟩
    obtain ⟨done, rest, rfl⟩ := List.append_of_mem hmem
    have hthere := h (done ++ [.erase key]) ⟨rest, by simp⟩
    rw [performAll_concat] at hthere
    exact (mem_keys_erase.1 hthere).1 rfl
  · rintro ⟨hkey, hnever⟩ done hdone
    exact survivors_prefix.subset (mem_survivors.2 ⟨hkey, fun hmem => hnever (hdone.subset hmem)⟩)

/-- Whether one key stands above another. -/
def Precedes (catalog : Catalog) (x y : String) : Prop := [x, y].Sublist catalog.keys

/-- A part of a list without repetitions is what a filter for its members leaves. -/
theorem filter_mem_eq {part whole : List String} (h : part.Sublist whole) (hd : whole.Nodup) :
    whole.filter (· ∈ part) = part := by
  have hpart : part.Sublist (whole.filter (· ∈ part)) := by
    have hfilter := h.filter (· ∈ part)
    rwa [List.filter_eq_self.2 fun _ hx => decide_eq_true hx] at hfilter
  refine (hpart.eq_of_length_le ?_).symm
  exact (List.subperm_of_subset (hd.filter _) fun _ hx => by simpa using (List.mem_filter.1 hx).2)
    |>.length_le

/-- Two members of a part of such a list stand in one order there and in the whole. -/
theorem pair_sublist_iff {part whole : List String} (h : part.Sublist whole) (hd : whole.Nodup)
    (hx : x ∈ part) (hy : y ∈ part) : [x, y].Sublist whole ↔ [x, y].Sublist part := by
  refine ⟨fun hpair => ?_, fun hpair => hpair.trans h⟩
  have hfilter := hpair.filter (· ∈ part)
  rw [filter_mem_eq h hd] at hfilter
  simpa [hx, hy] using hfilter

/-- **Two keys that stay keep their order.** -/
theorem Stays.precedes_iff (hx : start.Stays operations x) (hy : start.Stays operations y) :
    (start.performAll operations).Precedes x y ↔ start.Precedes x y := by
  rw [stays_iff] at hx hy
  have hbehind := pair_sublist_iff survivors_prefix.sublist (start.performAll operations).distinct
    hx hy
  have hbefore := pair_sublist_iff List.filter_sublist start.distinct hx hy
  exact hbehind.trans hbefore.symm

/-- **A key that stays stands above each one that does not.** -/
theorem Stays.precedes (hx : start.Stays operations x) (hy : ¬start.Stays operations y)
    (hkey : y ∈ (start.performAll operations).keys) :
    (start.performAll operations).Precedes x y := by
  rw [stays_iff] at hx hy
  obtain ⟨newer, hnewer⟩ : start.survivors operations <+: (start.performAll operations).keys :=
    survivors_prefix
  rw [← hnewer, List.mem_append] at hkey
  rw [Precedes, ← hnewer]
  exact (List.singleton_sublist.2 hx).append (List.singleton_sublist.2 (hkey.resolve_left hy))

/-! ## Whole runs -/

/-- The catalog is the ordered map that a run of operations makes of the one it starts from. -/
structure OrderedBehind (start : Catalog) (operations : List Operation) (catalog : Catalog) :
    Prop where
  /-- No key stands twice. -/
  distinct : catalog.keys.Nodup
  /-- A key reads what the last operation on it says. -/
  get?_eq : ∀ key, catalog.get? key = start.entryAfter operations key
  /-- A key is known if that is an entry. -/
  contains_eq : ∀ key, catalog.contains key = (start.entryAfter operations key).isSome
  /-- The listed entries are those that the keys read. -/
  mem_entries_iff : ∀ key entry,
    (key, entry) ∈ catalog.entries ↔ start.entryAfter operations key = some entry
  /-- A further operation follows the rules of an ordered map. -/
  step : ∀ operation,
    Step catalog operation (catalog.perform operation).1 (catalog.perform operation).2
  /-- It answers what the last operation on its key said. -/
  answer_eq : ∀ operation,
    (catalog.perform operation).1 = start.entryAfter operations operation.key
  /-- The number of keys goes up if its key is new, and down if its key is gone. -/
  size_add : ∀ operation,
    (catalog.perform operation).2.size + (catalog.perform operation).1.toList.length
      = catalog.size + operation.entry?.toList.length
  /-- **Two keys that stay keep their order.** -/
  precedes_iff : ∀ x y, start.Stays operations x → start.Stays operations y →
    (catalog.Precedes x y ↔ start.Precedes x y)
  /-- A key that stays stands above each one that does not. -/
  precedes : ∀ x y, start.Stays operations x → y ∈ catalog.keys → ¬start.Stays operations y →
    catalog.Precedes x y
  /-- **A key that was removed and is set again stands last.** -/
  keys_insert_again : ∀ key entry, lastOperation? operations key = some (.erase key) →
    (catalog.insert key entry).keys = catalog.keys ++ [key]

/-- **A catalog that was read is an ordered map over any run of operations.**  It starts with the
fields of its object, and from each moment of the run to each later one, keys read what the last
operation on them says, and keep their order as long as they stay. -/
theorem orderedBehind_of_parse {text : String} {loaded : Catalog}
    (hread : parse text = .ok loaded) (earlier operations : List Operation) :
    (∃ fields, Json.parse text = .ok (.object fields)
        ∧ loaded.entries = fields.map fun field => (field.1, Entry.classify field.2))
      ∧ OrderedBehind (loaded.performAll earlier) operations
          ((loaded.performAll earlier).performAll operations) := by
  refine ⟨entries_of_parse hread, ?_⟩
  exact
    { distinct := Catalog.distinct _
      get?_eq := fun key => get?_performAll
      contains_eq := fun key => congrArg Option.isSome get?_performAll
      mem_entries_iff := fun key entry => by rw [← get?_eq_some_iff, get?_performAll]
      step := step_perform _
      answer_eq := fun operation => (answer_perform operation).trans get?_performAll
      size_add := fun operation => (step_perform _ operation).size_add
      precedes_iff := fun x y hx hy => hx.precedes_iff hy
      precedes := fun x y hx hkey hy => hx.precedes hy hkey
      keys_insert_again := fun key entry hlast => by
        refine keys_insert_of_not_mem (get?_eq_none_iff.1 ?_)
        rw [get?_performAll, entryAfter, hlast]
        rfl }

/-- A catalog text that names a key twice. -/
def turnedText : String := "\x7b\"a\":\"1\",\"b\":null,\"a\":\"2\",\"\":\"\"\x7d"

/-- The operations up to a moment of a run. -/
def turnsBefore : List Operation := [.insert "c" (.scalar "3"), .erase ""]

/-- The operations of the run from that moment on. -/
def turnsBehind : List Operation := [.erase "a", .insert "b" (.scalar "B")]

/-- From that moment on one of three keys is removed: it stands last when it is set again, and the
two that stay keep their order. -/
theorem orderedBehind_of_parse_turns :
    ∃ loaded, parse turnedText = .ok loaded ∧ loaded.keys = ["a", "b", ""]
      ∧ let start := loaded.performAll turnsBefore
        let catalog := start.performAll turnsBehind
        start.keys = ["a", "b", "c"] ∧ start.Stays turnsBehind "b" ∧ start.Stays turnsBehind "c"
          ∧ lastOperation? turnsBehind "a" = some (.erase "a")
          ∧ catalog.get? "b" = some (.scalar "B") ∧ catalog.Precedes "b" "c"
          ∧ (catalog.insert "a" .null).keys = catalog.keys ++ ["a"] := by
  have hshape : (parse turnedText).toOption.map (fun loaded =>
      (loaded.keys, (loaded.performAll turnsBefore).keys,
        (loaded.performAll turnsBefore).survivors turnsBehind))
        = some (["a", "b", ""], ["a", "b", "c"], ["b", "c"]) := by
    decide +kernel
  cases hread : parse turnedText with
  | error error =>
    rw [hread] at hshape
    cases hshape
  | ok loaded =>
    rw [hread, Except.toOption, Option.map_some, Option.some.injEq, Prod.mk.injEq, Prod.mk.injEq]
      at hshape
    obtain ⟨hloaded, hstart, hstay⟩ := hshape
    have hstays : ∀ key ∈ ["b", "c"], (loaded.performAll turnsBefore).Stays turnsBehind key :=
      fun key hkey => stays_iff.2 (hstay ▸ hkey)
    have hb := hstays "b" (by decide)
    have hc := hstays "c" (by decide)
    have hbefore : (loaded.performAll turnsBefore).Precedes "b" "c" := by
      rw [Precedes, hstart]
      decide
    have hordered := (orderedBehind_of_parse hread turnsBefore turnsBehind).2
    exact ⟨loaded, rfl, hloaded, hstart, hb, hc, rfl, hordered.get?_eq "b",
      (hordered.precedes_iff "b" "c" hb hc).2 hbefore, hordered.keys_insert_again "a" .null rfl⟩

end Phrasebook.Catalog
