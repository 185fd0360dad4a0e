import Mathlib.Logic.Basic
import Phrasebook.Fields

/-!
# Proofs/Fields — reading a keyed list behind its changes

`get?` after `put` and after `without`, the place where `put` writes, and lookup as membership: with
distinct names a field list is the graph of `get?`.
-/

namespace Phrasebook.Fields

variable {α β : Type} {name x : String} {value : α} {fields rest : List (String × α)}

@[simp] theorem names_nil : names ([] : List (String × α)) = [] := rfl

@[simp] theorem names_cons {field : String × α} :
    names (field :: fields) = field.1 :: names fields :=
  rfl

@[simp] theorem names_append : names (fields ++ rest) = names fields ++ names rest :=
  List.map_append

theorem mem_names : x ∈ names fields ↔ ∃ v, (x, v) ∈ fields := by simp [names]

@[simp] theorem get?_nil : get? x ([] : List (String × α)) = none := rfl

@[simp] theorem get?_cons {field : String × α} :
    get? x (field :: fields) = if field.1 = x then some field.2 else get? x fields := rfl

/-- **Setting a field changes what that name reads, and nothing else.** -/
theorem get?_put :
    get? x (put name value fields) = if name = x then some value else get? x fields := by
  induction fields with
  | nil => simp [put]
  | cons field rest ih =>
    obtain ⟨n, old⟩ := field
    by_cases hn : n = name
    · subst hn
      by_cases hx : n = x <;> simp [put, hx]
    · rw [put, if_neg hn]
      by_cases hx : n = x
      · subst hx
        simp [Ne.symm hn]
      · simp [hx, ih]

theorem get?_append :
    get? x (fields ++ rest) = (get? x fields).or (get? x rest) := by
  induction fields with
  | nil => simp
  | cons field fields ih =>
    by_cases hx : field.1 = x <;> simp [hx, ih]

/-- A filter that looks at names alone hides the names it refuses. -/
theorem get?_filter (p : String → Bool) :
    get? x (fields.filter fun field => p field.1) = if p x then get? x fields else none := by
  induction fields with
  | nil => simp
  | cons field fields ih =>
    by_cases hp : p field.1 <;> by_cases hx : field.1 = x <;> simp_all

/-- **A deleted name reads nothing.** -/
theorem get?_without : get? x (without name fields) = if x = name then none else get? x fields := by
  rw [without, get?_filter (fun n => decide (n ≠ name))]
  by_cases hx : x = name <;> simp [hx]

/-- Deleting a field that was just set is deleting it before. -/
theorem without_put : without name (put name value fields) = without name fields := by
  induction fields with
  | nil => simp [put, without]
  | cons field rest ih =>
    obtain ⟨n, old⟩ := field
    by_cases hn : n = name
    · simp [put, without, hn]
    · simpa [put, without, hn] using ih

theorem get?_map (f : String → α → β) :
    get? x (fields.map fun field => (field.1, f field.1 field.2)) = (get? x fields).map (f x) := by
  induction fields with
  | nil => simp
  | cons field fields ih =>
    by_cases hx : field.1 = x
    · subst hx
      simp
    · simp [hx, ih]

theorem get?_map_graph (f : String → α) {ns : List String} :
    get? x (ns.map fun n => (n, f n)) = if x ∈ ns then some (f x) else none := by
  induction ns with
  | nil => simp
  | cons n ns ih =>
    by_cases hx : n = x
    · simp [hx]
    · simp [hx, Ne.symm hx, ih]

theorem get?_eq_none_iff : get? x fields = none ↔ x ∉ names fields := by
  induction fields with
  | nil => simp
  | cons field fields ih =>
    by_cases hx : field.1 = x
    · simp [hx]
    · simp [hx, ih, Ne.symm hx]

theorem mem_of_get? {v : α} (h : get? x fields = some v) : (x, v) ∈ fields := by
  induction fields with
  | nil => simp at h
  | cons field fields ih =>
    obtain ⟨n, old⟩ := field
    by_cases hx : n = x
    · simp_all
    · simp only [get?_cons, hx, if_false] at h
      exact List.mem_cons_of_mem _ (ih h)

theorem isSome_get?_iff : (get? x fields).isSome ↔ x ∈ names fields := by
  cases h : get? x fields with
  | none => simpa using get?_eq_none_iff.1 h
  | some v => simpa using mem_names.2 ⟨v, mem_of_get? h⟩

/-- **With distinct names, lookup is membership.** -/
theorem get?_eq_some_iff (hd : (names fields).Nodup) {v : α} :
    get? x fields = some v ↔ (x, v) ∈ fields := by
  refine ⟨mem_of_get?, fun hmem => ?_⟩
  induction fields with
  | nil => simp at hmem
  | cons field fields ih =>
    obtain ⟨hn, hd⟩ := List.nodup_cons.1 hd
    rcases List.mem_cons.1 hmem with rfl | hmem
    · simp
    · have hne : field.1 ≠ x := fun he => hn (he ▸ mem_names.2 ⟨v, hmem⟩)
      simp [hne, ih hd hmem]

/-- With distinct names, lookup does not depend on the order. -/
theorem get?_perm (h : fields.Perm rest) (hd : (names fields).Nodup) :
    get? x fields = get? x rest := by
  have hd' : (names rest).Nodup := (h.map Prod.fst).nodup_iff.1 hd
  exact Option.ext fun v => by rw [get?_eq_some_iff hd, get?_eq_some_iff hd', h.mem_iff]

/-- Setting what a name reads already changes nothing. -/
theorem put_of_get? (h : get? name fields = some value) : put name value fields = fields := by
  induction fields with
  | nil => simp at h
  | cons field fields ih =>
    obtain ⟨n, old⟩ := field
    by_cases hn : n = name
    · simp only [get?_cons, hn, if_true, Option.some.injEq] at h
      simp [put, hn, h]
    · simp only [get?_cons, hn, if_false] at h
      simp [put, hn, ih h]

/-- **An unknown name is set at the end.** -/
theorem put_of_not_mem (h : name ∉ names fields) :
    put name value fields = fields ++ [(name, value)] := by
  induction fields with
  | nil => rfl
  | cons field fields ih =>
    obtain ⟨n, old⟩ := field
    simp only [names_cons, List.mem_cons, not_or] at h
    rw [put, if_neg (Ne.symm h.1), ih h.2]
    rfl

/-- **A known name is set in its place.** -/
theorem put_of_mem (hd : (names fields).Nodup) (h : name ∈ names fields) :
    put name value fields
      = fields.map fun field => (field.1, if field.1 = name then value else field.2) := by
  induction fields with
  | nil => simp at h
  | cons field fields ih =>
    obtain ⟨n, old⟩ := field
    obtain ⟨hn, hd⟩ := List.nodup_cons.1 hd
    by_cases hx : n = name
    · subst hx
      have hrest : ∀ field ∈ fields, field.1 ≠ n := fun field hf he =>
        hn (he ▸ mem_names.2 ⟨field.2, hf⟩)
      have hsame : (fields.map fun field => (field.1, if field.1 = n then value else field.2))
          = fields.map fun field => field :=
        List.map_congr_left fun field hf => by rw [if_neg (hrest field hf)]
      rw [put, if_pos rfl, List.map_cons, hsame]
      simp
    · have hmem : name ∈ names fields := by simpa [Ne.symm hx] using h
      rw [put, if_neg hx, ih hd hmem]
      simp [hx]

/-- A name that reads something stands at one place first. -/
theorem exists_eq_append_of_get? {v : α} (h : get? x fields = some v) :
    ∃ above below, fields = above ++ (x, v) :: below ∧ x ∉ names above := by
  induction fields with
  | nil => simp at h
  | cons field fields ih =>
    obtain ⟨n, old⟩ := field
    by_cases hx : n = x
    · simp only [get?_cons, hx, if_true, Option.some.injEq] at h
      exact ⟨[], fields, by rw [hx, h]; rfl, List.not_mem_nil⟩
    · simp only [get?_cons, hx, if_false] at h
      obtain ⟨above, below, rfl, hnot⟩ := ih h
      exact ⟨(n, old) :: above, below, rfl, by simp [hnot, Ne.symm hx]⟩

/-- Setting a known name leaves what stands above and below it. -/
theorem put_append_cons {old : α} (h : name ∉ names fields) :
    put name value (fields ++ (name, old) :: rest) = fields ++ (name, value) :: rest := by
  induction fields with
  | nil => simp [put]
  | cons field fields ih =>
    obtain ⟨n, other⟩ := field
    simp only [names_cons, List.mem_cons, not_or] at h
    rw [List.cons_append, put, if_neg (Ne.symm h.1), ih h.2]
    rfl

/-- Deleting an unknown name changes nothing. -/
theorem without_of_not_mem (h : name ∉ names fields) : without name fields = fields :=
  List.filter_eq_self.2 fun field hf =>
    decide_eq_true fun he => h (mem_names.2 ⟨field.2, he ▸ hf⟩)

/-- Deleting a known name leaves what stands above and below it. -/
theorem without_append_cons {old : α} (ha : name ∉ names fields) (hb : name ∉ names rest) :
    without name (fields ++ (name, old) :: rest) = fields ++ rest := by
  have habove := without_of_not_mem ha
  have hbelow := without_of_not_mem hb
  rw [without] at habove hbelow
  rw [without, List.filter_append, List.filter_cons_of_neg (by simp), habove, hbelow]

theorem names_put_of_mem (hd : (names fields).Nodup) (h : name ∈ names fields) :
    names (put name value fields) = names fields := by
  rw [put_of_mem hd h, names, names, List.map_map]
  rfl

end Phrasebook.Fields
