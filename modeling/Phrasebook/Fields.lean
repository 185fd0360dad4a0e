/-!
# Fields — keyed lists that remember the order of insertion

A field list pairs names with values.  `put` replaces the value of a known name in its place and
appends an unknown one; `without` deletes a name and keeps the order of the others.
-/

namespace Phrasebook.Fields

variable {α : Type}

/-- The names, in order. -/
def names (fields : List (String × α)) : List String := fields.map Prod.fst

/-- The value of a name. -/
def get? (name : String) : List (String × α) → Option α
  | [] => none
  | (n, value) :: rest => if n = name then some value else get? name rest

/-- Sets the value of a name: in its place if the name is known, else at the end. -/
def put (name : String) (value : α) : List (String × α) → List (String × α)
  | [] => [(name, value)]
  | (n, old) :: rest => if n = name then (n, value) :: rest else (n, old) :: put name value rest

/-- The fields other than this one. -/
def without (name : String) (fields : List (String × α)) : List (String × α) :=
  fields.filter (·.1 ≠ name)

theorem mem_names_put {name : String} {value : α} {fields : List (String × α)} {x : String} :
    x ∈ names (put name value fields) ↔ x = name ∨ x ∈ names fields := by
  induction fields with
  | nil => simp [put, names]
  | cons field rest ih =>
    obtain ⟨n, old⟩ := field
    by_cases h : n = name
    · subst h
      simp [put, names]
    · simp only [names] at ih
      simp only [put, h, if_false, names, List.map_cons, List.mem_cons, ih]
      grind

/-- **Setting a field keeps the names distinct.** -/
theorem nodup_names_put {name : String} {value : α} {fields : List (String × α)}
    (h : (names fields).Nodup) : (names (put name value fields)).Nodup := by
  induction fields with
  | nil => simp [put, names]
  | cons field rest ih =>
    obtain ⟨n, old⟩ := field
    simp only [names, List.map_cons, List.nodup_cons] at h
    by_cases hn : n = name
    · rw [put, if_pos hn]
      exact List.nodup_cons.2 h
    · simp only [put, hn, if_false, names, List.map_cons, List.nodup_cons]
      refine ⟨fun hmem => ?_, ih h.2⟩
      rcases mem_names_put.1 hmem with rfl | hmem
      · exact hn rfl
      · exact h.1 hmem

/-- **Deleting a field keeps the names distinct.** -/
theorem nodup_names_without {name : String} {fields : List (String × α)}
    (h : (names fields).Nodup) : (names (without name fields)).Nodup :=
  h.sublist ((List.filter_sublist).map Prod.fst)

end Phrasebook.Fields
