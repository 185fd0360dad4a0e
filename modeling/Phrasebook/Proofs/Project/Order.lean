import Mathlib.Data.Prod.Lex
import Mathlib.Data.String.Basic
import Phrasebook.Project.Scan

/-!
# Proofs/Project/Order — lists that are sorted by a key

    a/pt.json  <  b/es.json        as paths
    b/es.json  <  a/pt.json        as catalog files: the locale counts first

Paths are compared component by component and catalog files by locale and path.  Both orders are
those of a **key** in a linear order (`Path.le_iff`, `CatalogFile.le_iff`), so what holds of every
list that is sorted by a key holds of theirs: it goes up in the key, the first and the last member
of a kind are the least and the greatest one, and if the key tells its members apart it does not
depend on the order before sorting.
-/

namespace Phrasebook

/-! ## Sorting by a key -/

section

variable {α β : Type} [LinearOrder β] {le : α → α → Bool} {key : α → β} {list other : List α}

/-- **A list sorted by a key goes up in the key.** -/
theorem pairwise_mergeSort_key (hle : ∀ a b, le a b = true ↔ key a ≤ key b) (list : List α) :
    (list.mergeSort le).Pairwise fun a b => key a ≤ key b := by
  have htrans : ∀ a b c, le a b = true → le b c = true → le a c = true := fun a b c => by
    simpa only [hle] using le_trans
  have htotal : ∀ a b, (le a b || le b a) = true := fun a b => by
    simpa only [Bool.or_eq_true, hle] using le_total (key a) (key b)
  exact (List.pairwise_mergeSort htrans htotal list).imp fun h => (hle _ _).1 h

/-- **Sorting by a key forgets the order**, if the key tells the members apart. -/
theorem mergeSort_key_congr (hle : ∀ a b, le a b = true ↔ key a ≤ key b) (h : list.Perm other)
    (hkey : ∀ a ∈ other, ∀ b ∈ other, key a = key b → a = b) :
    list.mergeSort le = other.mergeSort le := by
  have hperm : (list.mergeSort le).Perm (other.mergeSort le) :=
    (List.mergeSort_perm _ _).trans (h.trans (List.mergeSort_perm _ _).symm)
  refine hperm.eq_of_pairwise (fun a b ha hb hab hba => ?_) (pairwise_mergeSort_key hle list)
    (pairwise_mergeSort_key hle other)
  rw [List.mem_mergeSort] at ha hb
  exact hkey a (h.mem_iff.1 ha) b hb (le_antisymm hab hba)

/-- **In a list that goes up, the first member of a kind is the least one.** -/
theorem find?_eq_some_iff_least {kind : α → Bool} {least : α}
    (h : list.Pairwise fun a b => key a < key b) :
    list.find? kind = some least
      ↔ least ∈ list ∧ kind least = true ∧ ∀ b ∈ list, kind b = true → key least ≤ key b := by
  induction list with
  | nil => simp
  | cons first rest ih =>
    obtain ⟨hfirst, hrest⟩ := List.pairwise_cons.1 h
    rw [List.find?_cons, List.forall_mem_cons, List.mem_cons]
    cases hkind : kind first with
    | true =>
      constructor
      · rintro ⟨⟩
        exact ⟨.inl rfl, hkind, fun _ => le_rfl, fun b hb _ => (hfirst b hb).le⟩
      · rintro ⟨rfl | hmem, -, hle, -⟩
        · rfl
        · exact absurd (hfirst least hmem) (not_lt.2 (hle rfl))
    | false =>
      rw [ih hrest]
      constructor
      · rintro ⟨hmem, hleast, hle⟩
        exact ⟨.inr hmem, hleast, fun hfirst => (Bool.false_ne_true hfirst).elim, hle⟩
      · rintro ⟨rfl | hmem, hleast, -, hle⟩
        · rw [hkind] at hleast
          cases hleast
        · exact ⟨hmem, hleast, hle⟩

/-- **The last member of a kind is the greatest one.** -/
theorem find?_reverse_eq_some_iff_greatest {kind : α → Bool} {greatest : α}
    (h : list.Pairwise fun a b => key a < key b) :
    list.reverse.find? kind = some greatest
      ↔ greatest ∈ list ∧ kind greatest = true
        ∧ ∀ b ∈ list, kind b = true → key b ≤ key greatest := by
  have hdown : list.reverse.Pairwise fun a b =>
      OrderDual.toDual (key a) < OrderDual.toDual (key b) := List.pairwise_reverse.2 h
  simpa using find?_eq_some_iff_least hdown

end

/-! ## The order of paths -/

namespace Path

/-- The rank of a component, and then the name. -/
def Component.key (component : Component) : ℕ ×ₗ String :=
  toLex (component.rank, match component with | name text => text | _ => "")

theorem Component.lt_iff {a b : Component} : a.lt b = true ↔ a.key < b.key := by
  cases a <;> cases b <;>
    simp [Component.lt, Component.key, Component.rank, Prod.Lex.toLex_lt_toLex]

theorem Component.key_injective : Function.Injective Component.key := by
  intro a b h
  cases a <;> cases b <;> simp_all [Component.key, Component.rank]

/-- The keys of the components of a path. -/
def key (path : String) : List (ℕ ×ₗ String) := (components path).map Component.key

theorem leComponents_iff {as bs : List Component} :
    leComponents as bs = true ↔ as.map Component.key ≤ bs.map Component.key := by
  induction as generalizing bs with
  | nil => simpa [leComponents] using not_lt.1 (List.not_lt_nil _)
  | cons a as ih =>
    cases bs with
    | nil => simp [leComponents, ← not_lt]
    | cons b bs =>
      rw [leComponents, Bool.or_eq_true, Bool.and_eq_true, beq_iff_eq, Component.lt_iff, ih,
        List.map_cons, List.map_cons, le_iff_lt_or_eq, le_iff_lt_or_eq, List.cons_lt_cons_iff,
        List.cons.injEq, Component.key_injective.eq_iff, and_or_left, or_assoc]

/-- **Paths are ordered by the keys of their components.** -/
theorem le_iff {a b : String} : le a b = true ↔ key a ≤ key b := leComponents_iff

theorem components_eq_of_key_eq {a b : String} (h : key a = key b) :
    components a = components b :=
  (List.map_inj_right fun _ _ => Component.key_injective.eq_iff.1).1 h

end Path

/-! ## The order of catalog files -/

namespace Project

/-- The locale of a catalog file, and then its path. -/
def CatalogFile.key (file : CatalogFile) : String ×ₗ List (ℕ ×ₗ String) :=
  toLex (file.locale, Path.key file.path)

/-- **Catalog files are ordered by locale and then by path.** -/
theorem CatalogFile.le_iff (a b : CatalogFile) : a.le b = true ↔ a.key ≤ b.key := by
  simp [CatalogFile.le, CatalogFile.key, Prod.Lex.toLex_le_toLex, Path.le_iff]

/-- Catalog files of one locale are ordered by their paths. -/
theorem CatalogFile.key_le_iff {a b : CatalogFile} (h : a.locale = b.locale) :
    a.key ≤ b.key ↔ Path.le a.path b.path = true := by
  simp [CatalogFile.key, Prod.Lex.toLex_le_toLex, Path.le_iff, h]

end Project

end Phrasebook
