import Mathlib.Data.List.Induction
import Phrasebook.Proofs.Source.Grammar
import Phrasebook.Source.Extraction

/-!
# Proofs/Source/Usages — every usage of a tree is listed once

    __`a ${ __p(n)`# b` } ${ __`c` }`        []
                 │             │
                [1]           [2]            [] < [1] < [2]

A position leads from a construct to one inside of it by the numbers of the parts on the way, so
positions in lexicographic order go through a tree with each construct before its parts.  What makes
a construct a usage is said of it alone (`Tree.IsUsage`), and **a file lists just the usages at the
positions of its tree, in their order** (`usages_located`): none is missed inside of another
template, used or not, and none comes twice.
-/

namespace Phrasebook.Source

variable {markers : Markers} {path code : String}

namespace Tree

variable {tree tag : Tree} {trees : List Tree} {usage : Usage} {text : List Char}

/-! ## Positions -/

/-- The parts of a construct, from the first to the last. -/
def parts : Tree → List Tree
  | name _ => []
  | member object _ => [object]
  | call callee arguments => callee :: arguments
  | tagged tag types _ slots => tag :: (types ++ slots)
  | other parts => parts

/-- What stands at a position: the first number tells the part of the construct, the second one the
part of that part, and so on. -/
def at? (tree : Tree) : List Nat → Option Tree
  | [] => some tree
  | number :: rest => tree.parts[number]?.bind (at? · rest)

/-- What stands at a position in a row of constructs. -/
def atAll? (trees : List Tree) : List Nat → Option Tree
  | [] => none
  | number :: rest => trees[number]?.bind (at? · rest)

theorem lt_length_of_atAll? {number : Nat} {rest : List Nat}
    (h : (atAll? trees (number :: rest)).isSome) : number < trees.length := by
  by_contra hge
  rw [atAll?, List.getElem?_eq_none (Nat.le_of_not_lt hge)] at h
  cases h

theorem sizeOf_lt_of_mem_parts {part : Tree} (h : part ∈ tree.parts) :
    sizeOf part < sizeOf tree := by
  cases tree with
  | name text => cases h
  | member object property =>
    rw [List.mem_singleton.1 h]
    simp
    omega
  | call callee arguments =>
    rcases List.mem_cons.1 h with rfl | h
    · simp
      omega
    · have := List.sizeOf_lt_of_mem h
      simp
      omega
  | tagged tag types chunks slots =>
    rcases List.mem_cons.1 h with rfl | h
    · simp
      omega
    · rcases List.mem_append.1 h with h | h <;>
      · have := List.sizeOf_lt_of_mem h
        simp
        omega
  | other parts =>
    have : sizeOf part < sizeOf parts := List.sizeOf_lt_of_mem h
    simp
    omega

/-- A property that a construct has if its parts have it is one of all constructs. -/
theorem induction_parts {motive : Tree → Prop}
    (h : ∀ tree, (∀ part ∈ tree.parts, motive part) → motive tree) (tree : Tree) : motive tree :=
  h tree fun part hpart =>
    have := sizeOf_lt_of_mem_parts hpart
    induction_parts h part
termination_by sizeOf tree

/-! ## What a usage is -/

/-- The construct is this name, or accesses a member by it. -/
inductive Named (text : String) : Tree → Prop
  | name : Named text (.name text)
  | member (object : Tree) : Named text (.member object text)

/-- The tag marks the operation: the scalar one by its name, the plural one by a call. -/
inductive Marks (markers : Markers) : Tree → Kind → Prop
  | scalar {tag : Tree} : Named markers.scalar tag → Marks markers tag .scalar
  | plural {callee : Tree} (arguments : List Tree) :
    Named markers.plural callee → Marks markers (.call callee arguments) .plural

/-- The construct is a template whose tag marks the operation and whose chunks all have texts, the
segments. -/
inductive IsUsage (markers : Markers) : Tree → Usage → Prop
  | tagged {tag : Tree} {kind : Kind} (types : List Tree) (segments : List String)
      (slots : List Tree) :
    Marks markers tag kind →
      IsUsage markers (.tagged tag types (segments.map some) slots) ⟨kind, segments⟩

theorem named_iff {text : String} : tree.Named text ↔ tree.markerName? = some text := by
  constructor
  · rintro (_ | object) <;> rfl
  · intro h
    cases tree with
    | name other =>
      cases h
      exact .name
    | member object property =>
      cases h
      exact .member object
    | _ => cases h

theorem marks_iff {kind : Kind} : tag.Marks markers kind ↔ tag.kind? markers = some kind := by
  constructor
  · rintro (hname | ⟨arguments, hname⟩) <;> unfold kind?
    · exact if_pos (named_iff.1 hname)
    · rw [if_neg (by simp [markerName?])]
      exact if_pos (named_iff.1 hname)
  · intro h
    unfold kind? at h
    split at h
    · next hname =>
      cases h
      exact .scalar (named_iff.2 hname)
    · split at h
      · next callee arguments _ =>
        split at h
        · next hname =>
          cases h
          exact .plural arguments (named_iff.2 hname)
        · cases h
      · cases h

theorem segments?_eq_some_iff {chunks : List (Option String)} {segments : List String} :
    segments? chunks = some segments ↔ chunks = segments.map some := by
  induction chunks generalizing segments with
  | nil => cases segments <;> simp [segments?]
  | cons chunk rest ih =>
    cases chunk with
    | none => cases segments <;> simp [segments?]
    | some text =>
      cases segments with
      | nil => simp [segments?]
      | cons segment segments =>
        rw [segments?, Option.map_eq_some_iff, List.map_cons, List.cons.injEq, Option.some.injEq]
        constructor
        · rintro ⟨found, hfound, h⟩
          cases h
          exact ⟨rfl, ih.1 hfound⟩
        · rintro ⟨rfl, hrest⟩
          exact ⟨segments, ih.2 hrest, rfl⟩

/-- The usage that a construct is by itself. -/
def own? (markers : Markers) : Tree → Option Usage
  | tagged tag _ chunks _ => usage? markers tag chunks
  | _ => none

theorem isUsage_iff : tree.IsUsage markers usage ↔ tree.own? markers = some usage := by
  constructor
  · rintro ⟨types, segments, slots, hmarks⟩
    rw [own?, usage?, marks_iff.1 hmarks, segments?_eq_some_iff.2 rfl]
  · intro h
    cases tree with
    | tagged tag types chunks slots =>
      rw [own?, usage?] at h
      split at h
      · next kind segments hkind hsegments =>
        cases h
        rw [segments?_eq_some_iff.1 hsegments]
        exact .tagged types segments slots (marks_iff.2 hkind)
      · cases h
    | _ => cases h

/-! ## Lists of usages -/

theorem usagesOfAll_append (before after : List Tree) :
    usagesOfAll markers (before ++ after)
      = usagesOfAll markers before ++ usagesOfAll markers after := by
  induction before with
  | nil => rw [usagesOfAll, List.nil_append, List.nil_append]
  | cons tree before ih => rw [List.cons_append, usagesOfAll, usagesOfAll, ih, List.append_assoc]

/-- The usages of a construct are its own one and those of its parts. -/
theorem usages_eq (tree : Tree) :
    tree.usages markers = (tree.own? markers).toList ++ usagesOfAll markers tree.parts := by
  cases tree <;> simp [usages, usagesOfAll, usagesOfAll_append, parts, own?]

/-- The list gives the usages among what positions lead to, each once and in the order of the
positions. -/
def Lists (markers : Markers) (lookup : List Nat → Option Tree) (list : List Usage) : Prop :=
  ∃ located : List (List Nat × Usage), list = located.map Prod.snd
    ∧ located.Pairwise (fun a b => a.1 < b.1)
    ∧ ∀ position usage, (position, usage) ∈ located
        ↔ ∃ node, lookup position = some node ∧ node.IsUsage markers usage

section

variable {first second both : List Nat → Option Tree} {before after : List Usage}

theorem lists_nil (h : ∀ position, first position = none) : Lists markers first [] :=
  ⟨[], rfl, .nil, by simp [h]⟩

/-- A lookup at the empty position alone lists what stands there. -/
theorem lists_own (tree : Tree) :
    Lists markers (fun position => if position = [] then some tree else none)
      (tree.own? markers).toList := by
  refine ⟨(tree.own? markers).toList.map ([], ·), ?_, ?_, fun position usage => ?_⟩
  · cases tree.own? markers <;> rfl
  · cases tree.own? markers <;> simp
  · by_cases h : position = [] <;> simp [h, isUsage_iff, eq_comm]

/-- **Lists of lookups whose positions come one behind the other** are put together. -/
theorem Lists.append (hfirst : Lists markers first before) (hsecond : Lists markers second after)
    (hlt : ∀ a b, (first a).isSome → (second b).isSome → a < b)
    (hboth : ∀ position, both position = (first position).or (second position)) :
    Lists markers both (before ++ after) := by
  obtain ⟨located, rfl, hsorted, hmem⟩ := hfirst
  obtain ⟨located', rfl, hsorted', hmem'⟩ := hsecond
  refine ⟨located ++ located', (List.map_append ..).symm, ?_, fun position usage => ?_⟩
  · refine List.pairwise_append.2 ⟨hsorted, hsorted', fun a ha b hb => ?_⟩
    obtain ⟨node, hnode, -⟩ := (hmem a.1 a.2).1 ha
    obtain ⟨node', hnode', -⟩ := (hmem' b.1 b.2).1 hb
    exact hlt a.1 b.1 (by rw [hnode]; rfl) (by rw [hnode']; rfl)
  · rw [List.mem_append, hmem, hmem', hboth]
    cases hnode : first position with
    | none => simp
    | some node =>
      have hnone : second position = none := by
        cases hnode' : second position with
        | none => rfl
        | some node' =>
          exact absurd (hlt position position (by rw [hnode]; rfl) (by rw [hnode']; rfl))
            (List.lt_irrefl position)
      simp [hnone]

/-- Positions inside of a part start with its number. -/
theorem Lists.inside (h : Lists markers first before) (number : Nat)
    (hsecond : ∀ position, second position
      = if position.head? = some number then first position.tail else none) :
    Lists markers second before := by
  obtain ⟨located, rfl, hsorted, hmem⟩ := h
  refine ⟨located.map fun found => (number :: found.1, found.2), by simp, ?_, ?_⟩
  · exact List.pairwise_map.2 (hsorted.imp fun hlt => List.cons_lt_cons_iff.2 (.inr ⟨rfl, hlt⟩))
  · intro position usage
    rw [hsecond]
    cases position with
    | nil => simp
    | cons other rest =>
      by_cases hother : other = number
      · simp [hother, hmem]
      · simp [hother, Ne.symm hother]

end

/-- A row of constructs lists the usages of each, one behind the other. -/
theorem lists_usagesOfAll
    (h : ∀ tree ∈ trees, Lists markers tree.at? (tree.usages markers)) :
    Lists markers (atAll? trees) (usagesOfAll markers trees) := by
  induction trees using List.reverseRecOn with
  | nil => exact lists_nil fun position => by cases position <;> simp [atAll?]
  | append_singleton trees tree ih =>
    rw [List.forall_mem_append, List.forall_mem_singleton] at h
    have hlast : Lists markers (fun position => if position.head? = some trees.length
        then tree.at? position.tail else none) (tree.usages markers) :=
      h.2.inside trees.length fun _ => rfl
    rw [usagesOfAll_append, show usagesOfAll markers [tree] = tree.usages markers by
      simp [usagesOfAll]]
    refine (ih h.1).append hlast (fun a b ha hb => ?_) fun position => ?_
    · cases a with
      | nil => cases ha
      | cons number rest =>
        split at hb
        · next hnumber =>
          obtain ⟨behind, rfl⟩ := List.head?_eq_some_iff.1 hnumber
          exact List.cons_lt_cons_iff.2 (.inl (lt_length_of_atAll? ha))
        · cases hb
    · cases position with
      | nil => rfl
      | cons number rest =>
        simp only [atAll?, List.head?_cons, Option.some.injEq, List.tail_cons]
        rcases lt_trichotomy number trees.length with hlt | rfl | hgt
        · rw [List.getElem?_append_left hlt, if_neg hlt.ne, Option.or_none]
        · simp
        · have hrow : (trees ++ [tree]).length ≤ number := by simpa using Nat.succ_le_of_lt hgt
          rw [List.getElem?_eq_none hrow, List.getElem?_eq_none hgt.le, if_neg hgt.ne']
          rfl

/-- **A construct lists the usages at all its positions.** -/
theorem lists_usages (tree : Tree) : Lists markers tree.at? (tree.usages markers) := by
  induction tree using induction_parts with
  | h tree ih =>
    rw [usages_eq]
    refine (lists_own tree).append (lists_usagesOfAll ih) (fun a b ha hb => ?_) fun position => ?_
    · cases b with
      | nil => cases hb
      | cons number rest =>
        split at ha
        · next hempty => exact hempty ▸ List.nil_lt_cons ..
        · cases ha
    · cases position <;> rfl

/-! ## Templates of a text -/

theorem Anchored.part {part : Tree} (h : tree.Anchored text) (hpart : part ∈ tree.parts) :
    part.Anchored text := by
  cases tree with
  | name text => cases hpart
  | member object property =>
    rw [List.mem_singleton.1 hpart]
    exact h
  | call callee arguments =>
    rw [Anchored] at h
    rcases List.mem_cons.1 hpart with rfl | hpart
    · exact h.2.1
    · exact allAnchored_iff.1 h.2.2 part hpart
  | tagged tag types chunks slots =>
    rw [Anchored] at h
    rcases List.mem_cons.1 hpart with rfl | hpart
    · exact h.2.1
    · rcases List.mem_append.1 hpart with hpart | hpart
      · exact allAnchored_iff.1 h.2.2.1 part hpart
      · exact allAnchored_iff.1 h.2.2.2.1 part hpart
  | other parts => exact allAnchored_iff.1 h part hpart

theorem Anchored.at? {position : List Nat} {node : Tree} (h : tree.Anchored text)
    (hnode : tree.at? position = some node) : node.Anchored text := by
  induction position generalizing tree with
  | nil => exact Option.some.inj hnode ▸ h
  | cons number rest ih =>
    obtain ⟨part, hpart, hnode⟩ := Option.bind_eq_some_iff.1 hnode
    exact ih (h.part (List.mem_of_getElem? hpart)) hnode

/-- **A usage of a text has one segment more than its template has slots.** -/
theorem IsUsage.length_segments {chunks : List (Option String)} {types slots : List Tree}
    (h : (Tree.tagged tag types chunks slots).IsUsage markers usage)
    (hanchored : (Tree.tagged tag types chunks slots).Anchored text) :
    usage.segments.length = slots.length + 1 := by
  obtain ⟨_, segments, _, -⟩ := h
  rw [Anchored, List.length_map] at hanchored
  exact hanchored.2.2.2.2

end Tree

/-! ## The usages of a file -/

/-- **A file lists the usages at the positions of its tree**, in the order of the positions, with
each position once, and nothing else.  The usage at a position is its template with one segment more
than slots; whether what is around it or beside it is a usage does not matter. -/
theorem usages_located {tree : Tree} (h : Tree.parse? (Dialect.ofPath path) code = some tree)
    (markers : Markers) :
    ∃ located : List (List Nat × Usage),
      usages markers path code = .ok (located.map Prod.snd)
        ∧ located.Pairwise (fun a b => a.1 < b.1)
        ∧ (∀ position usage, (position, usage) ∈ located
            ↔ ∃ node, tree.at? position = some node ∧ node.IsUsage markers usage)
        ∧ ∀ position usage tag types chunks slots, (position, usage) ∈ located →
            tree.at? position = some (.tagged tag types chunks slots) →
            usage.segments.length = slots.length + 1 := by
  obtain ⟨located, hlist, hsorted, hmem⟩ : Tree.Lists markers tree.at? (tree.usages markers) :=
    Tree.lists_usages tree
  refine ⟨located, ?_, hsorted, hmem, ?_⟩
  · rw [usages, h, ← hlist]
  · intro position usage tag types chunks slots hfound hnode
    obtain ⟨node, hnode', husage⟩ := (hmem position usage).1 hfound
    obtain rfl := Option.some.inj (hnode.symm.trans hnode')
    exact husage.length_segments ((Tree.Anchored.of_parse? h).at? hnode)

/-- Usages are found in the slot of a template that is none, in the arguments of a tag and behind an
escape that is malformed. -/
theorem usages_located_nested :
    let code := "__`a$\x7bcss`x$\x7b__`b`\x7d`\x7d$\x7b__p(__`c`)`# d`\x7d`;"
      ++ " __`\\u\x7bz\x7d$\x7bt.__`e`\x7d`;"
    ∃ (tree : Tree) (located : List (List Nat × Usage)),
      Tree.parse? (.ofPath "page.ts") code = some tree
      ∧ located.map Prod.snd = [⟨.scalar, ["a", "", ""]⟩, ⟨.scalar, ["b"]⟩, ⟨.plural, ["# d"]⟩,
          ⟨.scalar, ["c"]⟩, ⟨.scalar, ["e"]⟩]
      ∧ located.Pairwise (fun a b => a.1 < b.1)
      ∧ ∀ position usage, (position, usage) ∈ located
          ↔ ∃ node, tree.at? position = some node ∧ node.IsUsage {} usage := by
  intro code
  have hsome : (Tree.parse? (.ofPath "page.ts") code).isSome := by decide +kernel
  obtain ⟨tree, htree⟩ := Option.isSome_iff_exists.1 hsome
  obtain ⟨located, hlist, hsorted, hmem, -⟩ := usages_located htree {}
  have hfive : usages {} "page.ts" code = .ok [⟨.scalar, ["a", "", ""]⟩, ⟨.scalar, ["b"]⟩,
      ⟨.plural, ["# d"]⟩, ⟨.scalar, ["c"]⟩, ⟨.scalar, ["e"]⟩] := by decide +kernel
  exact ⟨tree, located, htree, Except.ok.inj (hlist.symm.trans hfive), hsorted, hmem⟩

end Phrasebook.Source
