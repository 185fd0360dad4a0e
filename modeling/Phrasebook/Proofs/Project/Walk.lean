import Phrasebook.Proofs.Project.Places

/-!
# Proofs/Project/Walk — what a walk lists is what can be reached

    base ──▸ base/a ──▸ base/a/b ──▸ base/a/b/c.ts
     ok        ok          ok             ok           c.ts is listed
     ok        ✗                                       nothing below `a` is listed

A walk prunes: it does not look below a path that is left out.  That is the same as asking of a file
that **no path on the way to it is left out**, the base and the file included
(`mem_walk_iff_reaches`), since the paths on the way are those of the first names.  The tree and the
paths agree: a path below another one names what the names lead to (`find_below_iff`).
-/

namespace Phrasebook

/-! ## Along names -/

namespace Node

variable {keep : String → Node → Bool} {path found name : String} {node : Node}
  {names : List String} {children : List (String × Node)}

/-- The names lead from the node at the path to a file, and all that they pass is kept. -/
structure Kept (keep : String → Node → Bool) (path : String) (node : Node) (names : List String) :
    Prop where
  file : ∃ target, node.descend names = some target ∧ target.isFolder = false
  way : ∀ before, before <+: names → ∀ passed, node.descend before = some passed →
    keep (Path.below path before) passed = true

theorem kept_nil_iff : Kept keep path node [] ↔ node.isFolder = false ∧ keep path node = true := by
  constructor
  · rintro ⟨⟨target, htarget, hfile⟩, hway⟩
    obtain rfl := Option.some.inj htarget
    exact ⟨hfile, hway [] List.prefix_rfl node rfl⟩
  · rintro ⟨hfile, hkeep⟩
    refine ⟨⟨node, rfl, hfile⟩, fun before hbefore passed hpassed => ?_⟩
    obtain rfl := List.prefix_nil.1 hbefore
    obtain rfl := Option.some.inj hpassed
    exact hkeep

/-- **What is kept on the way along names** is the node itself and what is kept on the way from the
first name on. -/
theorem kept_cons_iff :
    Kept keep path node (name :: names)
      ↔ keep path node = true ∧ ∃ child, Fields.get? name node.children = some child
        ∧ Kept keep (Path.join path name) child names := by
  constructor
  · rintro ⟨⟨target, htarget, hfile⟩, hway⟩
    refine ⟨hway [] List.nil_prefix node rfl, ?_⟩
    rw [descend] at htarget
    cases hchild : Fields.get? name node.children with
    | none => simp [hchild] at htarget
    | some child =>
      rw [hchild] at htarget
      refine ⟨child, rfl, ⟨target, htarget, hfile⟩, fun before hbefore passed hpassed => ?_⟩
      refine hway (name :: before) ((List.prefix_cons_inj name).2 hbefore) passed ?_
      rw [descend, hchild]
      exact hpassed
  · rintro ⟨hkeep, child, hchild, ⟨target, htarget, hfile⟩, hway⟩
    refine ⟨⟨target, by rw [descend, hchild]; exact htarget, hfile⟩,
      fun before hbefore passed hpassed => ?_⟩
    rcases List.prefix_cons_iff.1 hbefore with rfl | ⟨rest, rfl, hrest⟩
    · obtain rfl := Option.some.inj hpassed
      exact hkeep
    · rw [descend, hchild] at hpassed
      exact hway rest hrest passed hpassed

end Node

namespace Project

variable {project : Project} {base path found name : String} {node target : Node}
  {names reached place : List String} {keep : String → Node → Bool}
  {leftOut : String → Node → Prop}

open Node

/-- A file is listed at its own path, if it is kept. -/
theorem mem_single_iff (hnode : node.isFolder = false) :
    (found ∈ if keep base node then [base] else [])
      ↔ ∃ names, found = Path.below base names ∧ Kept keep base node names := by
  constructor
  · intro hfound
    split at hfound
    · next hkeep => exact ⟨[], List.mem_singleton.1 hfound, kept_nil_iff.2 ⟨hnode, hkeep⟩⟩
    · cases hfound
  · rintro ⟨names, rfl, hkept⟩
    cases names with
    | nil =>
      rw [if_pos (kept_nil_iff.1 hkept).2]
      exact List.mem_singleton.2 rfl
    | cons name names =>
      obtain ⟨-, child, hchild, -⟩ := kept_cons_iff.1 hkept
      rw [eq_folder_of_get? hchild] at hnode
      cases hnode

mutual

/-- **A walk lists the files to which names lead past nothing but what is kept.** -/
theorem mem_walk_iff : ∀ (node : Node) (path : String), node.WellFormed →
    (found ∈ walk keep path node
      ↔ ∃ names, found = Path.below path names ∧ Kept keep path node names)
  | .folder children, path, hw => by
    rw [WellFormed] at hw
    have hchildren := mem_walkAll_iff children path hw.2
    rw [walk]
    constructor
    · intro hfound
      split at hfound
      · next hkeep =>
        obtain ⟨name, child, names, hchild, hpath, hkept⟩ := hchildren.1 hfound
        exact ⟨name :: names, hpath,
          kept_cons_iff.2 ⟨hkeep, child, (Fields.get?_eq_some_iff hw.1).2 hchild, hkept⟩⟩
      · cases hfound
    · rintro ⟨names, hpath, hkept⟩
      cases names with
      | nil => cases (kept_nil_iff.1 hkept).1
      | cons name names =>
        obtain ⟨hkeep, child, hchild, hkept⟩ := kept_cons_iff.1 hkept
        rw [if_pos hkeep]
        have hmem := (Fields.get?_eq_some_iff hw.1).1 hchild
        exact hchildren.2 ⟨name, child, names, hmem, hpath, hkept⟩
  | .text content, path, _ => by
    rw [walk]
    exact mem_single_iff rfl
  | .binary bytes, path, _ => by
    rw [walk]
    exact mem_single_iff rfl

/-- A walk through a folder lists the files of each node in it. -/
theorem mem_walkAll_iff : ∀ (children : List (String × Node)) (path : String),
    Node.AllWellFormed children →
    (found ∈ walkAll keep path children ↔ ∃ name child names, (name, child) ∈ children
      ∧ found = Path.below path (name :: names) ∧ Kept keep (Path.join path name) child names)
  | [], _, _ => by simp [walkAll]
  | (name, node) :: rest, path, hw => by
    rw [AllWellFormed] at hw
    rw [walkAll, List.mem_append, mem_walk_iff node _ hw.2.1, mem_walkAll_iff rest path hw.2.2]
    constructor
    · rintro (⟨names, hpath, hkept⟩ | ⟨other, child, names, hchild, hpath, hkept⟩)
      · exact ⟨name, node, names, List.mem_cons_self, hpath, hkept⟩
      · exact ⟨other, child, names, List.mem_cons_of_mem _ hchild, hpath, hkept⟩
    · rintro ⟨other, child, names, hchild, hpath, hkept⟩
      rcases List.mem_cons.1 hchild with hhere | hchild
      · cases hhere
        exact .inl ⟨names, hpath, hkept⟩
      · exact .inr ⟨other, child, names, hchild, hpath, hkept⟩

end

/-! ## Along paths -/

/-- Following a name reaches it in a folder. -/
theorem of_follow_name (hname : Path.IsName name)
    (h : project.follow names [name] = .ok reached) :
    reached = name :: names ∧ ∃ children,
      project.top.descend names.reverse = some (.folder children)
        ∧ (Fields.get? name children).isSome := by
  rw [follow.eq_def] at h
  dsimp only at h
  split at h
  · cases h
  · next children hfolder =>
    rw [if_neg (not_or.2 ⟨hname.1, hname.2.1⟩), if_neg hname.2.2.1] at h
    split at h
    · next hsome =>
      rw [follow_nil, Except.ok.injEq] at h
      exact ⟨h.symm, children, hfolder, hsome⟩
    · cases h
  · cases h

/-- An empty piece stays in a folder. -/
theorem follow_empty_of_folder {children : List (String × Node)}
    (h : project.top.descend names.reverse = some (.folder children)) :
    project.follow names [""] = .ok names := by
  rw [follow.eq_def]
  simp only [h, true_or, if_true, follow_nil]

/-- What is reached along a joined name is reached along the path and then the name. -/
theorem of_follow_join (hne : base ≠ "") (hname : Path.IsName name)
    (h : project.follow [] (Path.pieces (Path.join base name)) = .ok reached) :
    ∃ names, project.follow [] (Path.pieces base) = .ok names
      ∧ project.follow names [name] = .ok reached := by
  rcases Path.pieces_join hne hname with hpieces | ⟨front, hbase, hpieces⟩
  · rw [hpieces, follow_append] at h
    cases hnames : project.follow [] (Path.pieces base) with
    | error fault => simp [hnames, Except.bind] at h
    | ok names =>
      rw [hnames] at h
      exact ⟨names, rfl, h⟩
  · -- the base ends in a slash; a name behind it shows that the slash stands behind a folder
    rw [hpieces, follow_append] at h
    rw [hbase, follow_append]
    cases hnames : project.follow [] front with
    | error fault => simp [hnames, Except.bind] at h
    | ok names =>
      rw [hnames] at h
      obtain ⟨-, children, hfolder, -⟩ := of_follow_name hname h
      exact ⟨names, follow_empty_of_folder hfolder, h⟩

/-- **A joined name** names what has that name in the folder that the path names. -/
theorem find_join_iff (hne : base ≠ "") (hname : Path.IsName name) :
    project.find (Path.join base name) = .ok node
      ↔ ∃ children, project.find base = .ok (.folder children)
        ∧ Fields.get? name children = some node := by
  simp only [find_eq_ok_iff]
  constructor
  · rintro ⟨place, hplace, hnode⟩
    obtain ⟨-, habs, hfollow⟩ := resolve_eq_ok_iff.1 hplace
    rw [Path.isAbsolute_join hne hname] at habs
    obtain ⟨names, hbase, hlast⟩ := of_follow_join hne hname hfollow
    obtain ⟨hreached, children, hfolder, -⟩ := of_follow_name hname hlast
    obtain rfl : place = names.reverse ++ [name] := by
      rw [← List.reverse_reverse place, hreached, List.reverse_cons]
    refine ⟨children, ⟨names.reverse, resolve_eq_ok_iff.2 ⟨hne, habs, ?_⟩, hfolder⟩, ?_⟩
    · rwa [List.reverse_reverse]
    · rwa [Node.descend_concat_eq hfolder] at hnode
  · rintro ⟨children, ⟨place, hplace, hfolder⟩, hget⟩
    refine ⟨place ++ [name], resolve_join hplace hfolder hname (by rw [hget]; rfl), ?_⟩
    rw [Node.descend_concat_eq hfolder, hget]

theorem ne_empty_of_find (h : project.find base = .ok node) : base ≠ "" := by
  obtain ⟨place, hplace, -⟩ := find_eq_ok_iff.1 h
  exact (resolve_eq_ok_iff.1 hplace).1

/-- **A path below another one** names what the names lead to. -/
theorem find_below_iff (hfind : project.find base = .ok node)
    (hnames : ∀ name ∈ names, Path.IsName name) :
    project.find (Path.below base names) = .ok target ↔ node.descend names = some target := by
  induction names using List.reverseRecOn generalizing target with
  | nil => simp [hfind, Node.descend]
  | append_singleton names name ih =>
    obtain ⟨hrest, hname⟩ := Path.forall_isName_concat.1 hnames
    rw [Path.below_concat,
      find_join_iff (Path.below_ne_empty (ne_empty_of_find hfind) hrest) hname]
    constructor
    · rintro ⟨children, hfolder, hget⟩
      rw [Node.descend_concat_eq ((ih hrest).1 hfolder), hget]
    · intro htarget
      obtain ⟨children, hfolder, hget⟩ := Node.descend_concat htarget
      exact ⟨children, (ih hrest).2 hfolder, hget⟩

/-- The path is that of a file at or below the base, and no path on the way is left out: not that of
the base, not that of the file, and none in between. -/
def Reaches (project : Project) (leftOut : String → Node → Prop) (base path : String) : Prop :=
  ∃ names, (∀ name ∈ names, Path.IsName name) ∧ path = Path.below base names
    ∧ (∀ before, before <+: names → ∃ node, project.find (Path.below base before) = .ok node
        ∧ ¬ leftOut (Path.below base before) node)
    ∧ ∃ node, project.find path = .ok node ∧ node.isFolder = false

theorem Reaches.exists_find_base (h : project.Reaches leftOut base found) :
    ∃ node, project.find base = .ok node := by
  obtain ⟨names, -, -, hway, -⟩ := h
  obtain ⟨node, hnode, -⟩ := hway [] List.nil_prefix
  exact ⟨node, hnode⟩

theorem not_reaches_of_error {fault : FileFault} (h : project.find base = .error fault) :
    ¬ project.Reaches leftOut base found := by
  intro hreaches
  obtain ⟨node, hnode⟩ := hreaches.exists_find_base
  rw [h] at hnode
  cases hnode

/-- What can be reached past more can be reached past less. -/
theorem Reaches.imp {other : String → Node → Prop} (h : project.Reaches leftOut base found)
    (himp : ∀ path node, other path node → leftOut path node) :
    project.Reaches other base found := by
  obtain ⟨names, hnames, hpath, hway, hfile⟩ := h
  refine ⟨names, hnames, hpath, fun before hbefore => ?_, hfile⟩
  obtain ⟨node, hnode, hin⟩ := hway before hbefore
  exact ⟨node, hnode, fun hout => hin (himp _ _ hout)⟩

/-- **A walk lists the files that can be reached** past nothing that is left out. -/
theorem mem_walk_iff_reaches (hw : project.top.WellFormed) (hfind : project.find base = .ok node)
    (hkeep : ∀ path node, keep path node = true ↔ ¬ leftOut path node) :
    found ∈ walk keep base node ↔ project.Reaches leftOut base found := by
  obtain ⟨place, -, hplace⟩ := find_eq_ok_iff.1 hfind
  have hnode : node.WellFormed := (hw.descend hplace).2
  rw [mem_walk_iff node base hnode]
  constructor
  · rintro ⟨names, rfl, ⟨target, htarget, hfile⟩, hway⟩
    have hnames := (hnode.descend htarget).1
    refine ⟨names, hnames, rfl, fun before hbefore => ?_, target,
      (find_below_iff hfind hnames).2 htarget, hfile⟩
    obtain ⟨behind, rfl⟩ := hbefore
    rw [Node.descend_append] at htarget
    obtain ⟨passed, hpassed, -⟩ := Option.bind_eq_some_iff.1 htarget
    rw [List.forall_mem_append] at hnames
    exact ⟨passed, (find_below_iff hfind hnames.1).2 hpassed,
      (hkeep _ _).1 (hway before (List.prefix_append _ _) passed hpassed)⟩
  · rintro ⟨names, hnames, rfl, hway, target, htarget, hfile⟩
    refine ⟨names, rfl, ⟨target, (find_below_iff hfind hnames).1 htarget, hfile⟩,
      fun before hbefore passed hpassed => ?_⟩
    obtain ⟨other, hother, hin⟩ := hway before hbefore
    have hbeforeNames : ∀ name ∈ before, Path.IsName name :=
      fun name hname => hnames name (hbefore.subset hname)
    have hsame := (find_below_iff hfind hbeforeNames).1 hother
    obtain rfl := Option.some.inj (hpassed.symm.trans hsame)
    exact (hkeep _ _).2 hin

/-! ## Folders that are never entered -/

/-- The path is that of a folder with one of the names whose folders are never entered. -/
def SkippedFolder (path : String) (node : Node) : Prop :=
  node.isFolder = true ∧ ∃ name ∈ skippedFolders, Path.fileName? path = some name

theorem isSkipped_iff {path : String} : isSkipped path node = true ↔ SkippedFolder path node := by
  rw [isSkipped, SkippedFolder, Bool.and_eq_true, List.contains_iff_mem]
  refine and_congr_right fun _ => ?_
  cases hname : Path.fileName? path with
  | some name => simp
  | none =>
    -- a path without a name is none of these names, since each of them names itself
    refine iff_of_false (fun h => ?_) (by simp)
    rw [Option.getD_none] at h
    rcases List.mem_cons.1 h with rfl | h
    · exact absurd hname (by decide +kernel)
    · obtain rfl := List.mem_singleton.1 h
      exact absurd hname (by decide +kernel)

end Project

end Phrasebook
