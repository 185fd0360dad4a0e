import Phrasebook.Project.Tree
import Phrasebook.Proofs.Fields
import Phrasebook.Proofs.Project.Path

/-!
# Proofs/Project/Tree — writing over a file changes its text and nothing else

Paths are followed by the names of files and folders alone (`SameFolders`).  The shape of a tree is
the tree with every text made empty, so a write that keeps the shape keeps what every path leads to.
`read_write` is all that a caller needs: writing over a text that could be read succeeds, and then
every path reads what it read before or the new text.
-/

namespace Phrasebook

namespace Node

mutual

/-- The node with every text made empty. -/
def shape : Node → Node
  | text _ => text ""
  | binary bytes => binary bytes
  | folder children => folder (shapes children)

/-- The nodes of a folder with every text made empty. -/
def shapes : List (String × Node) → List (String × Node)
  | [] => []
  | (name, node) :: rest => (name, shape node) :: shapes rest

end

variable {node child : Node} {children : List (String × Node)} {name x : String}
  {names target : List String} {old new content : String}

theorem get?_shapes : Fields.get? x (shapes children) = (Fields.get? x children).map shape := by
  induction children with
  | nil => rfl
  | cons field children ih =>
    obtain ⟨n, node⟩ := field
    by_cases hx : n = x <;> simp [shapes, hx, ih]

theorem children_shape : node.shape.children = shapes node.children := by cases node <;> rfl

theorem descend_shape : node.shape.descend names = (node.descend names).map shape := by
  induction names generalizing node with
  | nil => rfl
  | cons name names ih =>
    rw [descend, descend, children_shape, get?_shapes]
    cases Fields.get? name node.children with
    | none => rfl
    | some child => exact ih

theorem shapes_put :
    shapes (Fields.put name node children) = Fields.put name node.shape (shapes children) := by
  induction children with
  | nil => rfl
  | cons field children ih =>
    obtain ⟨n, old⟩ := field
    by_cases hn : n = name <;> simp [shapes, Fields.put, hn, ih]

/-- What lies below a node lies in a folder. -/
theorem eq_folder_of_get? (h : Fields.get? name node.children = some child) :
    node = folder node.children := by
  cases node with
  | folder children => rfl
  | _ => cases h

/-- **Writing over a text keeps the shape.** -/
theorem shape_put (h : node.descend names = some (text old)) :
    (node.put (text new) names).shape = node.shape := by
  induction names generalizing node with
  | nil =>
    obtain rfl : node = text old := Option.some.inj h
    rfl
  | cons name names ih =>
    rw [descend] at h
    cases hchild : Fields.get? name node.children with
    | none => simp [hchild] at h
    | some child =>
      rw [hchild] at h
      have hshape := ih h
      rw [put, hchild, Option.getD_some, shape, shapes_put, hshape,
        Fields.put_of_get? (by rw [get?_shapes, hchild]; rfl), eq_folder_of_get? hchild]
      rfl

/-- **Writing over a text changes that text and no other.** -/
theorem descend_put (h : node.descend target = some (text old)) :
    (node.put (text new) target).descend names = some (text content)
      ↔ if names = target then content = new else node.descend names = some (text content) := by
  induction target generalizing node names with
  | nil =>
    obtain rfl : node = text old := Option.some.inj h
    cases names with
    | nil => simp [put, descend, eq_comm]
    | cons name names => simp [put, descend, children]
  | cons name target ih =>
    rw [descend] at h
    cases hchild : Fields.get? name node.children with
    | none => simp [hchild] at h
    | some child =>
      rw [hchild] at h
      cases names with
      | nil =>
        rw [eq_folder_of_get? hchild]
        simp [put, descend]
      | cons x names =>
        rw [put, hchild, Option.getD_some, descend, children, Fields.get?_put, descend]
        by_cases hx : name = x
        · subst hx
          simp [hchild, ih h]
        · simp [hx, Ne.symm hx]

/-- The folder above a node is a folder. -/
theorem descend_concat
    (h : node.descend (names ++ [name]) = some child) :
    ∃ children, node.descend names = some (.folder children)
      ∧ Fields.get? name children = some child := by
  induction names generalizing node with
  | nil =>
    rw [List.nil_append, descend] at h
    cases hchild : Fields.get? name node.children with
    | none => simp [hchild] at h
    | some found =>
      obtain rfl : found = child := by simpa [hchild, descend] using h
      exact ⟨node.children, congrArg some (eq_folder_of_get? hchild), hchild⟩
  | cons first names ih =>
    rw [List.cons_append, descend] at h
    rw [descend]
    cases hchild : Fields.get? first node.children with
    | none => simp [hchild] at h
    | some found =>
      rw [hchild] at h
      exact ih h

theorem descend_append {more : List String} :
    node.descend (names ++ more) = (node.descend names).bind (·.descend more) := by
  induction names generalizing node with
  | nil => rfl
  | cons name names ih =>
    rw [List.cons_append, descend, descend]
    cases Fields.get? name node.children with
    | none => rfl
    | some child => exact ih

/-- What a folder on the way holds. -/
theorem descend_concat_eq (hd : node.descend names = some (.folder children)) (name : String) :
    node.descend (names ++ [name]) = Fields.get? name children := by
  rw [descend_append, hd, Option.bind_some, descend, Node.children]
  cases Fields.get? name children <;> rfl

end Node

namespace Project

variable {project other : Project} {path old new : String} {names pieces folder : List String}

/-! ## Paths and folders -/

/-- Whether the same names lead somewhere in both projects, and to folders in both. -/
def SameFolders (project other : Project) : Prop :=
  ∀ names, (project.top.descend names).map Node.isFolder
    = (other.top.descend names).map Node.isFolder

theorem SameFolders.symm (h : SameFolders project other) : SameFolders other project :=
  fun names => (h names).symm

/-- What shows whether a node is a folder shows whether there are the same folders. -/
theorem SameFolders.of_view {view : Node → Node}
    (hview : ∀ names, (project.top.descend names).map view = (other.top.descend names).map view)
    (hfolder : ∀ node, (view node).isFolder = node.isFolder) : SameFolders project other := by
  have hcomp : Node.isFolder ∘ view = Node.isFolder := funext hfolder
  intro names
  rw [← hcomp, ← Option.map_map, ← Option.map_map, hview]

/-- **Paths are followed by the folders alone.** -/
theorem SameFolders.follow_eq (h : SameFolders project other) :
    project.follow names pieces = other.follow names pieces := by
  induction pieces generalizing names with
  | nil => rfl
  | cons piece pieces ih =>
    have hd := h names.reverse
    rw [follow.eq_def, follow.eq_def other]
    dsimp only
    cases hp : project.top.descend names.reverse with
    | none =>
      cases ho : other.top.descend names.reverse with
      | none => rfl
      | some node => simp [hp, ho] at hd
    | some node =>
      cases ho : other.top.descend names.reverse with
      | none => simp [hp, ho] at hd
      | some node' =>
        rw [hp, ho, Option.map_some, Option.map_some, Option.some.injEq] at hd
        cases node <;> cases node' <;> simp only [Node.isFolder, reduceCtorEq] at hd
        case folder.folder children children' =>
          -- the next piece is in both folders or in none of them
          have hsome : (Fields.get? piece children).isSome
              = (Fields.get? piece children').isSome := by
            have hnext := h (names.reverse ++ [piece])
            rw [Node.descend_concat_eq hp, Node.descend_concat_eq ho] at hnext
            simpa using congrArg Option.isSome hnext
          simp only [ih, hsome]
        all_goals rfl

theorem SameFolders.resolve_eq (h : SameFolders project other) :
    project.resolve path = other.resolve path := by
  rw [resolve, resolve, h.follow_eq]

/-- **What a path names agrees** in all that agrees along names. -/
theorem SameFolders.find_eq {α : Type} {view : Node → α} (h : SameFolders project other)
    (hview : ∀ names, (project.top.descend names).map view = (other.top.descend names).map view)
    (path : String) : (project.find path).map view = (other.find path).map view := by
  rw [find, find, h.resolve_eq]
  cases other.resolve path with
  | error fault => rfl
  | ok names =>
    have hnames := hview names
    cases hp : project.top.descend names <;> cases ho : other.top.descend names <;>
      simp_all [Except.map]

/-! ## Paths and the shape -/

/-- Trees of one shape have the same names in the same places. -/
theorem descend_congr (h : project.top.shape = other.top.shape) (names : List String) :
    (project.top.descend names).map Node.shape = (other.top.descend names).map Node.shape := by
  rw [← Node.descend_shape, ← Node.descend_shape, h]

theorem SameFolders.of_shape (h : project.top.shape = other.top.shape) :
    SameFolders project other :=
  .of_view (descend_congr h) fun node => by cases node <;> rfl

/-- **Paths are followed by the shape alone.** -/
theorem resolve_congr (h : project.top.shape = other.top.shape) :
    project.resolve path = other.resolve path := (SameFolders.of_shape h).resolve_eq

/-! ## The file that a write goes to -/

theorem splitLast_eq {pieces : List String} (h : pieces ≠ []) :
    pieces = (splitLast pieces).1 ++ [(splitLast pieces).2] := by
  induction pieces with
  | nil => exact absurd rfl h
  | cons piece pieces ih =>
    cases pieces with
    | nil => rfl
    | cons next rest => exact congrArg (piece :: ·) (ih (by simp))

/-- Following pieces is following the first ones and then the others. -/
theorem follow_append {more : List String} :
    project.follow names (pieces ++ more)
      = (project.follow names pieces).bind fun names => project.follow names more := by
  induction pieces generalizing names with
  | nil => rfl
  | cons piece pieces ih =>
    rw [List.cons_append, follow.eq_def, follow.eq_def project names (piece :: pieces)]
    dsimp only
    split
    · rfl
    · split
      · exact ih
      · split
        · split
          · rfl
          · exact ih
        · split
          · exact ih
          · rfl
    · rfl

/-- A piece that leads to a text is the name of the text. -/
theorem follow_singleton_of_text {piece : String} {reached : List String}
    (h : project.follow names [piece] = .ok reached)
    (ht : project.top.descend reached.reverse = some (.text old)) :
    piece ≠ "" ∧ piece ≠ "." ∧ piece ≠ ".." ∧ reached = piece :: names := by
  rw [follow.eq_def] at h
  dsimp only at h
  split at h
  · cases h
  · rename_i children hfolder
    split at h
    · -- an empty piece or a dot stays in a folder
      cases h
      rw [hfolder] at ht
      cases ht
    · rename_i hstay
      split at h
      · split at h
        · cases h
        · -- two dots climb to a folder
          rename_i name above hup
          cases h
          rw [List.reverse_cons] at hfolder
          obtain ⟨siblings, hparent, -⟩ := Node.descend_concat hfolder
          rw [hparent] at ht
          cases ht
      · rename_i hup
        split at h
        · cases h
          exact ⟨fun he => hstay (.inl he), fun he => hstay (.inr he), hup, rfl⟩
        · cases h
  · cases h

theorem read_eq_ok_iff {content : String} :
    project.read path = .ok content
      ↔ ∃ target, project.resolve path = .ok target
        ∧ project.top.descend target = some (.text content) := by
  rw [read, find]
  cases project.resolve path with
  | error fault => simp
  | ok target =>
    cases hd : project.top.descend target with
    | none => simp [hd]
    | some node => cases node <;> simp [hd]

/-- Writing over a text puts the new one where the old one is. -/
theorem write_eq_put (h : project.read path = .ok old) (new : String) :
    ∃ target, project.resolve path = .ok target
      ∧ project.top.descend target = some (.text old)
      ∧ project.write path new = .ok { top := project.top.put (.text new) target } := by
  obtain ⟨target, hresolve, ht⟩ := read_eq_ok_iff.1 h
  refine ⟨target, hresolve, ht, ?_⟩
  rw [resolve] at hresolve
  split at hresolve
  · cases hresolve
  · rename_i hpath
    rw [write, if_neg hpath]
    dsimp only
    have hsplit := splitLast_eq (Path.pieces_ne_nil path)
    rw [hsplit, follow_append] at hresolve
    cases hfolder : project.follow [] (splitLast (Path.pieces path)).1 with
    | error fault => simp [hfolder, Except.bind, Except.map] at hresolve
    | ok above =>
      rw [hfolder] at hresolve
      cases hlast : project.follow above [(splitLast (Path.pieces path)).2] with
      | error fault => simp [hlast, Except.bind, Except.map] at hresolve
      | ok reached =>
        obtain rfl : reached.reverse = target := by
          simpa [hlast, Except.bind, Except.map] using hresolve
        obtain ⟨hempty, hdot, hup, rfl⟩ := follow_singleton_of_text hlast ht
        rw [List.reverse_cons] at ht ⊢
        obtain ⟨children, hparent, hget⟩ := Node.descend_concat ht
        simp only [hparent, hempty, hdot, hup, hget, or_self, if_false]

/-- **Writing over a text that could be read** succeeds, keeps the shape of the tree, and changes
what a path reads to the new text or not at all. -/
theorem read_write (h : project.read path = .ok old) (new : String) :
    ∃ after, project.write path new = .ok after ∧ after.top.shape = project.top.shape
      ∧ after.read path = .ok new
      ∧ ∀ other content, project.read other = .ok content →
        after.read other = .ok content ∨ after.read other = .ok new := by
  obtain ⟨target, hresolve, ht, hwrite⟩ := write_eq_put h new
  have hshape : (project.top.put (.text new) target).shape = project.top.shape :=
    Node.shape_put ht
  refine ⟨_, hwrite, hshape, ?_, fun other content hother => ?_⟩
  · rw [read_eq_ok_iff]
    refine ⟨target, (resolve_congr hshape).trans hresolve, ?_⟩
    rw [Node.descend_put ht, if_pos rfl]
  · obtain ⟨place, hplace, hcontent⟩ := read_eq_ok_iff.1 hother
    have hsame : (Project.mk (project.top.put (.text new) target)).resolve other = .ok place :=
      (resolve_congr hshape).trans hplace
    by_cases he : place = target
    · exact .inr (read_eq_ok_iff.2 ⟨place, hsame, (Node.descend_put ht).2 (by rw [if_pos he])⟩)
    · exact .inl (read_eq_ok_iff.2 ⟨place, hsame, (Node.descend_put ht).2 (by rwa [if_neg he])⟩)

end Project

end Phrasebook
