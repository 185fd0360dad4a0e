import Phrasebook.Proofs.Project.Tree

/-!
# Proofs/Project/Files — the files of a project, place by place

    before ──write at p──▸ after          after.fileAt q = before.fileAt q   for q ≠ p

A place is the list of names on the way to a file.  Writing over a text changes what stands at its
place and nothing else.  Two projects are the same **but for some places** if they have the same
shape and the same files elsewhere; then every path that leads elsewhere reads the same.
-/

namespace Phrasebook.Project

variable {project before after last : Project} {path old new : String} {node : Node}
  {names target : List String} {touched more : List String → Prop}

/-- The file at a place; a folder is none. -/
def fileAt (project : Project) (place : List String) : Option Node :=
  (project.top.descend place).filter fun node => !node.isFolder

theorem fileAt_eq_some_iff :
    project.fileAt names = some node
      ↔ project.top.descend names = some node ∧ node.isFolder = false := by
  simp [fileAt, Option.filter_eq_some_iff]

theorem fileAt_of_read (h : project.read path = .ok old) (hp : project.resolve path = .ok target) :
    project.fileAt target = some (.text old) := by
  obtain ⟨place, hplace, ht⟩ := read_eq_ok_iff.1 h
  obtain rfl : place = target := Except.ok.inj (hplace.symm.trans hp)
  exact fileAt_eq_some_iff.2 ⟨ht, rfl⟩

/-- Whether there is a file at a place can be told from the shape. -/
theorem isSome_fileAt_eq (project : Project) (place : List String) :
    (project.fileAt place).isSome
      = ((project.top.descend place).map Node.shape).any fun node => !node.isFolder := by
  rw [fileAt]
  rcases project.top.descend place with _ | (_ | _ | _) <;> rfl

/-- Whether the path leads to a file, and the file is at this place. -/
def LeadsTo (project : Project) (path : String) (place : List String) : Prop :=
  project.resolve path = .ok place ∧ (project.fileAt place).isSome

theorem leadsTo_of_read (h : project.read path = .ok old) (hp : project.resolve path = .ok target) :
    project.LeadsTo path target := by
  refine ⟨hp, ?_⟩
  rw [fileAt_of_read h hp]
  rfl

/-- Nodes of one shape are both folders, the same bytes, or both texts. -/
theorem filter_isFolder_of_shape {found kept : Option Node}
    (hshape : found.map Node.shape = kept.map Node.shape)
    (htext : ∀ content, found = some (.text content) ↔ kept = some (.text content)) :
    found.filter (fun node => !node.isFolder) = kept.filter fun node => !node.isFolder := by
  cases kept with
  | none => simp [Option.map_eq_none_iff.1 hshape]
  | some node =>
    obtain ⟨other, rfl, hother⟩ := Option.map_eq_some_iff.1 hshape
    cases node with
    | text content => rw [(htext content).2 rfl]
    | binary bytes => cases other <;> simp_all [Node.shape]
    | folder children => cases other <;> simp_all [Node.shape, Node.isFolder, Option.filter]

/-- **Writing over a text changes what stands at its place and nothing else.** -/
theorem fileAt_write (h : project.read path = .ok old) (hp : project.resolve path = .ok target)
    (new : String) :
    ∃ after, project.write path new = .ok after ∧ after.top.shape = project.top.shape
      ∧ ∀ names, after.fileAt names
          = if names = target then some (.text new) else project.fileAt names := by
  obtain ⟨place, hplace, ht, hwrite⟩ := write_eq_put h new
  obtain rfl : place = target := Except.ok.inj (hplace.symm.trans hp)
  have hshape : (project.top.put (.text new) place).shape = project.top.shape := Node.shape_put ht
  refine ⟨_, hwrite, hshape, fun names => ?_⟩
  split
  · rename_i hsame
    subst hsame
    exact fileAt_eq_some_iff.2 ⟨(Node.descend_put ht).2 (by rw [if_pos rfl]), rfl⟩
  · rename_i hother
    refine filter_isFolder_of_shape (descend_congr hshape names) fun content => ?_
    rw [Node.descend_put ht, if_neg hother]

/-! ## Projects that are the same but for some places -/

/-- Whether two projects have the same shape and the same files but for the touched places. -/
structure SameBut (touched : List String → Prop) (before after : Project) : Prop where
  shape : after.top.shape = before.top.shape
  files : ∀ place, ¬ touched place → after.fileAt place = before.fileAt place

theorem SameBut.refl (touched : List String → Prop) (project : Project) :
    SameBut touched project project := ⟨rfl, fun _ _ => rfl⟩

theorem SameBut.trans (h : SameBut touched before after) (h' : SameBut touched after last) :
    SameBut touched before last :=
  ⟨h'.shape.trans h.shape, fun place hplace =>
    (h'.files place hplace).trans (h.files place hplace)⟩

theorem SameBut.mono (h : SameBut touched before after) (hm : ∀ place, touched place → more place) :
    SameBut more before after :=
  ⟨h.shape, fun place hplace => h.files place fun ht => hplace (hm place ht)⟩

theorem SameBut.resolve (h : SameBut touched before after) (path : String) :
    after.resolve path = before.resolve path := resolve_congr h.shape

/-- There are files at the same places. -/
theorem SameBut.isSome_fileAt (h : SameBut touched before after) (place : List String) :
    (after.fileAt place).isSome = (before.fileAt place).isSome := by
  rw [isSome_fileAt_eq, isSome_fileAt_eq, descend_congr h.shape]

/-- **The same paths lead to the same files.** -/
theorem SameBut.leadsTo_iff (h : SameBut touched before after) {place : List String} :
    after.LeadsTo path place ↔ before.LeadsTo path place := by
  rw [LeadsTo, LeadsTo, h.resolve, h.isSome_fileAt]

/-- Where no touched file is, the two projects have the same file or none. -/
theorem SameBut.fileAt_eq (h : SameBut touched before after) {place : List String}
    (hplace : (before.fileAt place).isSome → ¬ touched place) :
    after.fileAt place = before.fileAt place := by
  by_cases hfile : (before.fileAt place).isSome
  · exact h.files place (hplace hfile)
  · have hnone : ¬ (after.fileAt place).isSome := by rwa [h.isSome_fileAt]
    rw [Option.not_isSome_iff_eq_none] at hfile hnone
    rw [hfile, hnone]

/-- **A path that leads to no touched file reads the same.** -/
theorem SameBut.read (h : SameBut touched before after)
    (hpath : ∀ place, before.LeadsTo path place → ¬ touched place) :
    after.read path = before.read path := by
  rw [Project.read, Project.read, find, find, h.resolve]
  cases hplace : before.resolve path with
  | error fault => rfl
  | ok place =>
    have hfile := h.fileAt_eq fun hsome => hpath place ⟨hplace, hsome⟩
    have hshape := descend_congr h.shape place
    rw [fileAt, fileAt] at hfile
    cases hb : before.top.descend place with
    | none =>
      rw [hb] at hshape
      simp [Option.map_eq_none_iff.1 hshape, hb]
    | some node =>
      rw [hb] at hshape hfile
      obtain ⟨other, ha, hother⟩ := Option.map_eq_some_iff.1 hshape
      rw [ha] at hfile
      cases node <;> cases other <;> simp_all [Node.shape, Node.isFolder, Option.filter]

end Phrasebook.Project
