import Phrasebook.Project.Scan
import Phrasebook.Proofs.Project.Tree

/-!
# Proofs/Project/Scan — which catalogs there are depends on the shape of the tree

A scan looks at names and at what is a folder, not at texts, so it finds the same catalog files
before and after texts were written over.
-/

namespace Phrasebook.Project

variable {project other : Project} {path : String} {keep : String → Node → Bool}

mutual

/-- A walk that keeps by path and kind alone goes the same way through trees of one shape. -/
theorem walk_shape (hk : ∀ path node, keep path node.shape = keep path node) :
    ∀ (path : String) (node : Node), walk keep path node.shape = walk keep path node
  | path, .folder children => by
    have hhere := hk path (.folder children)
    rw [Node.shape] at hhere ⊢
    rw [walk, walk, hhere, walkAll_shapes hk path children]
  | path, .text content => by
    have hhere := hk path (.text content)
    rw [Node.shape] at hhere ⊢
    rw [walk, walk, hhere]
  | path, .binary bytes => rfl

theorem walkAll_shapes (hk : ∀ path node, keep path node.shape = keep path node) :
    ∀ (folder : String) (children : List (String × Node)),
      walkAll keep folder (Node.shapes children) = walkAll keep folder children
  | folder, [] => rfl
  | folder, (name, node) :: rest => by
    rw [Node.shapes, walkAll, walkAll, walk_shape hk, walkAll_shapes hk folder rest]

end

theorem hasExtension_iff {extensions : List String} :
    hasExtension extensions path = true
      ↔ ∃ extension ∈ extensions, Path.extension? path = some extension := by
  rw [hasExtension]
  cases Path.extension? path <;> simp [eq_comm]

/-- **A scan sorts the files that its walk finds.** -/
theorem files_scanSources_perm {base : String} {extensions patterns : List String} :
    (project.scanSources base extensions patterns).files.Perm
      (match project.find base with
        | .ok node =>
          (walk (fun path node => !isSkipped path node
            && !(Ignores.ofPatterns base patterns).ignores path) base node).filter
              (hasExtension extensions)
        | .error _ => []) := by
  rw [scanSources]
  cases project.find base with
  | ok node => exact List.mergeSort_perm _ _
  | error fault => exact .nil

theorem isSkipped_shape (path : String) (node : Node) :
    isSkipped path node.shape = isSkipped path node := by cases node <;> rfl

theorem find_congr (h : project.top.shape = other.top.shape) (path : String) :
    (project.find path).map Node.shape = (other.find path).map Node.shape :=
  (SameFolders.of_shape h).find_eq (descend_congr h) path

/-- The catalog files under a folder, by the paths that a walk keeps. -/
theorem walk_catalogs_shape (path : String) (node : Node) :
    walk (fun path node => !isSkipped path node) path node.shape
      = walk (fun path node => !isSkipped path node) path node :=
  walk_shape (fun path node => by rw [isSkipped_shape]) path node

/-- **Trees of one shape have the same catalog files.** -/
theorem findCatalogs_congr (h : project.top.shape = other.top.shape) (path : String) :
    project.findCatalogs path = other.findCatalogs path := by
  have hfind := find_congr h path
  rw [findCatalogs, findCatalogs]
  cases hp : project.find path <;> cases ho : other.find path <;>
    simp only [hp, ho, Except.map, reduceCtorEq, Except.ok.injEq] at hfind
  · rfl
  · rename_i node node'
    simp only [← walk_catalogs_shape path node, ← walk_catalogs_shape path node', hfind]

theorem isOk_find_congr (h : project.top.shape = other.top.shape) {node : Node}
    (hfind : project.find path = .ok node) : ∃ node', other.find path = .ok node' := by
  have hmap := find_congr h path
  rw [hfind] at hmap
  cases ho : other.find path with
  | error fault => simp [ho, Except.map] at hmap
  | ok node' => exact ⟨node', rfl⟩

end Phrasebook.Project
