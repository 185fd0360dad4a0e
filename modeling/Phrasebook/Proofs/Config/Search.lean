import Phrasebook.Check
import Phrasebook.Proofs.Project.Places

/-!
# Proofs/Config/Search — which configuration a folder gets

    top/.tagi18nrc.json
    top/lib/util        search from "lib/util":  lib/util ──▸ lib ──▸ ""    finds the file
                        search from ".", there:  .        ──▸ ""            finds nothing

The nearest configuration of a folder is that of the folder itself or of the closest one above, up
to a folder that holds `.git` (`nearestConfig`).  A search from the path of a folder finds it
(`findConfig_ofNames`): climbing leaves out one name at a time.  A check searches from a dot in its
own folder, and a dot has no names to leave out, so **a check uses the configuration of its own
folder or the defaults** (`usedConfig_eq`), whatever stands above.
-/

namespace Phrasebook.Project

variable {project : Project} {folder names : List String} {name : String}
  {children : List (String × Node)}

/-- Whether a folder has a file or folder of this name. -/
def holds (project : Project) (folder : List String) (name : String) : Bool :=
  (project.top.descend (folder ++ [name])).isSome

/-- The place of the configuration file that is nearest to a folder, whose names are given the
innermost first: in the folder itself, or above it unless the folder holds `.git`. -/
def nearestConfig (project : Project) : List String → Option (List String)
  | [] => if project.holds [] Config.fileName then some [Config.fileName] else none
  | name :: above =>
    let folder := (name :: above).reverse
    if project.holds folder Config.fileName then some (folder ++ [Config.fileName])
    else if project.holds folder ".git" then none
    else project.nearestConfig above

/-- The project as it is seen from one of its folders. -/
def within (project : Project) (folder : List String) : Project :=
  ⟨(project.top.descend folder).getD (.folder [])⟩

/-- The place of the configuration file that a check in a folder uses. -/
def usedConfig (project : Project) (folder : List String) : Option (List String) :=
  ((project.within folder).findConfig ".").bind fun path =>
    ((project.within folder).resolve path).toOption.map (folder ++ ·)

theorem isName_fileName : Path.IsName Config.fileName := by decide +kernel

theorem isName_git : Path.IsName ".git" := by decide +kernel

theorem holds_eq (hd : project.top.descend folder = some (.folder children)) (name : String) :
    project.holds folder name = (Fields.get? name children).isSome := by
  rw [holds, Node.descend_concat_eq hd]

/-! ## The search from the path of a folder -/

/-- **A path of names leads along the names.** -/
theorem follow_names (hnames : ∀ name ∈ names, Path.IsName name) {node : Node}
    (hd : project.top.descend names = some node) :
    project.follow [] names = .ok names.reverse := by
  induction names using List.reverseRecOn generalizing node with
  | nil => exact follow_nil
  | append_singleton names name ih =>
    obtain ⟨children, hparent, hget⟩ := Node.descend_concat hd
    obtain ⟨hrest, hname⟩ := Path.forall_isName_concat.1 hnames
    rw [follow_append, ih hrest hparent, List.reverse_append, List.reverse_singleton,
      List.singleton_append]
    exact follow_name hname (by rwa [List.reverse_reverse]) (by rw [hget]; rfl)

theorem resolve_ofNames (hne : names ≠ []) (hnames : ∀ name ∈ names, Path.IsName name) {node : Node}
    (hd : project.top.descend names = some node) :
    project.resolve (Path.ofNames names) = .ok names := by
  refine resolve_eq_ok_iff.2 ⟨fun he => ?_, Path.isAbsolute_ofNames hnames, ?_⟩
  · have hlen := Path.length_le_length_ofNames hnames
    rw [he] at hlen
    exact hne (List.length_eq_zero_iff.1 (Nat.le_zero.1 hlen))
  · rw [Path.pieces_ofNames hne hnames, follow_names hnames hd]

/-- What a path names that leads to a folder and then along a name. -/
theorem exists?_of_follow {path : String} (hne : path ≠ "") (habs : Path.isAbsolute path = false)
    (hf : project.follow [] (Path.pieces path) = project.follow folder.reverse [name])
    (hd : project.top.descend folder = some (.folder children)) (hname : Path.IsName name) :
    project.exists? path = project.holds folder name := by
  rw [holds_eq hd, exists?, find, resolve, if_neg (by simp [hne, habs]), hf]
  cases hg : Fields.get? name children with
  | none =>
    have hstop : project.follow folder.reverse [name] = .error .notFound := by
      rw [follow.eq_def]
      simp [hd, hname.1, hname.2.1, hname.2.2.1, hg]
    rw [hstop]
    rfl
  | some child =>
    have hstep : project.follow folder.reverse [name] = .ok (name :: folder.reverse) :=
      follow_name hname (by rwa [List.reverse_reverse]) (by rw [hg]; rfl)
    have hdown : project.top.descend (folder ++ [name]) = some child :=
      (Node.descend_concat_eq hd name).trans hg
    simp [hstep, Except.map, hdown, Except.isOk, Except.toBool]

/-- **A name joined to the path of a folder** names something if the folder holds the name. -/
theorem exists?_join {path : String} (hp : project.resolve path = .ok folder)
    (hd : project.top.descend folder = some (.folder children)) (hname : Path.IsName name) :
    project.exists? (Path.join path name) = project.holds folder name := by
  obtain ⟨hne, habs, -⟩ := resolve_eq_ok_iff.1 hp
  exact exists?_of_follow (Path.join_ne_empty hname) ((Path.isAbsolute_join hne hname).trans habs)
    (follow_join hp hname) hd hname

theorem exists?_join_ofNames (hnames : ∀ name ∈ names, Path.IsName name)
    (hd : project.top.descend names = some (.folder children)) (hname : Path.IsName name) :
    project.exists? (Path.join (Path.ofNames names) name) = project.holds names name := by
  rcases eq_or_ne names [] with rfl | hne
  · rw [Path.ofNames_nil, Path.join_empty hname]
    exact exists?_of_follow hname.1 hname.isAbsolute (by rw [hname.pieces]; rfl) hd hname
  · exact exists?_join (resolve_ofNames hne hnames hd) hd hname

/-- One step of the search. -/
theorem searchConfig_succ (path : String) (fuel : Nat) :
    project.searchConfig path (fuel + 1)
      = if project.exists? (Path.join path Config.fileName) then
          some (Path.join path Config.fileName)
        else if project.exists? (Path.join path ".git") then none
        else (Path.parent? path).bind (project.searchConfig · fuel) := by
  rw [searchConfig]
  cases Path.parent? path <;> rfl

/-- One step of the search from the path of a folder. -/
theorem searchConfig_ofNames_succ (hnames : ∀ name ∈ names, Path.IsName name)
    (hd : project.top.descend names = some (.folder children)) (fuel : Nat) :
    project.searchConfig (Path.ofNames names) (fuel + 1)
      = if project.holds names Config.fileName then
          some (Path.ofNames (names ++ [Config.fileName]))
        else if project.holds names ".git" then none
        else (Path.parent? (Path.ofNames names)).bind (project.searchConfig · fuel) := by
  rw [searchConfig_succ, exists?_join_ofNames hnames hd isName_fileName,
    exists?_join_ofNames hnames hd isName_git, Path.join_ofNames hnames isName_fileName]

/-- The search from the path of a folder, with fuel for every name. -/
theorem searchConfig_ofNames (hnames : ∀ name ∈ names, Path.IsName name)
    (hd : project.top.descend names = some (.folder children)) {fuel : Nat}
    (hfuel : names.length < fuel) :
    project.searchConfig (Path.ofNames names) fuel
      = (project.nearestConfig names.reverse).map Path.ofNames := by
  induction names using List.reverseRecOn generalizing children fuel with
  | nil =>
    obtain ⟨fuel, rfl⟩ := Nat.exists_eq_succ_of_ne_zero (Nat.ne_zero_of_lt hfuel)
    have htop : Path.parent? (Path.ofNames []) = none := by decide +kernel
    rw [searchConfig_ofNames_succ hnames hd, htop, List.reverse_nil, nearestConfig]
    split
    · rfl
    · exact ite_self none
  | append_singleton names name ih =>
    obtain ⟨fuel, rfl⟩ := Nat.exists_eq_succ_of_ne_zero (Nat.ne_zero_of_lt hfuel)
    rw [List.length_append, List.length_singleton, Nat.succ_lt_succ_iff] at hfuel
    obtain ⟨hrest, hname⟩ := Path.forall_isName_concat.1 hnames
    -- the path above is that of the names in front, with fuel for them left
    obtain ⟨siblings, habove, -⟩ := Node.descend_concat hd
    rw [searchConfig_ofNames_succ hnames hd, Path.parent?_ofNames_concat hrest hname,
      Option.bind_some, ih hrest habove hfuel, List.reverse_append, List.reverse_singleton,
      List.singleton_append, nearestConfig, List.reverse_cons, List.reverse_reverse]
    split
    · rfl
    · split <;> rfl

/-- **A search from the path of a folder finds the nearest configuration.** -/
theorem findConfig_ofNames (hnames : ∀ name ∈ names, Path.IsName name)
    (hd : project.top.descend names = some (.folder children)) :
    project.findConfig (Path.ofNames names)
      = (project.nearestConfig names.reverse).map Path.ofNames :=
  searchConfig_ofNames hnames hd (Nat.lt_succ_of_le (Path.length_le_length_ofNames hnames))

/-! ## The search of a check -/

theorem resolve_dot (hd : project.top.descend [] = some (.folder children)) :
    project.resolve "." = .ok [] := by
  refine resolve_eq_ok_iff.2 ⟨by decide, by decide +kernel, ?_⟩
  rw [show Path.pieces "." = ["."] by decide +kernel, follow.eq_def]
  simp [hd]

/-- **A search from a dot sees one folder**: above the dot is the empty path, which names the same
folder, and above that is nothing. -/
theorem findConfig_dot (hd : project.top.descend [] = some (.folder children)) :
    project.findConfig "."
      = if project.holds [] Config.fileName then some (Path.join "." Config.fileName)
        else none := by
  have habove : Path.parent? "." = some (Path.ofNames []) := by decide +kernel
  rw [findConfig, show ".".length = 1 by decide, searchConfig_succ,
    exists?_join (resolve_dot hd) hd isName_fileName, exists?_join (resolve_dot hd) hd isName_git,
    habove, Option.bind_some, searchConfig_ofNames (by simp) hd Nat.one_pos, List.reverse_nil,
    nearestConfig]
  cases project.holds [] Config.fileName with
  | true => rfl
  | false => exact ite_self none

/-- Seen from a folder, the folder is on top. -/
theorem descend_within (hd : project.top.descend folder = some (.folder children)) :
    (project.within folder).top.descend [] = some (.folder children) := by
  rw [within, hd]
  rfl

theorem holds_within (hd : project.top.descend folder = some (.folder children)) (name : String) :
    (project.within folder).holds [] name = project.holds folder name := by
  rw [holds_eq (descend_within hd), holds_eq hd]

/-- **A check uses the configuration of its own folder or none.** -/
theorem usedConfig_eq (hd : project.top.descend folder = some (.folder children)) :
    project.usedConfig folder
      = if project.holds folder Config.fileName then some (folder ++ [Config.fileName])
        else none := by
  have htop := descend_within hd
  rw [usedConfig, findConfig_dot htop, holds_within hd]
  split
  · rename_i hheld
    rw [holds_eq hd] at hheld
    rw [Option.bind_some, resolve_join (resolve_dot htop) htop isName_fileName hheld]
    rfl
  · rfl

/-- A check in a folder without a configuration uses the defaults. -/
theorem checkConfig_within (hd : project.top.descend folder = some (.folder children))
    (hnone : project.holds folder Config.fileName = false) (options : CommandLine.CheckOptions) :
    (project.within folder).checkConfig options = .ok (Config.override {} options) := by
  rw [checkConfig, loadConfig, findConfig_dot (descend_within hd), holds_within hd, hnone]
  rfl

theorem nearestConfig_of_holds (h : project.holds folder Config.fileName = true) :
    project.nearestConfig folder.reverse = some (folder ++ [Config.fileName]) := by
  cases hrev : folder.reverse with
  | nil =>
    obtain rfl := List.reverse_eq_nil_iff.1 hrev
    rw [nearestConfig, if_pos h]
    rfl
  | cons name above =>
    rw [nearestConfig, ← hrev, List.reverse_reverse, if_pos h]

/-- **The configuration of a check.**  A search from the path of a folder finds the nearest
configuration.  A check in the folder uses that of the folder itself or none, so it uses the nearest
one exactly if the folder itself has it or there is none; in a folder without one it uses the
defaults. -/
theorem usedConfig_eq_nearestConfig_iff (hw : project.top.WellFormed)
    (hd : project.top.descend folder = some (.folder children)) :
    project.findConfig (Path.ofNames folder)
        = (project.nearestConfig folder.reverse).map Path.ofNames
      ∧ (project.usedConfig folder = project.nearestConfig folder.reverse
        ↔ project.holds folder Config.fileName = true
          ∨ project.nearestConfig folder.reverse = none)
      ∧ (project.holds folder Config.fileName = false → project.usedConfig folder = none
        ∧ ∀ options, (project.within folder).checkConfig options
            = .ok (Config.override {} options)) := by
  refine ⟨findConfig_ofNames (hw.descend hd).1 hd, ?_,
    fun hnone => ⟨?_, checkConfig_within hd hnone⟩⟩
  · rw [usedConfig_eq hd]
    cases hheld : project.holds folder Config.fileName with
    | true => simp [nearestConfig_of_holds hheld]
    | false => simp [eq_comm]
  · rw [usedConfig_eq hd, hnone]
    rfl

/-- A project with a configuration and a folder that has none. -/
def nestedProject : Project :=
  ⟨.folder [
    (".tagi18nrc.json", .text "\x7b\"srcDir\": \"./app\"\x7d"),
    ("lib", .folder [("util", .folder [])])]⟩

/-- In a folder of the project a search from its path finds the configuration, and a check does
not. -/
theorem usedConfig_eq_nearestConfig_iff_util :
    nestedProject.findConfig "lib/util" = some ".tagi18nrc.json"
      ∧ nestedProject.usedConfig ["lib", "util"] = none
      ∧ nestedProject.usedConfig ["lib", "util"]
        ≠ nestedProject.nearestConfig ["lib", "util"].reverse := by
  have hnames : Path.IsName ".tagi18nrc.json" ∧ Path.IsName "lib" ∧ Path.IsName "util" := by
    decide +kernel
  have hw : nestedProject.top.WellFormed := by
    simp [nestedProject, Node.WellFormed, Node.AllWellFormed, hnames]
  have hpath : Path.ofNames ["lib", "util"] = "lib/util" := by decide +kernel
  obtain ⟨hsearch, hiff, hnone⟩ := usedConfig_eq_nearestConfig_iff hw
    (show nestedProject.top.descend ["lib", "util"] = some (.folder []) from rfl)
  rw [hpath] at hsearch
  exact ⟨hsearch.trans (by decide +kernel), (hnone (by decide +kernel)).1,
    fun he => absurd (hiff.1 he) (by decide +kernel)⟩

/-- **Below the configuration of a project a check does not use it.** -/
theorem usedConfig_ne_nearestConfig_below :
    nestedProject.nearestConfig ["lib"].reverse = some [".tagi18nrc.json"]
      ∧ nestedProject.usedConfig ["lib"] = none
      ∧ ((nestedProject.within ["lib"]).checkConfig {}).toOption = some {}
      ∧ (nestedProject.checkConfig {}).toOption = some { srcDir := "./app" } := by
  decide +kernel

end Phrasebook.Project
