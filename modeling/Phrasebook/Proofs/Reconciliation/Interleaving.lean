import Phrasebook.Proofs.Reconciliation.Alone

/-!
# Proofs/Reconciliation/Interleaving — tasks that read and write in any order

    a.json   read ─────────────── write
    b.json        read ── write                  one schedule: [a, b, b, c, a, c]
    c.json                    read ────── ·

Each catalog file has a task, which reads the file in one step and in another one reports and, if it
has to, writes the file.  A schedule lets the tasks take their steps in any order.  As long as no
two paths lead to the same file, a step keeps every other task's file as it is, so each task goes
the way that it would go alone (`Task.Faithful.step`, `Pool.Faithful.step`, `Pool.Faithful.run`).
**Every schedule that lets each task finish ends with the sorted reports and the files of
`reconcileAll`** (`reconcileAll_interleaved`).
-/

namespace Phrasebook.Project

variable {initial current next project : Project} {usages : KeyUsages}
  {defaultLocale : Option String} {mode : Mode} {files order : List CatalogFile}
  {file : CatalogFile} {touched : List String → Prop}

/-! ## Reading apart from writing -/

/-- What is made of the content of a catalog file: the report, and the text to write if there is
one. -/
def plan (file : CatalogFile) (content : Except FileFault String) (usages : KeyUsages)
    (isDefault : Bool) (mode : Mode) : CatalogReport × Option String :=
  let report : CatalogReport := { locale := file.locale, path := file.path, isDefault }
  match content with
  | .error fault => ({ report with error := some (Error.file file.path fault).message }, none)
  | .ok text =>
    match Catalog.parse text with
    | .error error => ({ report with error := some (parseFailure file.path error) }, none)
    | .ok catalog =>
      let (diff, kept) := catalog.diff usages isDefault
      let report := { report with diff }
      match mode with
      | .report => (report, none)
      | .fix =>
        let (outcome, patched) := kept.fix diff usages
        let report := { report with outcome := some outcome }
        if outcome = .hasMissingTranslations ∨ patched.render = text then (report, none)
        else (report, some patched.render)

/-- Writes the text of a plan, if there is one, and completes the report. -/
def carryOut (project : Project) (file : CatalogFile) :
    CatalogReport × Option String → CatalogReport × Project
  | (report, none) => (report, project)
  | (report, some text) =>
    match project.write file.path text with
    | .ok project => ({ report with written := true }, project)
    | .error fault =>
      ({ report with error := some (Error.file file.path fault).message }, project)

/-- **Reconciling a catalog file is reading it and carrying out what is planned.** -/
theorem carryOut_plan (project : Project) (file : CatalogFile) (usages : KeyUsages)
    (isDefault : Bool) (mode : Mode) :
    project.carryOut file (plan file (project.read file.path) usages isDefault mode)
      = project.reconcileCatalog file usages isDefault mode := by
  rw [reconcileCatalog]
  cases project.read file.path with
  | error fault => rfl
  | ok text =>
    rw [plan.eq_def]
    dsimp only
    cases Catalog.parse text with
    | error error => rfl
    | ok catalog =>
      cases mode with
      | report => rfl
      | fix =>
        dsimp only
        split
        · rfl
        · rfl

/-! ## Tasks -/

/-- How far the task of a catalog file is. -/
inductive Progress where
  | waiting
  /-- The file was read. -/
  | loaded (content : Except FileFault String)
  | done (report : CatalogReport)

/-- The task of one catalog file. -/
structure Task where
  file : CatalogFile
  progress : Progress := .waiting

namespace Task

/-- One step of a task: it reads its file, or carries out what it planned on what it read. -/
def step (usages : KeyUsages) (defaultLocale : Option String) (mode : Mode) (project : Project)
    (task : Task) : Task × Project :=
  match task.progress with
  | .waiting => ({ task with progress := .loaded (project.read task.file.path) }, project)
  | .loaded content =>
    let isDefault := defaultLocale == some task.file.locale
    let (report, project) :=
      project.carryOut task.file (plan task.file content usages isDefault mode)
    ({ task with progress := .done report }, project)
  | .done _ => (task, project)

/-- The report of a task that is done. -/
def report? (task : Task) : Option CatalogReport :=
  match task.progress with
  | .done report => some report
  | _ => none

/-- How many steps a task still has to take. -/
def stepsLeft (task : Task) : Nat :=
  match task.progress with
  | .waiting => 2
  | .loaded _ => 1
  | .done _ => 0

variable {task : Task}

theorem file_step (project : Project) :
    (task.step usages defaultLocale mode project).1.file = task.file := by
  obtain ⟨file, _ | content | report⟩ := task <;> rfl

theorem stepsLeft_step (project : Project) :
    (task.step usages defaultLocale mode project).1.stepsLeft = task.stepsLeft - 1 := by
  obtain ⟨file, _ | content | report⟩ := task <;> rfl

/-! ### A task goes the way that it would go alone -/

/-- The project that a task leaves when it is alone. -/
def leaves (initial : Project) (usages : KeyUsages) (defaultLocale : Option String) (mode : Mode)
    (task : Task) : Project :=
  match task.progress with
  | .done _ => (initial.reconcileAlone usages defaultLocale mode task.file).2
  | _ => initial

/-- Whether a task has read, reported and written what it would have alone. -/
structure Faithful (initial : Project) (usages : KeyUsages) (defaultLocale : Option String)
    (mode : Mode) (current : Project) (task : Task) : Prop where
  loaded : ∀ content, task.progress = .loaded content → content = initial.read task.file.path
  done : ∀ report, task.progress = .done report →
    report = (initial.reconcileAlone usages defaultLocale mode task.file).1
  place : ∀ place, initial.LeadsTo task.file.path place →
    current.fileAt place = (task.leaves initial usages defaultLocale mode).fileAt place

/-- What happens to other files makes no difference to a task. -/
theorem Faithful.frame (h : task.Faithful initial usages defaultLocale mode current)
    (hsame : SameBut touched current next)
    (hother : ∀ place, initial.LeadsTo task.file.path place → ¬ touched place) :
    task.Faithful initial usages defaultLocale mode next where
  loaded := h.loaded
  done := h.done
  place place hleads := (hsame.files place (hother place hleads)).trans (h.place place hleads)

/-- **A step of a task touches its file only, and keeps it faithful.** -/
theorem Faithful.step (h : task.Faithful initial usages defaultLocale mode current)
    (hshape : current.top.shape = initial.top.shape) :
    SameBut (initial.LeadsTo task.file.path) current
        (task.step usages defaultLocale mode current).2
      ∧ (task.step usages defaultLocale mode current).1.Faithful initial usages defaultLocale mode
        (task.step usages defaultLocale mode current).2 := by
  -- until the task is done, the project differs from the first one at other files only
  have helsewhere : (task.leaves initial usages defaultLocale mode) = initial →
      SameBut (fun place => ¬ initial.LeadsTo task.file.path place) initial current :=
    fun hleaves => ⟨hshape, fun place hleads =>
      (h.place place (not_not.1 hleads)).trans (by rw [hleaves])⟩
  obtain ⟨file, _ | content | report⟩ := task
  · have hread := (helsewhere rfl).read fun place hleads => not_not.2 hleads
    refine ⟨.refl _ current, ?_, ?_, h.place⟩
    · rintro content ⟨⟩
      exact hread
    · rintro report ⟨⟩
  · have hsame := helsewhere rfl
    obtain rfl : content = current.read file.path :=
      (h.loaded content rfl).trans (hsame.read fun place hleads => not_not.2 hleads).symm
    have hstep : step usages defaultLocale mode current
          ⟨file, .loaded (current.read file.path)⟩
        = (⟨file, .done (current.reconcileAlone usages defaultLocale mode file).1⟩,
          (current.reconcileAlone usages defaultLocale mode file).2) := by
      simp only [step, carryOut_plan]
      rfl
    obtain ⟨hreport, hplace⟩ := reconcileCatalog_congr hsame (fun place hleads => not_not.2 hleads)
      usages (defaultLocale == some file.locale) mode
    rw [hstep]
    refine ⟨?_, ?_, ?_, ?_⟩
    · exact (sameBut_reconcileCatalog current file usages _ mode).mono
        fun place hleads => hsame.leadsTo_iff.1 hleads
    · rintro content ⟨⟩
    · rintro report ⟨⟩
      exact hreport
    · intro place hleads
      exact hplace place hleads.1
  · exact ⟨.refl _ current, h⟩

end Task

/-! ## Tasks side by side -/

/-- Tasks that work on one project. -/
structure Pool where
  tasks : List Task
  project : Project

namespace Pool

/-- The tasks of these files, none of which has begun. -/
def start (project : Project) (files : List CatalogFile) : Pool :=
  ⟨files.map fun file => { file }, project⟩

/-- The task with this number takes a step, if there is one. -/
def step (usages : KeyUsages) (defaultLocale : Option String) (mode : Mode) (pool : Pool)
    (number : Nat) : Pool :=
  match pool.tasks[number]? with
  | none => pool
  | some task =>
    let (task, project) := task.step usages defaultLocale mode pool.project
    ⟨pool.tasks.set number task, project⟩

/-- Tasks take steps in the order of a schedule. -/
def run (usages : KeyUsages) (defaultLocale : Option String) (mode : Mode) (pool : Pool)
    (schedule : List Nat) : Pool :=
  schedule.foldl (step usages defaultLocale mode) pool

/-- The reports, sorted, once every task is done. -/
def reports? (pool : Pool) : Option (List CatalogReport) :=
  (pool.tasks.mapM Task.report?).map (·.mergeSort CatalogReport.le)

variable {pool : Pool} {number : Nat}

/-- **What a step of the pool is**: a step of one of its tasks, or nothing. -/
theorem step_cases (usages : KeyUsages) (defaultLocale : Option String) (mode : Mode) (pool : Pool)
    (number : Nat) :
    pool.step usages defaultLocale mode number = pool
      ∨ ∃ front task back, pool.tasks = front ++ task :: back
        ∧ pool.step usages defaultLocale mode number
          = ⟨front ++ (task.step usages defaultLocale mode pool.project).1 :: back,
              (task.step usages defaultLocale mode pool.project).2⟩ := by
  rw [step]
  rcases hget : pool.tasks[number]? with _ | task
  · exact .inl rfl
  · obtain ⟨hlt, hget⟩ := List.getElem?_eq_some_iff.1 hget
    refine .inr ⟨pool.tasks.take number, task, pool.tasks.drop (number + 1), ?_, ?_⟩
    · rw [← hget, ← List.drop_eq_getElem_cons hlt, List.take_append_drop]
    · dsimp only
      rw [List.set_eq_take_append_cons_drop, if_pos hlt]

/-! ### Every task goes the way that it would go alone -/

/-- Whether every task is faithful, and nothing changes but the files of the tasks. -/
structure Faithful (initial : Project) (usages : KeyUsages) (defaultLocale : Option String)
    (mode : Mode) (files : List CatalogFile) (pool : Pool) : Prop where
  files_eq : pool.tasks.map Task.file = files
  rest : SameBut (fun place => ∃ file ∈ files, initial.LeadsTo file.path place) initial pool.project
  tasks : ∀ task ∈ pool.tasks,
    task.Faithful initial usages defaultLocale mode pool.project

theorem faithful_start (project : Project) (usages : KeyUsages) (defaultLocale : Option String)
    (mode : Mode) (files : List CatalogFile) :
    (start project files).Faithful project usages defaultLocale mode files where
  files_eq := by
    rw [start, List.map_map]
    exact List.map_id files
  rest := .refl _ project
  tasks task htask := by
    obtain ⟨file, -, rfl⟩ := List.mem_map.1 htask
    refine ⟨?_, ?_, fun place _ => rfl⟩
    · rintro content ⟨⟩
    · rintro report ⟨⟩

/-- **A step of the pool keeps every task faithful**: the other tasks have other files. -/
theorem Faithful.step (hown : initial.OwnFiles files)
    (h : pool.Faithful initial usages defaultLocale mode files) (number : Nat) :
    (pool.step usages defaultLocale mode number).Faithful initial usages defaultLocale mode
      files := by
  rcases step_cases usages defaultLocale mode pool number with
    heq | ⟨front, task, back, htasks, heq⟩
  · rwa [heq]
  · have hmem : task ∈ pool.tasks := by
      rw [htasks]
      exact List.mem_append_right _ List.mem_cons_self
    obtain ⟨htouched, hfaithful⟩ := (h.tasks task hmem).step h.rest.shape
    have hfile : task.file ∈ files := h.files_eq ▸ List.mem_map_of_mem hmem
    have hapart : ∀ other ∈ front ++ back, ∀ place, initial.LeadsTo other.file.path place →
        ¬ initial.LeadsTo task.file.path place := by
      rw [← h.files_eq, htasks, List.map_append, List.map_cons, OwnFiles, List.pairwise_append,
        List.pairwise_cons] at hown
      obtain ⟨-, ⟨hback, -⟩, hfront⟩ := hown
      intro other hother place hleads hleads'
      rcases List.mem_append.1 hother with hother | hother
      · exact hfront _ (List.mem_map_of_mem hother) _ List.mem_cons_self place hleads hleads'
      · exact hback _ (List.mem_map_of_mem hother) place hleads' hleads
    rw [heq]
    refine ⟨?_, ?_, ?_⟩
    · rw [← h.files_eq, htasks, List.map_append, List.map_append, List.map_cons, List.map_cons,
        Task.file_step]
    · exact h.rest.trans (htouched.mono fun place hleads => ⟨task.file, hfile, hleads⟩)
    · intro other hother
      have hcases : other = (task.step usages defaultLocale mode pool.project).1
          ∨ other ∈ front ++ back := by
        rw [List.mem_append, List.mem_cons] at hother
        rw [List.mem_append]
        exact or_left_comm.1 hother
      rcases hcases with rfl | hother
      · exact hfaithful
      · have hold : other ∈ pool.tasks := by
          rw [htasks, List.mem_append, List.mem_cons]
          exact or_left_comm.2 (.inr (List.mem_append.1 hother))
        exact (h.tasks other hold).frame htouched (hapart other hother)

/-- **So does a run**, whatever the schedule. -/
theorem Faithful.run (hown : initial.OwnFiles files)
    (h : pool.Faithful initial usages defaultLocale mode files) (schedule : List Nat) :
    (pool.run usages defaultLocale mode schedule).Faithful initial usages defaultLocale mode
      files := by
  induction schedule generalizing pool with
  | nil => exact h
  | cons number schedule ih => exact ih (h.step hown number)

/-! ### Every task finishes -/

theorem stepsLeft_step (usages : KeyUsages) (defaultLocale : Option String) (mode : Mode)
    (pool : Pool) (number index : Nat) :
    (pool.step usages defaultLocale mode number).tasks[index]?.map Task.stepsLeft
      = pool.tasks[index]?.map fun task => task.stepsLeft - if number = index then 1 else 0 := by
  rw [step]
  rcases hget : pool.tasks[number]? with _ | task
  · by_cases hsame : number = index
    · subst hsame
      rw [hget]
      rfl
    · simp [hsame]
  · dsimp only
    rw [List.getElem?_set]
    by_cases hsame : number = index
    · subst hsame
      obtain ⟨hlt, -⟩ := List.getElem?_eq_some_iff.1 hget
      rw [if_pos rfl, if_pos hlt, hget]
      simp [Task.stepsLeft_step]
    · simp [hsame]

/-- **Each place in the schedule takes one step off its task.** -/
theorem stepsLeft_run (usages : KeyUsages) (defaultLocale : Option String) (mode : Mode)
    (pool : Pool) (schedule : List Nat) (index : Nat) :
    (pool.run usages defaultLocale mode schedule).tasks[index]?.map Task.stepsLeft
      = pool.tasks[index]?.map fun task => task.stepsLeft - schedule.count index := by
  induction schedule generalizing pool with
  | nil => rfl
  | cons number schedule ih =>
    have hmap : ∀ tasks : List Task, (tasks[index]?.map fun task =>
          task.stepsLeft - schedule.count index)
        = (tasks[index]?.map Task.stepsLeft).map (· - schedule.count index) := by
      intro tasks
      rw [Option.map_map]
      rfl
    rw [run, List.foldl_cons]
    refine (ih _).trans ?_
    rw [hmap, stepsLeft_step, Option.map_map]
    refine congrArg (Option.map · _) (funext fun task => ?_)
    simp only [Function.comp, List.count_cons, beq_iff_eq]
    omega

/-- A schedule that names every task twice lets every task finish. -/
theorem stepsLeft_run_start {schedule : List Nat}
    (hschedule : ∀ index < files.length, 2 ≤ schedule.count index) :
    ∀ task ∈ ((start project files).run usages defaultLocale mode schedule).tasks,
      task.stepsLeft = 0 := by
  intro task htask
  obtain ⟨index, hindex⟩ := List.mem_iff_getElem?.1 htask
  have hleft := stepsLeft_run usages defaultLocale mode (start project files) schedule index
  rw [hindex, start, List.getElem?_map, Option.map_some, Option.map_map] at hleft
  obtain ⟨file, hfile, hsteps⟩ := Option.map_eq_some_iff.1 hleft.symm
  obtain ⟨hlt, -⟩ := List.getElem?_eq_some_iff.1 hfile
  have htwo : (2 : Nat) - schedule.count index = task.stepsLeft := hsteps
  have hcount := hschedule index hlt
  omega

/-! ### What a finished pool leaves -/

theorem mapM_report? {tasks : List Task} {report : Task → CatalogReport}
    (h : ∀ task ∈ tasks, task.report? = some (report task)) :
    tasks.mapM Task.report? = some (tasks.map report) := by
  induction tasks with
  | nil => rfl
  | cons task tasks ih =>
    obtain ⟨hfirst, hrest⟩ := List.forall_mem_cons.1 h
    rw [List.mapM_cons, hfirst, ih hrest]
    rfl

/-- **A pool whose tasks are done** has the reports and the files of each task alone. -/
theorem Faithful.finished (h : pool.Faithful initial usages defaultLocale mode files)
    (hdone : ∀ task ∈ pool.tasks, task.stepsLeft = 0) :
    pool.reports?
        = some ((initial.reportsAlone usages defaultLocale mode files).mergeSort CatalogReport.le)
      ∧ initial.EachAlone usages defaultLocale mode files pool.project := by
  have hreport : ∀ task ∈ pool.tasks, task.report?
        = some (initial.reconcileAlone usages defaultLocale mode task.file).1
      ∧ task.leaves initial usages defaultLocale mode
        = (initial.reconcileAlone usages defaultLocale mode task.file).2 := by
    intro task htask
    have hzero := hdone task htask
    have hfaithful := h.tasks task htask
    obtain ⟨file, _ | content | report⟩ := task
    · cases hzero
    · cases hzero
    · exact ⟨congrArg some (hfaithful.done report rfl), rfl⟩
  refine ⟨?_, h.rest.shape, fun file hfile place hleads => ?_, fun place hnone => ?_⟩
  · rw [reports?, mapM_report? fun task htask => (hreport task htask).1, reportsAlone,
      ← h.files_eq, List.map_map]
    rfl
  · rw [← h.files_eq] at hfile
    obtain ⟨task, htask, rfl⟩ := List.mem_map.1 hfile
    rw [(h.tasks task htask).place place hleads, (hreport task htask).2]
  · exact h.rest.files place fun ⟨file, hfile, hleads⟩ => hnone file hfile hleads

end Pool

/-! ## All schedules -/

/-- **Catalogs are reconciled independently.**  If no two paths lead to the same file, then every
schedule that lets each task finish, for the files in any order, ends with the sorted reports and
the files of `reconcileAll`: each file has the report and the text that it would have alone, all
else stays, and a file that holds no catalog changes nothing for the others. -/
theorem reconcileAll_interleaved (project : Project) (files order : List CatalogFile)
    (usages : KeyUsages) (defaultLocale : Option String) (mode : Mode) (schedule : List Nat)
    (hown : project.OwnFiles files) (horder : order.Perm files)
    (hschedule : ∀ number < order.length, 2 ≤ schedule.count number) :
    let all := project.reconcileAll files usages defaultLocale mode
    let reordered := project.reconcileAll order usages defaultLocale mode
    let pool := (Pool.start project order).run usages defaultLocale mode schedule
    (pool.reports? = some all.1 ∧ SameFiles all.2 pool.project)
      ∧ (reordered.1 = all.1 ∧ SameFiles all.2 reordered.2)
      ∧ (all.1.Pairwise fun a b => a.le b = true)
      ∧ all.1.Perm (project.reportsAlone usages defaultLocale mode files)
      ∧ project.EachAlone usages defaultLocale mode files all.2
      ∧ ∀ broken others error, files.Perm (broken :: others) →
        project.loadCatalog broken.path = .error error →
          all.1.Perm ((project.reconcileAlone usages defaultLocale mode broken).1
              :: (project.reconcileAll others usages defaultLocale mode).1)
            ∧ SameFiles (project.reconcileAll others usages defaultLocale mode).2 all.2 := by
  intro all reordered pool
  have hown' : project.OwnFiles order := hown.perm horder
  obtain ⟨hreports, hfiles⟩ := reconcileAll_alone hown usages defaultLocale mode
  obtain ⟨hreports', hfiles'⟩ := reconcileAll_alone hown' usages defaultLocale mode
  have hstart := Pool.faithful_start project usages defaultLocale mode order
  obtain ⟨hpool, hfinal⟩ :=
    (hstart.run hown' schedule).finished (Pool.stepsLeft_run_start hschedule)
  have hsort : (project.reportsAlone usages defaultLocale mode order).mergeSort CatalogReport.le
      = all.1 := (mergeSort_reportsAlone horder).trans hreports.symm
  refine ⟨⟨?_, ?_⟩, ⟨?_, ?_⟩, ?_, ?_, hfiles, ?_⟩
  · rw [← hsort]
    exact hpool
  · exact hfiles.sameFiles (hfinal.perm horder.symm)
  · exact hreports'.trans hsort
  · exact hfiles.sameFiles (hfiles'.perm horder.symm)
  · rw [← hsort]
    exact CatalogReport.pairwise_mergeSort _
  · have hperm := List.mergeSort_perm
      (project.reportsAlone usages defaultLocale mode files) CatalogReport.le
    exact hreports ▸ hperm
  · intro broken others error hperm hbroken
    exact reconcileAll_of_broken hown hperm hbroken usages defaultLocale mode

/-- A project with an empty catalog, one that cannot be parsed and one with an unused key. -/
def mixedCatalogs : Project :=
  ⟨.folder [("de.json", .text "\x7b\x7d"), ("es.json", .text "\x7b broken"),
    ("pt.json", .text "\x7b\"old\": \"x\"\x7d")]⟩

/-- The files of the mixed catalogs. -/
def mixedFiles : List CatalogFile := [⟨"de", "de.json"⟩, ⟨"es", "es.json"⟩, ⟨"pt", "./pt.json"⟩]

/-- Three tasks in another order than the files, which take their steps by turns. -/
theorem reconcileAll_interleaved_mixedCatalogs :
    let usages : KeyUsages := { scalar := .ofList ["Hi"], plural := .empty }
    let all := mixedCatalogs.reconcileAll mixedFiles usages (some "de") .fix
    let pool := (Pool.start mixedCatalogs mixedFiles.reverse).run usages (some "de") .fix
      [2, 0, 1, 0, 2, 1]
    mixedCatalogs.OwnFiles mixedFiles ∧ pool.reports? = some all.1
      ∧ SameFiles all.2 pool.project := by
  have hown : mixedCatalogs.OwnFiles mixedFiles := .of_resolve_ne (by decide +kernel)
  exact ⟨hown, (reconcileAll_interleaved mixedCatalogs mixedFiles mixedFiles.reverse _ _ _ _ hown
    (by decide +kernel) (by decide +kernel)).1⟩

/-! ## Two paths of one file -/

/-- A project whose one catalog waits for a translation of the marker. -/
def markerProject : Project :=
  ⟨.folder [("locales", .folder
    [("pt.json", .text "\x7b\"👇 missing translations 👇\":null\x7d")])]⟩

/-- Two paths that lead to the same file. -/
def twoPaths : List CatalogFile := [⟨"en", "locales/pt.json"⟩, ⟨"pt", "./locales/pt.json"⟩]

/-- **Different paths are not enough**: one task leaves the file alone and the other one writes it,
in either order and side by side, so the first one does not find the file as it would alone. -/
theorem reconcileAll_two_paths :
    let usages : KeyUsages := { scalar := .ofList [Catalog.markerKey], plural := .empty }
    let alone := markerProject.reconcileAlone usages (some "en") .fix ⟨"en", "locales/pt.json"⟩
    let run := (Pool.start markerProject twoPaths).run usages (some "en") .fix
    (twoPaths.Pairwise fun a b => a.path ≠ b.path)
      ∧ alone.2.read "locales/pt.json" = markerProject.read "locales/pt.json"
      ∧ (markerProject.reconcileAll twoPaths usages (some "en") .fix).2.read "locales/pt.json"
        ≠ alone.2.read "locales/pt.json"
      ∧ ∀ schedule ∈ [[0, 0, 1, 1], [1, 1, 0, 0], [0, 1, 0, 1], [1, 0, 1, 0], [0, 1, 1, 0],
          [1, 0, 0, 1]],
        (run schedule).project.read "locales/pt.json" ≠ alone.2.read "locales/pt.json" := by
  decide +kernel

end Phrasebook.Project
