import Crosscheck.Proofs.Project.Rehearsed
import Crosscheck.Proofs.Project.Translation
/-!
# Translating a whole project

A run translates the sources of a project in their order, each once, and stops at the first that has no
outcome. It changes nothing but the files beside those that it has translated, so a second run finds the same
sources and does the same again.
-/

namespace Crosscheck.Project

variable {c : Checker} {p : Project} {top : Place} {kept : Place → Prop} {usual : Nat → World → Prop}
  {answer : Text → Except Failure (Option Json)} {result : File → Except Failure Text} {w w' v v' : World}
  {n : Nat} {x : File} {files done : List File} {isTest : Bool}

/-! ## One folder -/

/-- The path of a folder. -/
def folderPath (p : Project) (isTest : Bool) : Text := Path.join p.root (folderOf isTest)

/-- The sources of a folder, which is skipped if it is missing. -/
def shelf (p : Project) (top : Place) (w : World) (isTest : Bool) : Except Failure (List File) :=
  match w.disk.entry? (top ++ [folderOf isTest]) with
  | none | some .directory => .ok (listed w.disk top p isTest)
  | some _ => .error (.io ("Failed to read directory '" ++ folderPath p isTest ++ "': " ++
      Fault.notDirectory.message))

/-- What a run over a folder gives. -/
def folderWritten (result : File → Except Failure Text) (p : Project) (top : Place) (w : World)
    (isTest : Bool) : Except Failure (List Text) :=
  (shelf p top w isTest).bind (written result p)

/-- The sources of a folder that a run translates. -/
def folderFinished (result : File → Except Failure Text) (p : Project) (top : Place) (w : World)
    (isTest : Bool) : List File :=
  match shelf p top w isTest with
  | .ok files => finished result files
  | .error _ => []

theorem eq_listed_of_shelf (h : shelf p top w isTest = .ok files) : files = listed w.disk top p isTest := by
  rw [shelf] at h
  split at h <;> cases h <;> rfl

theorem listed_of_missing (htree : w.disk.IsTree)
    (h : w.disk.entry? (top ++ [folderOf isTest]) = none) : listed w.disk top p isTest = [] := by
  rw [List.eq_nil_iff_forall_not_mem]
  intro x hx
  obtain ⟨rfl, ⟨e, hentry, -⟩, -⟩ := (mem_listed htree).mp hx
  have hplace : x.place top = top ++ [folderOf x.isTest] ++ (x.within ++ [x.name]) := by
    simp [File.place, File.directory]
  rw [hplace] at hentry
  rw [htree.directory_of_below (by simp) hentry] at h
  cases h

theorem Ready.locate_folder (h : Ready p top w) (isTest : Bool) :
    w.disk.locate w.here (folderPath p isTest) = .ok (top ++ [folderOf isTest]) :=
  h.root.locate_join (isName_folderOf isTest) (h.not_link (inside_folder top isTest))

/-- The run over a folder goes through its sources if the folder is there. -/
theorem translateFolder_eq (c : Checker) (p : Project) (isTest : Bool) (w : World) :
    p.translateFolder c onDisk (folderOf isTest) w =
      if onDisk w (folderPath p isTest) then
        match sourcesOf w (folderPath p isTest) with
        | .ok sources => (sources.mapM (p.translateFile c ⟨false, isTest⟩)) w
        | .error f => (.error f, w)
      else (.ok [], w) := by
  have hget : (MonadState.get : Attempt World World) w = (.ok w, w) := rfl
  have hflag : decide (folderOf isTest = testsFolder) = isTest := by
    cases isTest <;> rfl
  rw [Project.translateFolder, Attempt.bind_ok hget, hflag]
  by_cases hpresent : onDisk w (folderPath p isTest)
  · have hjoined : onDisk w (Path.join p.root (folderOf isTest)) := hpresent
    rw [if_pos hpresent, if_pos hjoined, folderPath]
    cases sourcesOf w (Path.join p.root (folderOf isTest)) <;> rfl
  · have hjoined : ¬ onDisk w (Path.join p.root (folderOf isTest)) := hpresent
    rw [if_neg hpresent, if_neg hjoined]
    rfl

/-- The run over a folder is the run over its sources. -/
theorem Ready.translateFolder (h : Ready p top w) (c : Checker) (isTest : Bool) :
    p.translateFolder c onDisk (folderOf isTest) w = match shelf p top w isTest with
      | .ok files => ((files.map (File.path p)).mapM (p.translateFile c ⟨false, isTest⟩)) w
      | .error f => (.error f, w) := by
  have hlocate := h.locate_folder isTest
  rw [translateFolder_eq, shelf]
  cases hentry : w.disk.entry? (top ++ [folderOf isTest]) with
  | none =>
      have hpresent : onDisk w (folderPath p isTest) = false := by
        simp only [onDisk, Disk.holds, Disk.entryAt, hlocate, hentry]
      simp only [hpresent, listed_of_missing h.tree hentry]
      rfl
  | some e =>
      have hpresent : onDisk w (folderPath p isTest) = true := by
        simp only [onDisk, Disk.holds, Disk.entryAt, hlocate, hentry]
      rw [if_pos hpresent]
      rcases h.plain _ _ (inside_folder top isTest) hentry with rfl | ⟨content, executable, rfl⟩
      · rw [folderPath, sourcesOf_eq h.tree hlocate hentry]
      · simp only [sourcesOf, hlocate, hentry]

/-- What becomes of a folder is told by the world at the start of the run. -/
theorem Obliging.translateFolder (h : Obliging c.invoker p top kept usual answer)
    (husual : usual (n + (listed w.disk top p isTest).length) w) (hready : Ready p top w) :
    ∃ w', p.translateFolder c onDisk (folderOf isTest) w =
        (folderWritten (outcome c p answer top w) p top w isTest, w') ∧ usual n w' ∧ Ready p top w' ∧
      Wrote c.invoker kept top (outcome c p answer top w)
        (folderFinished (outcome c p answer top w) p top w isTest) w w' := by
  rw [hready.translateFolder, folderWritten, folderFinished]
  cases hshelf : shelf p top w isTest with
  | error f =>
      exact ⟨w, rfl, h.usual_of_le husual (Nat.le_add_right _ _), hready, .of_undisturbed (.refl ..)⟩
  | ok files =>
      obtain rfl := eq_listed_of_shelf hshelf
      refine h.translateFiles husual hready ((pairwise_listed hready.tree isTest).imp Earlier.ne) ?_
      intro x hx
      obtain ⟨hfolder, ⟨e, hentry, he⟩, -⟩ := (mem_listed hready.tree).mp hx
      obtain ⟨content, executable, rfl⟩ :=
        (hready.plain _ _ (x.inside_place top) hentry).resolve_left he
      exact ⟨hfolder, isSource_of_mem_listed hready.tree hx, content, executable, hentry⟩

/-! ## Both folders -/

/-- The sources of a project in the order in which they are translated. -/
def sources (p : Project) (top : Place) (d : Disk) : List File := listed d top p false ++ listed d top p true

/-- What a run gives. -/
def allWritten (result : File → Except Failure Text) (p : Project) (top : Place) (w : World) :
    Except Failure (List Text) :=
  (folderWritten result p top w false).bind fun sources =>
    (folderWritten result p top w true).map (sources ++ ·)

/-- The sources that a run translates. -/
def allFinished (result : File → Except Failure Text) (p : Project) (top : Place) (w : World) : List File :=
  match folderWritten result p top w false with
  | .ok _ => folderFinished result p top w false ++ folderFinished result p top w true
  | .error _ => folderFinished result p top w false

section

variable {i : Invoker}

theorem Steady.shelf_eq (h : Steady top w w') (hready : Ready p top w) (hready' : Ready p top w') :
    shelf p top w' isTest = shelf p top w isTest := by
  rw [shelf, shelf, h.folder isTest, h.listed_eq hready hready']

theorem isSource_of_mem_shelf (hready : Ready p top w) (hshelf : shelf p top w isTest = .ok files)
    (hx : x ∈ files) : x.IsSource :=
  isSource_of_mem_listed hready.tree (eq_listed_of_shelf hshelf ▸ hx)

theorem Alike.folderWritten_eq (h : Alike c.invoker top w w') (hready : Ready p top w)
    (hready' : Ready p top w') : folderWritten (outcome c p answer top w') p top w' isTest =
      folderWritten (outcome c p answer top w) p top w isTest := by
  rw [folderWritten, folderWritten, h.shelf_eq hready hready']
  cases hshelf : shelf p top w isTest with
  | error f => rfl
  | ok files => exact written_congr fun x hx => h.outcome_eq (isSource_of_mem_shelf hready hshelf hx)

theorem Alike.folderFinished_eq (h : Alike c.invoker top w w') (hready : Ready p top w)
    (hready' : Ready p top w') : folderFinished (outcome c p answer top w') p top w' isTest =
      folderFinished (outcome c p answer top w) p top w isTest := by
  rw [folderFinished, folderFinished, h.shelf_eq hready hready']
  cases hshelf : shelf p top w isTest with
  | error f => rfl
  | ok files => exact finished_congr fun x hx => h.outcome_eq (isSource_of_mem_shelf hready hshelf hx)

/-- The result is the same wherever the same becomes of the project. -/
theorem Alike.allWritten_eq (h : Alike c.invoker top w w') (hready : Ready p top w)
    (hready' : Ready p top w') : allWritten (outcome c p answer top w') p top w' =
      allWritten (outcome c p answer top w) p top w := by
  simp only [allWritten, h.folderWritten_eq hready hready']

theorem Alike.allFinished_eq (h : Alike c.invoker top w w') (hready : Ready p top w)
    (hready' : Ready p top w') : allFinished (outcome c p answer top w') p top w' =
      allFinished (outcome c p answer top w) p top w := by
  simp only [allFinished, h.folderWritten_eq hready hready', h.folderFinished_eq hready hready']

end

/-- Sources are translated in their order. -/
theorem folderFinished_initial (result : File → Except Failure Text) (p : Project) (top : Place) (w : World)
    (isTest : Bool) : folderFinished result p top w isTest <+: listed w.disk top p isTest := by
  rw [folderFinished]
  split
  · next h =>
    obtain rfl := eq_listed_of_shelf h
    exact List.takeWhile_prefix _
  · exact List.nil_prefix

theorem mem_folderFinished (hx : x ∈ folderFinished result p top w isTest) :
    x ∈ listed w.disk top p isTest :=
  (folderFinished_initial result p top w isTest).subset hx

/-- What becomes of the project is told by the world at the start of the run. -/
theorem Obliging.translateProject (h : Obliging c.invoker p top kept usual answer)
    (husual : usual (n + (sources p top w.disk).length) w)
    (hready : Ready p top w) :
    ∃ w', p.translate c onDisk w = (allWritten (outcome c p answer top w) p top w, w') ∧ usual n w' ∧
      Ready p top w' ∧ Wrote c.invoker kept top (outcome c p answer top w)
        (allFinished (outcome c p answer top w) p top w) w w' := by
  rw [sources, List.length_append, ← Nat.add_assoc, Nat.add_right_comm] at husual
  obtain ⟨w₁, hsources, husual₁, hready₁, hwrote₁⟩ := h.translateFolder husual hready
  rw [Project.translate, allWritten, allFinished]
  cases hresult : folderWritten (outcome c p answer top w) p top w false with
  | error f =>
      rw [hresult] at hsources
      exact ⟨w₁, Attempt.bind_error hsources, h.usual_of_le husual₁ (Nat.le_add_right _ _), hready₁, hwrote₁⟩
  | ok sources =>
      have halike := hwrote₁.alike h.project
      rw [hresult] at hsources
      rw [← halike.listed_eq hready hready₁] at husual₁
      obtain ⟨w₂, htests, husual₂, hready₂, hwrote₂⟩ := h.translateFolder husual₁ hready₁
      rw [halike.folderWritten_eq hready hready₁] at htests
      rw [halike.folderFinished_eq hready hready₁] at hwrote₂
      refine ⟨w₂, ?_, husual₂, hready₂, hwrote₁.append hwrote₂ h.project (fun x hx => ?_) fun x hx y hy => ?_⟩
      · have hsources : p.translateFolder c onDisk sourcesFolder w = (.ok sources, w₁) := hsources
        rw [Attempt.bind_ok hsources]
        cases hresult' : folderWritten (outcome c p answer top w) p top w true with
        | error f => exact Attempt.bind_error (htests.trans (by rw [hresult']))
        | ok tests => exact Attempt.bind_ok (htests.trans (by rw [hresult']))
      · exact halike.outcome_eq (isSource_of_mem_listed hready.tree (mem_folderFinished hx))
      · rintro rfl
        have hfolder := ((mem_listed hready.tree).mp (mem_folderFinished hx)).1
        rw [((mem_listed hready.tree).mp (mem_folderFinished hy)).1] at hfolder
        cases hfolder

/-! ## What a run comes to -/

theorem written_eq_ok {paths : List Text} : written result p files = .ok paths ↔
    (∀ x ∈ files, ∃ text, result x = .ok text) ∧ paths = files.map fun x => x.target.path p := by
  induction files generalizing paths with
  | nil => simp [written, pure, Except.pure, eq_comm]
  | cons x files ih =>
      cases hx : result x with
      | error f =>
          rw [written_cons_error hx]
          simp [hx]
      | ok text =>
          rw [written_cons_ok hx, List.forall_mem_cons]
          cases hrest : written result p files with
          | error f =>
              have hnot : ¬ ∀ y ∈ files, ∃ text, result y = .ok text := fun hall => by
                rw [ih.mpr ⟨hall, rfl⟩] at hrest
                cases hrest
              simp [Except.map, hnot]
          | ok rest =>
              obtain ⟨hall, rfl⟩ := ih.mp hrest
              have hboth : (∃ text, result x = .ok text) ∧ ∀ y ∈ files, ∃ text, result y = .ok text :=
                ⟨⟨text, hx⟩, hall⟩
              simp only [Except.map, Except.ok.injEq, List.map_cons]
              exact ⟨fun h => ⟨hboth, h.symm⟩, fun h => h.2.symm⟩

theorem finished_of_ok (h : ∀ x ∈ files, ∃ text, result x = .ok text) : finished result files = files := by
  induction files with
  | nil => rfl
  | cons x files ih =>
      obtain ⟨⟨text, hx⟩, hfiles⟩ := List.forall_mem_cons.mp h
      rw [finished_cons_ok hx, ih hfiles]

theorem folderWritten_eq_ok {paths : List Text} : folderWritten result p top w isTest = .ok paths ↔
    shelf p top w isTest = .ok (listed w.disk top p isTest) ∧
      (∀ x ∈ listed w.disk top p isTest, ∃ text, result x = .ok text) ∧
        paths = (listed w.disk top p isTest).map fun x => x.target.path p := by
  rw [folderWritten]
  cases hshelf : shelf p top w isTest with
  | error f => simp [Except.bind]
  | ok files =>
      obtain rfl := eq_listed_of_shelf hshelf
      simpa [Except.bind] using written_eq_ok

theorem folderFinished_of_ok {paths : List Text} (h : folderWritten result p top w isTest = .ok paths) :
    folderFinished result p top w isTest = listed w.disk top p isTest := by
  obtain ⟨hshelf, hall, -⟩ := folderWritten_eq_ok.mp h
  rw [folderFinished, hshelf]
  exact finished_of_ok hall

theorem allFinished_initial (result : File → Except Failure Text) (p : Project) (top : Place) (w : World) :
    allFinished result p top w <+: sources p top w.disk := by
  rw [allFinished]
  split
  · next h =>
    rw [folderFinished_of_ok h, sources, List.prefix_append_right_inj]
    exact folderFinished_initial ..
  · exact (folderFinished_initial ..).trans (List.prefix_append ..)

theorem allWritten_eq_ok {paths : List Text} : allWritten result p top w = .ok paths ↔
    (∀ isTest, shelf p top w isTest = .ok (listed w.disk top p isTest)) ∧
      (∀ x ∈ sources p top w.disk, ∃ text, result x = .ok text) ∧
        paths = (sources p top w.disk).map fun x => x.target.path p := by
  rw [allWritten, Bool.forall_bool, sources]
  simp only [List.forall_mem_append, List.map_append]
  constructor
  · intro h
    cases hfalse : folderWritten result p top w false with
    | error f =>
        rw [hfalse] at h
        cases h
    | ok first =>
        cases htrue : folderWritten result p top w true with
        | error f =>
            rw [hfalse, htrue] at h
            cases h
        | ok second =>
            rw [hfalse, htrue] at h
            cases h
            obtain ⟨hshelf, hall, rfl⟩ := folderWritten_eq_ok.mp hfalse
            obtain ⟨hshelf', hall', rfl⟩ := folderWritten_eq_ok.mp htrue
            exact ⟨⟨hshelf, hshelf'⟩, ⟨hall, hall'⟩, rfl⟩
  · rintro ⟨⟨hshelf, hshelf'⟩, ⟨hall, hall'⟩, rfl⟩
    rw [folderWritten_eq_ok.mpr ⟨hshelf, hall, rfl⟩, folderWritten_eq_ok.mpr ⟨hshelf', hall', rfl⟩]
    rfl

theorem allFinished_of_ok {paths : List Text} (h : allWritten result p top w = .ok paths) :
    allFinished result p top w = sources p top w.disk := by
  obtain ⟨hshelf, hall, -⟩ := allWritten_eq_ok.mp h
  rw [sources, List.forall_mem_append] at hall
  have hfalse := folderWritten_eq_ok.mpr ⟨hshelf false, hall.1, rfl⟩
  have htrue := folderWritten_eq_ok.mpr ⟨hshelf true, hall.2, rfl⟩
  rw [allFinished, hfalse]
  simp only [folderFinished_of_ok hfalse, folderFinished_of_ok htrue, sources]

/-- The source can be read, its translation is this text, and no directory is in the way of that. -/
def Translates (c : Checker) (p : Project) (top : Place) (w : World) (x : File) (text : Text) : Prop :=
  ∃ source, w.readText (x.path p) = .ok source ∧
    (c.translate ⟨false, x.isTest⟩ (some p.moduleName) source w).1 = .ok text ∧
      w.disk.entry? (x.target.place top) ≠ some .directory

/-- What a run over `files` gives and leaves that translates `done` of them. -/
structure Ran (c : Checker) (p : Project) (top : Place) (kept : Place → Prop) (files done : List File)
    (w : World) (result : Except Failure (List Text)) (w' : World) : Prop where
  /-- It goes by the order of the files. -/
  order : done <+: files
  /-- It succeeds if the folders are directories or missing and every file can be translated. -/
  complete : (∀ isTest, w.disk.entry? (top ++ [folderOf isTest]) = none ∨
      w.disk.entry? (top ++ [folderOf isTest]) = some .directory) →
    (∀ x ∈ files, ∃ text, Translates c p top w x text) → ∃ paths, result = .ok paths
  /-- If it succeeds, it has translated every file and gives what it has written in order. -/
  success : ∀ paths, result = .ok paths → done = files ∧
    paths = files.map fun x => Path.withExtension (x.path p) targetExtension
  /-- The file beside each translated one holds the translation. -/
  target : ∀ x ∈ done, ∃ text, Translates c p top w x text ∧
    w'.disk.read w'.here (Path.withExtension (x.path p) targetExtension) = .ok (Utf8.encode text)
  /-- Nothing else changes. -/
  other : ∀ q, kept q → (∀ x ∈ done, q ≠ x.target.place top) → w'.disk.entry? q = w.disk.entry? q

theorem Ready.lists_sources (h : Ready p top w) : Lists p top w.disk (sources p top w.disk) :=
  lists_listed h.tree h.plain

theorem Ready.isSource (h : Ready p top w) (hx : x ∈ sources p top w.disk) : x.IsSource :=
  (List.mem_append.mp hx).elim (isSource_of_mem_listed h.tree) (isSource_of_mem_listed h.tree)

theorem Ready.file (h : Ready p top w) (hx : x ∈ sources p top w.disk) :
    ∃ content executable, w.disk.entry? (x.place top) = some (.file content executable) :=
  ((h.lists_sources.mem x).mp hx).1

theorem Ready.named (h : Ready p top w) (hx : x ∈ sources p top w.disk) : x.Named := by
  obtain ⟨content, executable, hfile⟩ := h.file hx
  exact File.named h.tree hfile

theorem Obliging.outcome_iff (h : Obliging c.invoker p top kept usual answer) (husual : usual (n + 1) w)
    (hready : Ready p top w) (hx : x ∈ sources p top w.disk) {text : Text} :
    outcome c p answer top w x = .ok text ↔ Translates c p top w x text := by
  obtain ⟨content, executable, hfile⟩ := hready.file hx
  rw [outcome_eq_ok hfile, Translates]
  refine exists_congr fun source => and_congr ?_ (and_congr_left fun _ => ?_)
  · rw [hready.readText hfile]
    cases Utf8.decode? content <;> simp
  · obtain ⟨w₁, htranslate, -⟩ :=
      h.translate husual hready ⟨false, x.isTest⟩ (some p.moduleName) source
    rw [htranslate]

/-- The files that translations go to are different ones. -/
theorem Ready.nodup_targets (h : Ready p top w) : ((sources p top w.disk).map fun x =>
    Path.withExtension (x.path p) targetExtension).Nodup := by
  refine List.Nodup.map_on (fun x hx y hy heq => ?_) (h.lists_sources.order.imp Earlier.ne)
  have hx' := h.named hx
  have hy' := h.named hy
  rw [File.withExtension_path hx', File.withExtension_path hy'] at heq
  exact (h.isSource hx).target_injective (h.isSource hy) (File.path_injective
    ((h.isSource hx).named_target hx') ((h.isSource hy).named_target hy') (congrArg Path.components heq))

theorem Ready.map_target (h : Ready p top w) : ((sources p top w.disk).map fun x => x.target.path p) =
    (sources p top w.disk).map fun x => Path.withExtension (x.path p) targetExtension :=
  List.map_congr_left fun _ hx => (File.withExtension_path (h.named hx)).symm

theorem Wrote.ran (h : Obliging c.invoker p top kept usual answer)
    (husual : usual (n + (sources p top w.disk).length) w) (hready : Ready p top w)
    (hready' : Ready p top w') (hwrote : Wrote c.invoker kept top (outcome c p answer top w)
      (allFinished (outcome c p answer top w) p top w) w w') :
    Ran c p top kept (sources p top w.disk) (allFinished (outcome c p answer top w) p top w) w
      (allWritten (outcome c p answer top w) p top w) w' := by
  have hinitial := allFinished_initial (outcome c p answer top w) p top w
  have houtcome : ∀ x ∈ sources p top w.disk, ∀ text,
      outcome c p answer top w x = .ok text ↔ Translates c p top w x text := by
    intro x hx text
    have hpos := List.length_pos_of_mem hx
    exact h.outcome_iff (n := 0) (h.usual_of_le husual (by omega)) hready hx
  refine ⟨hinitial, fun hfolders hall => ?_, fun paths hpaths => ?_, fun x hx => ?_, hwrote.other⟩
  · refine ⟨_, allWritten_eq_ok.mpr ⟨fun isTest => ?_, fun x hx => ?_, rfl⟩⟩
    · rw [shelf]
      rcases hfolders isTest with hnone | hdirectory
      · rw [hnone]
      · rw [hdirectory]
    · obtain ⟨text, htext⟩ := hall x hx
      exact ⟨text, (houtcome x hx text).mpr htext⟩
  · refine ⟨allFinished_of_ok hpaths, ?_⟩
    rw [(allWritten_eq_ok.mp hpaths).2.2, hready.map_target]
  · have hmem := hinitial.subset hx
    obtain ⟨text, htext, hentry⟩ := hwrote.target x hx
    refine ⟨text, (houtcome x hmem text).mp htext, ?_⟩
    have hnamed := (hready.isSource hmem).named_target (hready.named hmem)
    have hlocate := hready'.locate hnamed.name (File.directory_entry hready'.tree hentry)
    rw [File.withExtension_path (hready.named hmem)]
    simp only [Disk.read, Disk.entryAt, hlocate, hentry]

/-- A run over a world in which the same becomes of the project leaves the same. -/
theorem Wrote.again (h : Obliging c.invoker p top kept usual answer) (hready : Ready p top w)
    (hwrote : Wrote c.invoker kept top (outcome c p answer top w)
      (allFinished (outcome c p answer top w) p top w) w w')
    (husual : usual (sources p top w.disk).length v) (hreadyv : Ready p top v)
    (hstart : Undisturbed c.invoker kept w v ∨ Undisturbed c.invoker kept w' v) :
    ∃ v', p.translate c onDisk v = (allWritten (outcome c p answer top w) p top w, v') ∧
      Undisturbed c.invoker kept w' v' := by
  -- The second world may have the translations of the first run. They are beside the sources, so the sources
  -- and their outcomes are the same all the same.
  have halike : Alike c.invoker top w v := by
    rcases hstart with hsame | hsame
    · exact .of_undisturbed hsame h.project
    · exact (hwrote.alike h.project).trans (.of_undisturbed hsame h.project)
  have hsources : sources p top v.disk = sources p top w.disk := by
    simp only [sources, halike.listed_eq hready hreadyv]
  obtain ⟨v', hrun, -, -, hwrotev⟩ := h.translateProject (n := 0)
    (by rwa [Nat.zero_add, hsources]) hreadyv
  rw [halike.allWritten_eq hready hreadyv] at hrun
  rw [halike.allFinished_eq hready hreadyv] at hwrotev
  have hoverall : v.here = w'.here ∧ v.room c.invoker.directory = w'.room c.invoker.directory := by
    rcases hstart with hsame | hsame
    · exact ⟨hsame.here.trans hwrote.here.symm, hsame.room.trans hwrote.room.symm⟩
    · exact ⟨hsame.here, hsame.room⟩
  refine ⟨v', hrun, hwrotev.here.trans hoverall.1, hwrotev.room.trans hoverall.2, fun q hq => ?_⟩
  refine hwrote.entry_eq hwrotev (fun x hx => ?_) hstart hq
  exact halike.outcome_eq (hready.isSource ((allFinished_initial ..).subset hx))

/-- A run translates each source once and touches nothing else. It does the same whatever the order in which
directories list their entries, and a second run over what it leaves does the same again. -/
theorem translate_each_once (h : Obliging c.invoker p top kept usual answer) (hready : Ready p top w) :
    ∃ files, Lists p top w.disk files ∧
      (files.map fun x => Path.withExtension (x.path p) targetExtension).Nodup ∧
      ∀ n, usual (n + files.length) w → ∃ done result w', p.translate c onDisk w = (result, w') ∧
        Ran c p top kept files done w result w' ∧ usual n w' ∧
        (∀ d, d.entries.Perm w.disk.entries → ∃ v,
          p.translate c onDisk { w with disk := d } = (result, v) ∧ Undisturbed c.invoker kept w' v) ∧
        (files.length ≤ n → ∀ d, d.entries.Perm w'.disk.entries → ∃ v,
          p.translate c onDisk { w' with disk := d } = (result, v) ∧ Undisturbed c.invoker kept w' v) := by
  refine ⟨sources p top w.disk, hready.lists_sources, hready.nodup_targets, fun n husual => ?_⟩
  obtain ⟨w', hrun, husual', hready', hwrote⟩ := h.translateProject husual hready
  refine ⟨_, _, w', hrun, hwrote.ran h husual hready hready', husual', ?_, ?_⟩
  · intro d hperm
    have husuald := h.reorder (h.usual_of_le husual (Nat.le_add_left _ _)) hready hperm
    exact hwrote.again h hready husuald (hready.of_perm hperm) (.inl (.of_perm hready.tree hperm))
  · intro hn d hperm
    have husuald := h.reorder (h.usual_of_le husual' hn) hready' hperm
    exact hwrote.again h hready husuald (hready'.of_perm hperm) (.inr (.of_perm hready'.tree hperm))

/-! ## A small project -/

namespace Small

/-- Two sources, one of which has been translated before, a test, and a directory for source files. -/
def disk : Disk := ⟨[
  (["tmp"], .directory),
  (["p"], .directory),
  (["p", "Tests"], .directory),
  (["p", "Tests", "PTests"], .directory),
  (["p", "Tests", "PTests", "C.swift"], .file (Utf8.encode "c") false),
  (["p", "Sources"], .directory),
  (["p", "Sources", "B.swift"], .file (Utf8.encode "b") false),
  (["p", "Sources", "B.kt"], .file (Utf8.encode "old") true),
  (["p", "Sources", "A"], .directory),
  (["p", "Sources", "A", "A.swift"], .file (Utf8.encode "a") false)]⟩

def world : World := ⟨disk, [], [], [], []⟩

def project : Project := ⟨"p", "P"⟩

/-- A checker whose translator gives back what it gets. -/
def checker : Checker where
  config := .default
  resolver := ⟨⟨Pattern.never, []⟩, .primary⟩
  invoker := ⟨Translator.rehearsed .echo, .default, "tmp"⟩
  patcher := .builtIn .default

theorem not_inside : ¬ Inside ["p"] ["tmp"] := by
  rintro ⟨isTest, rest, h⟩
  exact absurd (List.cons.inj h).1 (by decide)

theorem obliging : Obliging checker.invoker project ["p"] (AllBut ["tmp"]) (HasRoom checker.invoker ["tmp"])
    Translator.Rehearsal.echo.respond :=
  .rehearsed rfl not_inside

/-- A text file or a directory without a dot in its name. -/
def ordinary (pair : Place × Entry) : Bool :=
  match pair.2 with
  | .directory => '.' ∉ pair.1.getLast?.getD []
  | .file content _ => (Utf8.decode? content).isSome
  | _ => false

theorem all_ordinary : ∀ pair ∈ disk.entries, ordinary pair := by decide +kernel

theorem tree : disk.IsTree := by decide +kernel

theorem here : world.Leads [] [] := ⟨.inl ⟨rfl, rfl⟩, rfl⟩

theorem room_eq : world.room checker.invoker.directory = .ok ["tmp"] :=
  World.room_eq_ok.mpr ⟨here.locate_join (by decide : Path.IsName "tmp") nofun, rfl⟩

theorem root : world.Leads project.root ["p"] := here.join (by decide : Path.IsName "p") rfl

theorem ready : Ready project ["p"] world where
  tree := tree
  root := root
  plain := plain_of_entries tree fun pair hpair => by
    have hordinary := all_ordinary pair hpair
    cases hentry : pair.2 with
    | directory => exact .inl rfl
    | file content executable => exact .inr ⟨content, executable, rfl⟩
    | _ => simp [ordinary, hentry] at hordinary

theorem hasRoom (n : Nat) (h : n ≤ 100) : HasRoom checker.invoker ["tmp"] n world := by
  refine hasRoom_of_length_le room_eq ?_
  have hentries : world.disk.entries.length = 10 := rfl
  rw [hentries, sourceNames]
  exact Nat.le_trans (Nat.add_le_add_left h 10) (by decide)

theorem exists_translation {x : File} (hx : x ∈ sources project ["p"] disk) :
    ∃ text, Translates checker project ["p"] world x text := by
  obtain ⟨content, executable, hfile⟩ := ready.file hx
  have hmem := (tree.entry?_eq_some_iff (x.place_ne_nil _)).mp hfile
  obtain ⟨source, hsource⟩ := Option.isSome_iff_exists.mp (all_ordinary _ hmem)
  have hread := ready.readText hfile
  rw [hsource] at hread
  obtain ⟨w', htranslate, -⟩ := obliging.translate (n := 0) (hasRoom 1 (by decide)) ready
    ⟨false, x.isTest⟩ (some project.moduleName) source
  rw [room_eq] at htranslate
  refine ⟨_, source, hread, congrArg Prod.fst htranslate, fun hdirectory => ?_⟩
  obtain ⟨stem, -, -, htarget⟩ := (ready.isSource hx).exists_stem
  have hdot := all_ordinary _ ((tree.entry?_eq_some_iff (x.target.place_ne_nil _)).mp hdirectory)
  simp [ordinary, File.place, htarget] at hdot

theorem folder_entry (isTest : Bool) :
    disk.entry? ((["p"] : Place) ++ [folderOf isTest]) = some .directory := by
  revert isTest
  decide +kernel

theorem exists_run : ∃ written w', project.translate checker onDisk world = (.ok written, w') := by
  have hlength : (sources project ["p"] disk).length ≤ 10 := ready.lists_sources.length_le
  have hroom : HasRoom checker.invoker ["tmp"] (0 + (sources project ["p"] disk).length) world :=
    hasRoom _ (by omega)
  obtain ⟨w', hrun, -, hready', hwrote⟩ := obliging.translateProject hroom ready
  obtain ⟨written, hwritten⟩ := (hwrote.ran obliging hroom ready hready').complete
    (fun isTest => .inr (folder_entry isTest)) fun x hx => exists_translation hx
  exact ⟨written, w', hrun.trans (by rw [hwritten])⟩

end Small

theorem translate_each_once_small : ∃ files w' text,
    Obliging Small.checker.invoker Small.project ["p"] (AllBut ["tmp"])
      (HasRoom Small.checker.invoker ["tmp"]) Translator.Rehearsal.echo.respond ∧
    Ready Small.project ["p"] Small.world ∧ Lists Small.project ["p"] Small.disk files ∧
    ⟨true, ["PTests"], "C.swift"⟩ ∈ files ∧
    Small.project.translate Small.checker onDisk Small.world =
      (.ok (files.map fun x => Path.withExtension (x.path Small.project) targetExtension), w') ∧
    w'.disk.read w'.here "p/Tests/PTests/C.kt" = .ok (Utf8.encode text) := by
  obtain ⟨files, hlists, -, hruns⟩ := translate_each_once Small.obliging Small.ready
  have hlength : files.length ≤ 10 := hlists.length_le
  obtain ⟨done, result, w', hrun, hran, -⟩ := hruns 0 (Small.hasRoom _ (by omega))
  obtain ⟨paths, rfl⟩ := hran.complete (fun isTest => .inr (Small.folder_entry isTest)) fun x hx =>
    Small.exists_translation ((Small.ready.lists_sources.mem x).mpr ((hlists.mem x).mp hx))
  obtain ⟨rfl, rfl⟩ := hran.success paths rfl
  have hmem : ⟨true, ["PTests"], "C.swift"⟩ ∈ done :=
    (hlists.mem _).mpr ⟨⟨Utf8.encode "c", false, by decide +kernel⟩, by decide +kernel⟩
  obtain ⟨text, -, htarget⟩ := hran.target _ hmem
  have hpath : Path.withExtension (File.path Small.project ⟨true, ["PTests"], "C.swift"⟩) targetExtension =
      "p/Tests/PTests/C.kt".toList := by decide +kernel
  rw [hpath] at htarget
  exact ⟨done, w', text, Small.obliging, Small.ready, hlists, hmem, hrun, htarget⟩

end Crosscheck.Project
