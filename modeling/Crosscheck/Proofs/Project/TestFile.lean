import Crosscheck.Proofs.Machine.Parent
import Crosscheck.Proofs.Project.Success
/-!
# The project of a test file

A test file tells where its project is by the folders it is in: the folder of the module's tests, the folder
around that, which may have any name, and the root. So a run translates the file that it is given just if the
folder around is one of those that are gone through.
-/

namespace Crosscheck.Project

variable {c : Checker} {p : Project} {file folder above : Text} {w w' : World} {place : Place} {e : Entry}
  {usual : World → Prop} {report : Report}

theorem moduleOf?_eq_some {name : Text} : moduleOf? folder = some name ↔
    name ≠ [] ∧ folder = name ++ testsFolder := by
  simp only [moduleOf?]
  constructor
  · intro h
    split at h
    · next hfolder =>
      cases h
      rw [Bool.and_eq_true, List.isSuffixOf_iff_suffix] at hfolder
      obtain ⟨⟨lead, rfl⟩, hne⟩ := hfolder
      rw [List.length_append, Nat.add_sub_cancel, List.take_left] at hne ⊢
      exact ⟨by simpa using hne, rfl⟩
    · cases h
  · rintro ⟨hname, rfl⟩
    have hsuffix : testsFolder.isSuffixOf (name ++ testsFolder) :=
      List.isSuffixOf_iff_suffix.mpr (List.suffix_append ..)
    rw [List.length_append, Nat.add_sub_cancel, List.take_left, hsuffix]
    simp [hname]

/-- Where a test file is in its project: `folder` is the path of the tests of the module and `above` that of
the folder around. -/
structure Placed (p : Project) (file folder above : Text) : Prop where
  parent : Path.parent? file = some folder
  grandparent : Path.parent? folder = some above
  root : Path.parent? above = some p.root
  name : Path.fileName? folder = some (p.moduleName ++ testsFolder)
  module_ne_nil : p.moduleName ≠ []

theorem ofTestFile_eq_ok : ofTestFile file = .ok p ↔ ∃ folder above, Placed p file folder above := by
  rw [ofTestFile]
  constructor
  · intro h
    split at h
    · cases h
    · next folder hparent =>
      split at h
      · cases h
      · next name hname =>
        split at h
        · cases h
        · next root hroot =>
          cases h
          obtain ⟨above, habove, hroot⟩ := Option.bind_eq_some_iff.mp hroot
          obtain ⟨hne, hfolder⟩ := moduleOf?_eq_some.mp hname
          refine ⟨folder, above, hparent, habove, hroot, ?_, hne⟩
          cases hfile : Path.fileName? folder with
          | none =>
              rw [hfile] at hfolder
              exact absurd (List.nil_eq_append_iff.mp hfolder).2 (by decide)
          | some s =>
              rw [hfile] at hfolder
              exact congrArg some hfolder
  · rintro ⟨folder, above, h⟩
    have hmodule : moduleOf? ((Path.fileName? folder).getD []) = some p.moduleName := by
      rw [h.name]
      exact moduleOf?_eq_some.mpr ⟨h.module_ne_nil, rfl⟩
    have hroot : (Path.parent? folder).bind Path.parent? = some p.root := by
      rw [h.grandparent]
      exact h.root
    simp only [h.parent, hmodule, hroot]

namespace Placed

/-- The folder of the tests has the name of the module, whatever the folder around it is. -/
theorem components_eq (h : Placed p file folder above) : ∃ around last,
    Path.components above = Path.components p.root ++ [around] ∧
    Path.components file = Path.components p.root ++ [around, .name (p.moduleName ++ testsFolder), last] := by
  obtain ⟨last, hfile, -⟩ := Path.components_parent h.parent
  obtain ⟨inner, hfolder, -⟩ := Path.components_parent h.grandparent
  obtain ⟨around, habove, -⟩ := Path.components_parent h.root
  obtain rfl := (Path.fileName?_iff hfolder).mp h.name
  refine ⟨around, last, habove, ?_⟩
  rw [hfile, hfolder, habove]
  simp

/-- The root leads to a directory, and a file in one of the folders of the project is where it should be. -/
theorem place_eq (h : Placed p file folder above) (hlocate : w.disk.locate w.here file = .ok place)
    (hentry : w.disk.entry? place = some e) : ∃ top, w.Leads p.root top ∧ ∀ isTest name,
      Path.fileName? above = some (folderOf isTest) → Path.fileName? file = some name → Plain w.disk top →
        place = File.place top ⟨isTest, [p.moduleName ++ testsFolder], name⟩ := by
  obtain ⟨inner, hfolder, hlast⟩ := World.leads_parent h.parent hlocate hentry
  obtain ⟨outer, habove, hmiddle⟩ := hfolder.parent h.grandparent
  obtain ⟨top, hroot, hfirst⟩ := habove.parent h.root
  refine ⟨top, hroot, fun isTest name hfolderOf hname hplain => ?_⟩
  have houter : outer = top ++ [folderOf isTest] :=
    hfirst _ hfolderOf (hplain.not_link (inside_folder top isTest))
  subst houter
  have hinner : inner = top ++ [folderOf isTest] ++ [p.moduleName ++ testsFolder] :=
    hmiddle _ h.name (hplain.not_link ⟨isTest, _, List.append_assoc ..⟩)
  subst hinner
  have hplace := hlast name hname (hplain.not_link ⟨isTest, [p.moduleName ++ testsFolder, name], by simp⟩)
  rw [hplace, File.place, File.directory]
  simp

end Placed

/-- The paths that are taken for test files of a module. -/
theorem exists_ofTestFile {name : Text} : (∃ root, ofTestFile file = .ok ⟨root, name⟩) ↔
    name ≠ [] ∧ ∃ root around last, around ≠ .root ∧
      Path.components file = root ++ [around, .name (name ++ testsFolder), last] := by
  constructor
  · rintro ⟨root, h⟩
    obtain ⟨folder, above, hplaced⟩ := ofTestFile_eq_ok.mp h
    obtain ⟨around, last, habove, hfile⟩ := hplaced.components_eq
    obtain ⟨around', habove', haround⟩ := Path.components_parent hplaced.root
    rw [habove] at habove'
    obtain rfl : around = around' := by simpa using habove'
    exact ⟨hplaced.module_ne_nil, _, around, last, haround, hfile⟩
  · rintro ⟨hname, root, around, last, haround, hfile⟩
    rw [List.append_cons, List.append_cons] at hfile
    have hlast : last ≠ .root := Path.ne_root_of_components hfile (by simp)
    obtain ⟨folder, hparent, hfolder⟩ := Path.exists_parent hfile hlast
    obtain ⟨above, hgrandparent, habove⟩ := Path.exists_parent hfolder (by simp)
    obtain ⟨root, hroot, -⟩ := Path.exists_parent habove haround
    have hfileName := (Path.fileName?_iff hfolder).mpr rfl
    exact ⟨root, ofTestFile_eq_ok.mpr ⟨folder, above, hparent, hgrandparent, hroot, hfileName, hname⟩⟩

/-! ## Runs -/

theorem onDisk_of_read {content : Bytes} (h : w.disk.read w.here file = .ok content) : onDisk w file := by
  rw [Disk.read] at h
  rw [onDisk, Disk.holds]
  split at h
  · cases h
  all_goals simp [*]

/-- What a successful run without a build has done. -/
theorem translateAndTest_ok (h : translateAndTest c onDisk file none w = (.ok report, w')) :
    ofTestFile file = .ok report.project ∧
      (∃ place e, w.disk.locate w.here file = .ok place ∧ w.disk.entry? place = some e) ∧
      ∃ w₁, report.project.translate c onDisk w = (.ok report.written, w₁) := by
  obtain ⟨project, w₀, hpresent, hrest⟩ := Attempt.exists_of_bind_ok h
  obtain ⟨written, w₁, htranslate, hreturn⟩ := Attempt.exists_of_bind_ok hrest
  cases hreturn
  rw [ofPresentTestFile] at hpresent
  split at hpresent
  · next hholds =>
    obtain ⟨hproject, rfl⟩ := Prod.mk.inj hpresent
    refine ⟨hproject, ?_, w', htranslate⟩
    simp only [onDisk, Disk.holds, Disk.entryAt] at hholds
    cases hlocate : w.disk.locate w.here file with
    | error fault => simp [hlocate] at hholds
    | ok place =>
        cases hentry : w.disk.entry? place with
        | none => simp [hlocate, hentry] at hholds
        | some e => exact ⟨place, e, rfl, hentry⟩
  · cases hpresent

/-- A successful run has translated a path just if it is that of a source. -/
theorem Sparing.written_iff {top : Place} {written : List Text} (h : Sparing c.invoker p top usual)
    (husual : usual w) (hready : Ready p top w) (hrun : p.translate c onDisk w = (.ok written, w'))
    (hsource : Path.extension? file = some sourceExtension) :
    (∃ path ∈ written, Path.same path (Path.withExtension file targetExtension)) ↔
      ∃ x ∈ sources p top w.disk, Path.components (x.path p) = Path.components file := by
  rw [h.translateProject husual hready hrun, hready.map_target]
  simp only [List.mem_map, exists_exists_and_eq_and]
  refine exists_congr fun x => and_congr_right fun hx => ?_
  have hextension := ((hready.lists_sources.mem x).mp hx).2
  rw [Path.same, beq_iff_eq, Path.components_withExtension_iff hextension hsource (by decide) (by decide)]

/-- The file of a project that a path with these components is the path of. -/
theorem File.components_path_eq_iff {x : File} {around : Path.Component} {inner name : Text} (hx : x.Named)
    (hfile : Path.components file = Path.components p.root ++ [around, .name inner, .name name]) :
    Path.components (x.path p) = Path.components file ↔
      around = .name (folderOf x.isTest) ∧ x.within = [inner] ∧ x.name = name := by
  rw [components_path hx, hfile, List.append_cancel_left_eq, List.cons.injEq]
  constructor
  · rintro ⟨haround, hbelow⟩
    have hnames : x.within ++ [x.name] = [inner] ++ [name] :=
      List.map_injective_iff.mpr (fun _ _ heq => Path.Component.name.inj heq) hbelow
    obtain ⟨hwithin, hname⟩ := List.append_inj' hnames rfl
    exact ⟨haround.symm, hwithin, (List.cons.inj hname).1⟩
  · rintro ⟨haround, hwithin, hname⟩
    rw [hwithin, hname]
    exact ⟨haround.symm, rfl⟩

/-- A successful run has translated its test file just if the folder around that of the tests is one of those
that are gone through, and the test file is a file. -/
theorem test_file_written_iff (hrun : translateAndTest c onDisk file none w = (.ok report, w'))
    (hsource : Path.extension? file = some sourceExtension) (htree : w.disk.IsTree) (husual : usual w) :
    ∃ top around name, w.Leads report.project.root top ∧
      Path.components file = Path.components report.project.root ++
        [around, .name (report.project.moduleName ++ testsFolder), .name name] ∧
      (Plain w.disk top → Sparing c.invoker report.project top usual →
        ((∃ path ∈ report.written, Path.same path (Path.withExtension file targetExtension)) ↔
          (around = .name sourcesFolder ∨ around = .name testsFolder) ∧
            ∃ content, w.disk.read w.here file = .ok content)) := by
  obtain ⟨hproject, ⟨place, e, hlocate, hentry⟩, w₁, htranslate⟩ := translateAndTest_ok hrun
  obtain ⟨folder, above, hplaced⟩ := ofTestFile_eq_ok.mp hproject
  obtain ⟨around, last, habove, hfile⟩ := hplaced.components_eq
  obtain ⟨top, hroot, hplace⟩ := hplaced.place_eq hlocate hentry
  obtain ⟨name, hname, -⟩ := Option.bind_eq_some_iff.mp hsource
  have hlast := hfile
  rw [List.append_cons, List.append_cons] at hlast
  obtain rfl := (Path.fileName?_iff hlast).mp hname
  refine ⟨top, around, name, hroot, hfile, fun hplain hsparing => ?_⟩
  have hready : Ready report.project top w := ⟨htree, hroot, hplain⟩
  rw [hsparing.written_iff husual hready htranslate hsource]
  -- Left is whether a source has the components of the path: it is in the folder around, and the other way
  -- round the path leads to a file in that folder only because there is no link on the way.
  constructor
  · rintro ⟨⟨isTest, within, name'⟩, hx, hpath⟩
    obtain ⟨rfl, rfl, rfl⟩ := (File.components_path_eq_iff (hready.named hx) hfile).mp hpath
    have hplace := hplace isTest name' ((Path.fileName?_iff habove).mpr rfl) hname hplain
    obtain ⟨content, executable, hfound⟩ := hready.file hx
    refine ⟨?_, content, ?_⟩
    · cases isTest
      · exact .inl rfl
      · exact .inr rfl
    · rw [Disk.read, Disk.entryAt, hlocate, hplace]
      simp only [hfound]
  · rintro ⟨haround, content, hread⟩
    obtain ⟨isTest, rfl⟩ : ∃ isTest, around = .name (folderOf isTest) := by
      rcases haround with rfl | rfl
      · exact ⟨false, rfl⟩
      · exact ⟨true, rfl⟩
    obtain rfl := hplace isTest name ((Path.fileName?_iff habove).mpr rfl) hname hplain
    have hpath := (File.components_path_eq_iff (File.named htree hentry) hfile).mpr ⟨rfl, rfl, rfl⟩
    refine ⟨_, (hready.lists_sources.mem _).mpr ⟨?_, (Path.extension?_congr hpath).trans hsource⟩, hpath⟩
    rcases hplain _ _ (File.inside_place top _) hentry with rfl | ⟨content', executable, rfl⟩
    · rw [Disk.read, Disk.entryAt, hlocate] at hread
      simp only [hentry] at hread
      cases hread
    · exact ⟨content', executable, hentry⟩

theorem test_file_written_iff_small : ∃ report w',
    translateAndTest Small.checker onDisk "p/Tests/PTests/C.swift" none Small.world = (.ok report, w') ∧
    Path.extension? "p/Tests/PTests/C.swift" = some sourceExtension ∧ Small.disk.IsTree ∧
    RoomAt Small.checker.invoker ["tmp"] Small.world ∧
    ∃ path ∈ report.written, Path.same path
      (Path.withExtension "p/Tests/PTests/C.swift" targetExtension) := by
  obtain ⟨written, w', htranslate⟩ := Small.exists_run
  have htests : Small.world.Leads "p/Tests/PTests" (["p", "Tests", "PTests"] : Place) :=
    (Small.root.join (by decide : Path.IsName "Tests") rfl).join (by decide : Path.IsName "PTests") rfl
  have hread : Small.world.disk.read [] "p/Tests/PTests/C.swift" = .ok (Utf8.encode "c") :=
    htests.read_join (by decide : Path.IsName "C.swift") rfl
  have hfirst : ofPresentTestFile onDisk "p/Tests/PTests/C.swift" Small.world =
      (.ok Small.project, Small.world) := by
    rw [ofPresentTestFile, if_pos (onDisk_of_read hread)]
    rfl
  have hrun : translateAndTest Small.checker onDisk "p/Tests/PTests/C.swift" none Small.world =
      (.ok ⟨Small.project, written, false⟩, w') := by
    rw [translateAndTest, Attempt.bind_ok hfirst, Attempt.bind_ok htranslate]
    rfl
  have hextension : Path.extension? "p/Tests/PTests/C.swift" = some sourceExtension := by decide +kernel
  have hroom : RoomAt Small.checker.invoker ["tmp"] Small.world := Small.room_eq
  obtain ⟨top, around, name, hroot, hfile, hwritten⟩ := test_file_written_iff hrun hextension Small.tree hroom
  obtain rfl := hroot.unique Small.root
  have haround : around = .name testsFolder := by
    have hcomponents : Path.components "p/Tests/PTests/C.swift" =
        Path.components Small.project.root ++ [.name testsFolder, .name "PTests", .name "C.swift"] := by
      decide +kernel
    rw [hcomponents, List.append_cancel_left_eq, List.cons.injEq] at hfile
    exact hfile.1.symm
  refine ⟨_, w', hrun, hextension, Small.tree, hroom, ?_⟩
  exact (hwritten Small.ready.plain (.rehearsed rfl Small.not_inside)).mpr ⟨.inr haround, _, hread⟩

/-! ## A file that is left out -/

/-- A folder of tests that is in a folder of another name. -/
private def strayDisk : Disk := ⟨[
  (["tmp"], .directory),
  (["Foo"], .directory),
  (["Foo", "DemoTests"], .directory),
  (["Foo", "DemoTests", "X.swift"], .file (Utf8.encode "val t = 1") false)]⟩

private def strayWorld : World := ⟨strayDisk, [], [], [], []⟩

private theorem stray_here : strayWorld.Leads [] [] := ⟨.inl ⟨rfl, rfl⟩, rfl⟩

private theorem stray_folder (isTest : Bool) : translateFolder Small.checker ⟨"", "Demo"⟩ onDisk
    (folderOf isTest) strayWorld = (.ok [], strayWorld) := by
  have hentry : strayWorld.disk.entry? [folderOf isTest] = none := by
    revert isTest
    decide +kernel
  have hlocate : strayWorld.disk.locate strayWorld.here (folderPath ⟨"", "Demo"⟩ isTest) =
      .ok [folderOf isTest] := stray_here.locate_join (isName_folderOf isTest) (by simp [hentry])
  have habsent : ¬ onDisk strayWorld (folderPath ⟨"", "Demo"⟩ isTest) := by
    rw [onDisk, Disk.holds, Disk.entryAt, hlocate]
    simp [hentry]
  rw [translateFolder_eq, if_neg habsent]

/-- Not every successful run has translated its test file. -/
theorem test_file_left_out : strayDisk.IsTree ∧
    (∀ place target, (place, .link target) ∉ strayDisk.entries) ∧
    strayDisk.read [] "Foo/DemoTests/X.swift" = .ok (Utf8.encode "val t = 1") ∧
    Path.extension? "Foo/DemoTests/X.swift" = some sourceExtension ∧
    ∃ report, translateAndTest Small.checker onDisk "Foo/DemoTests/X.swift" none strayWorld =
        (.ok report, strayWorld) ∧
      ¬ ∃ path ∈ report.written, Path.same path
        (Path.withExtension "Foo/DemoTests/X.swift" targetExtension) := by
  have hfolder : strayWorld.Leads "Foo/DemoTests" (["Foo", "DemoTests"] : Place) :=
    (stray_here.join (by decide : Path.IsName "Foo") rfl).join (by decide : Path.IsName "DemoTests") rfl
  have hread : strayDisk.read [] "Foo/DemoTests/X.swift" = .ok (Utf8.encode "val t = 1") :=
    hfolder.read_join (by decide : Path.IsName "X.swift") rfl
  have hfirst : ofPresentTestFile onDisk "Foo/DemoTests/X.swift" strayWorld =
      (.ok ⟨"", "Demo"⟩, strayWorld) := by
    rw [ofPresentTestFile, if_pos (onDisk_of_read hread)]
    rfl
  have htranslate : translate Small.checker ⟨"", "Demo"⟩ onDisk strayWorld = (.ok [], strayWorld) :=
    (Attempt.bind_ok (stray_folder false)).trans (Attempt.bind_ok (stray_folder true))
  refine ⟨by decide +kernel, ?_, hread, by decide +kernel, ⟨⟨"", "Demo"⟩, [], false⟩, ?_, by simp⟩
  · intro place target h
    simp [strayDisk] at h
  · rw [translateAndTest, Attempt.bind_ok hfirst, Attempt.bind_ok htranslate]
    rfl

end Crosscheck.Project
