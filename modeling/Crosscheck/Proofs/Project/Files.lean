import Crosscheck.Project.Run
import Crosscheck.Proofs.Machine.Walk
import Mathlib.Data.List.Sort
/-!
# The files of a project

A file of a project is told by the folder that it is under, the directories that lead to it from there and its
name. The sources are the files with the extension of sources, in the order of their paths, those under
`Sources` first. Each has a file beside it that its translation goes to, and no two share it.
-/

namespace Crosscheck.Project

/-- The folder of sources or of tests. -/
def folderOf (isTest : Bool) : Text := if isTest then testsFolder else sourcesFolder

/-- A place under one of the two folders of a project. -/
structure File where
  isTest : Bool
  /-- The directories on the way from the folder. -/
  within : Place
  name : Text
deriving DecidableEq

variable {d : Disk} {top : Place} {p : Project} {w : World} {x y : File} {e : Entry} {isTest : Bool}
  {depth : Nat}

theorem isName_folderOf (isTest : Bool) : Path.IsName (folderOf isTest) := by
  cases isTest <;> constructor <;> decide

namespace File

/-- The directory of the file. -/
def directory (top : Place) (x : File) : Place := top ++ folderOf x.isTest :: x.within

/-- Where the file is, in a project that is at `top`. -/
def place (top : Place) (x : File) : Place := x.directory top ++ [x.name]

/-- The path by which the file is found. -/
def path (p : Project) (x : File) : Text :=
  Path.join (x.within.foldl Path.join (Path.join p.root (folderOf x.isTest))) x.name

/-- The file beside it that its translation goes to. -/
def target (x : File) : File := { x with name := Path.renamed x.name targetExtension }

/-- The file has the extension of sources. -/
def IsSource (x : File) : Prop := (Path.splitName x.name).2 = some sourceExtension

/-- Directories can list the names of the file. -/
structure Named (x : File) : Prop where
  within : ∀ name ∈ x.within, Path.IsName name
  name : Path.IsName x.name

theorem place_ne_nil (top : Place) (x : File) : x.place top ≠ [] := by
  simp [place]

theorem folderOf_injective : Function.Injective folderOf := by
  intro a b hab
  revert a b
  decide

theorem place_injective (h : x.place top = y.place top) : x = y := by
  obtain ⟨isTest, within, name⟩ := x
  obtain ⟨isTest', within', name'⟩ := y
  simp only [place, directory] at h
  obtain ⟨hdirectory, hname⟩ := List.append_inj' h rfl
  rw [List.append_cancel_left_eq, List.cons.injEq] at hdirectory
  obtain ⟨hfolder, rfl⟩ := hdirectory
  cases folderOf_injective hfolder
  cases hname
  rfl

theorem named (htree : d.IsTree) (h : d.entry? (x.place top) = some e) : x.Named := by
  have hbelow : d.entry? (top ++ (folderOf x.isTest :: x.within ++ [x.name])) = some e := by
    simpa [place, directory] using h
  have hnames := htree.isName_of_below hbelow
  exact ⟨fun name hname => hnames name (by simp [hname]), hnames _ (by simp)⟩

theorem directory_entry (htree : d.IsTree) (h : d.entry? (x.place top) = some e) :
    d.entry? (x.directory top) = some .directory :=
  (htree.inside h).2

theorem components_path (h : x.Named) : Path.components (x.path p) =
    Path.components p.root ++ .name (folderOf x.isTest) :: (x.within ++ [x.name]).map .name := by
  rw [path, Path.components_join h.name, Path.components_foldl_join h.within,
    Path.components_join (isName_folderOf _)]
  simp

theorem path_injective (hx : x.Named) (hy : y.Named)
    (h : Path.components (x.path p) = Path.components (y.path p)) : x = y := by
  rw [components_path hx, components_path hy, List.append_cancel_left_eq, List.cons.injEq] at h
  obtain ⟨hfolder, hnames⟩ := h
  have hnames := List.map_injective_iff.mpr (fun _ _ hs => Path.Component.name.inj hs) hnames
  suffices hplace : x.place [] = y.place [] from place_injective hplace
  simp only [place, directory, List.nil_append, List.cons_append]
  rw [hnames, Path.Component.name.inj hfolder]

theorem extension?_path (h : x.Named) : Path.extension? (x.path p) = some sourceExtension ↔ x.IsSource := by
  rw [path, Path.extension?_join h.name, IsSource]

theorem withExtension_path (h : x.Named) :
    Path.withExtension (x.path p) targetExtension = x.target.path p := by
  rw [path, Path.withExtension_join h.name]
  rfl

namespace IsSource

theorem exists_stem (h : x.IsSource) : ∃ stem, stem ≠ [] ∧ x.name = stem ++ '.' :: sourceExtension ∧
    x.target.name = stem ++ '.' :: targetExtension := by
  obtain ⟨stem, hname, hstem, hsplit⟩ := Path.eq_of_splitName h
  exact ⟨stem, hstem, hname, by rw [target, Path.renamed, hsplit]⟩

theorem named_target (h : x.IsSource) (hx : x.Named) : x.target.Named := by
  obtain ⟨stem, hstem, hname, htarget⟩ := h.exists_stem
  refine ⟨hx.within, ?_⟩
  rw [htarget]
  exact (hname ▸ hx.name).of_stem hstem (by decide) (by decide) (by decide) (by decide)

/-- No source is what another one is translated to. -/
theorem target_ne (h : x.IsSource) (hy : y.IsSource) : x.target ≠ y := by
  rintro rfl
  obtain ⟨stem, hstem, -, htarget⟩ := h.exists_stem
  rw [IsSource, htarget, Path.splitName_append hstem (by decide)] at hy
  exact absurd (Option.some.inj hy) (by decide)

/-- Different sources are translated to different files. -/
theorem target_injective (hx : x.IsSource) (hy : y.IsSource) (h : x.target = y.target) : x = y := by
  obtain ⟨stem, -, hname, htarget⟩ := hx.exists_stem
  obtain ⟨stem', -, hname', htarget'⟩ := hy.exists_stem
  have hstem : stem = stem' := by
    rw [h, htarget'] at htarget
    exact (List.append_cancel_right htarget).symm
  obtain ⟨isTest, within, name⟩ := x
  obtain ⟨isTest', within', name'⟩ := y
  simp only [target, File.mk.injEq] at h
  obtain ⟨rfl, rfl, -⟩ := h
  simp only at hname hname'
  rw [hname, hname', hstem]

end IsSource

end File

/-! ## The sources in their order -/

/-- The file at the end of names that lead down from a folder. -/
def File.ofTrail (isTest : Bool) (trail : Place) : File := ⟨isTest, trail.dropLast, trail.getLast?.getD []⟩

theorem File.trail_ofTrail (isTest : Bool) {trail : Place} (h : trail ≠ []) :
    (File.ofTrail isTest trail).within ++ [(File.ofTrail isTest trail).name] = trail := by
  rw [ofTrail, List.getLast?_eq_getLast_of_ne_nil h]
  exact List.dropLast_concat_getLast h

theorem File.place_ofTrail {trail : Place} (h : trail ≠ []) :
    (File.ofTrail isTest trail).place top = top ++ [folderOf isTest] ++ trail := by
  have htrail := File.trail_ofTrail isTest h
  rw [File.place, File.directory, List.append_assoc, List.cons_append, htrail]
  simp [ofTrail]

theorem File.path_ofTrail {trail : Place} (h : trail ≠ []) :
    (File.ofTrail isTest trail).path p = trail.foldl Path.join (Path.join p.root (folderOf isTest)) := by
  have htrail := File.trail_ofTrail isTest h
  conv_rhs => rw [← htrail, List.foldl_append]
  rfl

/-- The sources under a folder in the order of their paths. -/
def listed (d : Disk) (top : Place) (p : Project) (isTest : Bool) : List File :=
  (((d.trailsBelow d.height (top ++ [folderOf isTest])).map (File.ofTrail isTest)).filter fun x =>
    Path.extension? (x.path p) = some sourceExtension).mergeSort fun x y =>
      Path.precedes (x.path p) (y.path p)

/-- The source files below a place, by way of the names that lead to them. -/
theorem sourcesBelow_eq (d : Disk) (depth : Nat) (place : Place) (path : Text) :
    sourcesBelow d depth place path =
      ((d.trailsBelow depth place).map (·.foldl Path.join path)).filter fun path =>
        Path.extension? path = some sourceExtension := by
  induction depth generalizing place path with
  | zero => rfl
  | succ depth ih =>
      rw [sourcesBelow, Disk.trailsBelow, List.map_flatMap, List.filter_flatMap]
      refine List.flatMap_congr fun pair _ => ?_
      obtain ⟨name, e⟩ := pair
      cases e with
      | directory =>
          simp only [ih, List.map_map]
          rfl
      | _ => simp [List.filter_cons]

theorem ne_nil_of_mem_trailsBelow (htree : d.IsTree) {place trail : Place}
    (h : trail ∈ d.trailsBelow depth place) : trail ≠ [] :=
  (htree.mem_trailsBelow.mp h).2.1

/-- The sources of a folder that is there are found by their paths. -/
theorem sourcesOf_eq (htree : w.disk.IsTree)
    (hlocate : w.disk.locate w.here (Path.join p.root (folderOf isTest)) = .ok (top ++ [folderOf isTest]))
    (hentry : w.disk.entry? (top ++ [folderOf isTest]) = some .directory) :
    sourcesOf w (Path.join p.root (folderOf isTest)) =
      .ok ((listed w.disk top p isTest).map (File.path p)) := by
  have hpaths : (w.disk.trailsBelow w.disk.height (top ++ [folderOf isTest])).map
        (·.foldl Path.join (Path.join p.root (folderOf isTest))) =
      ((w.disk.trailsBelow w.disk.height (top ++ [folderOf isTest])).map (File.ofTrail isTest)).map
        (File.path p) := by
    rw [List.map_map]
    refine List.map_congr_left fun trail htrail => ?_
    exact (File.path_ofTrail (ne_nil_of_mem_trailsBelow htree htrail)).symm
  simp only [sourcesOf, hlocate, hentry]
  rw [sourcesBelow_eq, hpaths, List.filter_map, listed]
  refine congrArg Except.ok (Eq.symm ?_)
  apply List.map_mergeSort
  exact fun _ _ _ _ => rfl

theorem mem_listed (htree : d.IsTree) : x ∈ listed d top p isTest ↔ x.isTest = isTest ∧
    (∃ e, d.entry? (x.place top) = some e ∧ e ≠ .directory) ∧
      Path.extension? (x.path p) = some sourceExtension := by
  simp only [listed, List.mem_mergeSort, List.mem_filter, List.mem_map, decide_eq_true_eq]
  constructor
  · rintro ⟨⟨trail, htrail, rfl⟩, hextension⟩
    obtain ⟨-, hne, e, hentry, he⟩ := htree.mem_trailsBelow.mp htrail
    exact ⟨rfl, ⟨e, by rwa [File.place_ofTrail hne], he⟩, hextension⟩
  · rintro ⟨rfl, ⟨e, hentry, he⟩, hextension⟩
    have hx : File.ofTrail x.isTest (x.within ++ [x.name]) = x := by
      simp [File.ofTrail]
    have hplace : x.place top = top ++ [folderOf x.isTest] ++ (x.within ++ [x.name]) := by
      simp [File.place, File.directory]
    refine ⟨⟨x.within ++ [x.name], ?_, hx⟩, hextension⟩
    have hheight := Disk.length_le_height ((htree.entry?_eq_some_iff (x.place_ne_nil top)).mp hentry)
    rw [hplace] at hentry hheight
    refine htree.mem_trailsBelow.mpr ⟨?_, by simp, e, hentry, he⟩
    rw [List.length_append] at hheight
    omega

/-- The order in which files are translated. -/
def Earlier (p : Project) (x y : File) : Prop :=
  x.isTest = false ∧ y.isTest = true ∨
    x.isTest = y.isTest ∧ Path.precedes (x.path p) (y.path p) ∧ x ≠ y

theorem Earlier.ne (h : Earlier p x y) : x ≠ y := by
  rintro rfl
  rcases h with ⟨hsource, htest⟩ | ⟨-, -, hne⟩
  · rw [hsource] at htest
    cases htest
  · exact hne rfl

theorem Earlier.antisymm (hx : x.Named) (hy : y.Named) (h : Earlier p x y) (h' : Earlier p y x) : x = y := by
  rcases h with ⟨hsource, htest⟩ | ⟨hsame, hle, -⟩ <;> rcases h' with ⟨hsource', htest'⟩ | ⟨hsame', hle', -⟩
  · simp [hsource] at htest'
  · simp [hsource, htest] at hsame'
  · simp [hsource', htest'] at hsame
  · exact File.path_injective hx hy (Path.components_eq_of_precedes hle hle')

theorem pairwise_listed (htree : d.IsTree) (isTest : Bool) :
    (listed d top p isTest).Pairwise (Earlier p) := by
  have hsorted : (listed d top p isTest).Pairwise fun x y => Path.precedes (x.path p) (y.path p) := by
    apply List.pairwise_mergeSort
    · exact fun x y z => Path.precedes_trans
    · exact fun x y => (Bool.or_eq_true _ _).mpr (Path.precedes_total (x.path p) (y.path p))
  have hnodup : (listed d top p isTest).Nodup := by
    rw [listed, (List.mergeSort_perm _ _).nodup_iff]
    refine (List.Nodup.map_on ?_ (htree.nodup_trailsBelow _ _)).filter _
    intro trail htrail trail' htrail' heq
    rw [← File.trail_ofTrail isTest (ne_nil_of_mem_trailsBelow htree htrail), heq,
      File.trail_ofTrail isTest (ne_nil_of_mem_trailsBelow htree htrail')]
  refine (hsorted.and hnodup).imp_of_mem fun {x y} hx hy hxy => ?_
  exact .inr ⟨((mem_listed htree).mp hx).1.trans ((mem_listed htree).mp hy).1.symm, hxy⟩

theorem named_of_mem_listed (htree : d.IsTree) (h : x ∈ listed d top p isTest) : x.Named := by
  obtain ⟨-, ⟨e, hentry, -⟩, -⟩ := (mem_listed htree).mp h
  exact File.named htree hentry

theorem isSource_of_mem_listed (htree : d.IsTree) (h : x ∈ listed d top p isTest) : x.IsSource :=
  (File.extension?_path (named_of_mem_listed htree h)).mp ((mem_listed htree).mp h).2.2

/-- The order does not leave a choice, so the sources and their places determine the list. -/
theorem listed_congr {d' : Disk} (htree : d.IsTree) (htree' : d'.IsTree)
    (hsame : ∀ x : File, x.IsSource → d.entry? (x.place top) = d'.entry? (x.place top)) :
    listed d top p isTest = listed d' top p isTest := by
  have hmem : ∀ x, x ∈ listed d top p isTest ↔ x ∈ listed d' top p isTest := by
    intro x
    constructor <;> intro hx
    · have hsource := isSource_of_mem_listed htree hx
      rw [mem_listed htree] at hx
      rwa [mem_listed htree', ← hsame x hsource]
    · have hsource := isSource_of_mem_listed htree' hx
      rw [mem_listed htree'] at hx
      rwa [mem_listed htree, hsame x hsource]
  have hsorted : (listed d top p isTest).Pairwise (Earlier p) := pairwise_listed htree isTest
  have hsorted' : (listed d' top p isTest).Pairwise (Earlier p) := pairwise_listed htree' isTest
  have hperm : (listed d top p isTest).Perm (listed d' top p isTest) :=
    (List.perm_ext_iff_of_nodup (hsorted.imp Earlier.ne) (hsorted'.imp Earlier.ne)).mpr hmem
  refine hperm.eq_of_pairwise (fun x y hx hy hxy hyx => ?_) hsorted hsorted'
  exact hxy.antisymm (named_of_mem_listed htree hx) (named_of_mem_listed htree' hy) hyx

/-- The files are the sources of the project, each once, in the order in which they are translated. -/
structure Lists (p : Project) (top : Place) (d : Disk) (files : List File) : Prop where
  mem : ∀ x : File, x ∈ files ↔
    (∃ content executable, d.entry? (x.place top) = some (.file content executable)) ∧
      Path.extension? (x.path p) = some sourceExtension
  order : files.Pairwise (Earlier p)

/-- There are no more sources than entries. -/
theorem Lists.length_le {files : List File} (h : Lists p top d files) : files.length ≤ d.entries.length := by
  have hplaces : (files.map (File.place top)).Nodup :=
    List.Nodup.map_on (fun x _ y _ => File.place_injective) (h.order.imp Earlier.ne)
  have hsubset : files.map (File.place top) ⊆ d.places := by
    intro q hq
    obtain ⟨x, hx, rfl⟩ := List.mem_map.mp hq
    obtain ⟨content, executable, hentry⟩ := ((h.mem x).mp hx).1
    rw [Disk.entry?_of_ne_nil (x.place_ne_nil top)] at hentry
    by_contra hnot
    rw [Disk.lookup_eq_none hnot] at hentry
    cases hentry
  simpa [Disk.places] using (List.subperm_of_subset hplaces hsubset).length_le

/-- The place is in one of the folders of the project or is one of them. -/
def Inside (top q : Place) : Prop := ∃ isTest rest, q = top ++ folderOf isTest :: rest

/-- There is nothing but files and directories in the project. -/
def Plain (d : Disk) (top : Place) : Prop := ∀ q e, Inside top q → d.entry? q = some e →
  e = .directory ∨ ∃ content executable, e = .file content executable

theorem Plain.not_link (h : Plain d top) {q : Place} (hq : Inside top q) (target : Text) :
    d.entry? q ≠ some (.link target) := fun hentry => by
  rcases h q _ hq hentry with hd | ⟨_, _, hf⟩
  · cases hd
  · cases hf

theorem plain_of_entries (htree : d.IsTree) (h : ∀ pair ∈ d.entries,
    pair.2 = .directory ∨ ∃ content executable, pair.2 = .file content executable) : Plain d top := by
  rintro q e ⟨isTest, rest, rfl⟩ hentry
  exact h _ ((htree.entry?_eq_some_iff (by simp)).mp hentry)

theorem inside_folder (top : Place) (isTest : Bool) : Inside top (top ++ [folderOf isTest]) :=
  ⟨isTest, [], rfl⟩

/-- A file of a tree is not one of the folders themselves. -/
theorem File.place_ne_folder (top : Place) (x : File) (isTest : Bool) :
    x.place top ≠ top ++ [folderOf isTest] := by
  intro h
  have hlength := congrArg List.length h
  simp [place, directory] at hlength

theorem File.inside_place (top : Place) (x : File) : Inside top (x.place top) :=
  ⟨x.isTest, x.within ++ [x.name], by simp [place, directory]⟩

theorem lists_listed (htree : d.IsTree) (hplain : Plain d top) :
    Lists p top d (listed d top p false ++ listed d top p true) where
  mem x := by
    have hfile : (∃ e, d.entry? (x.place top) = some e ∧ e ≠ .directory) ↔
        ∃ content executable, d.entry? (x.place top) = some (.file content executable) := by
      constructor
      · rintro ⟨e, hentry, he⟩
        obtain ⟨content, executable, rfl⟩ :=
          (hplain _ _ (x.inside_place top) hentry).resolve_left he
        exact ⟨content, executable, hentry⟩
      · rintro ⟨content, executable, hentry⟩
        exact ⟨_, hentry, nofun⟩
    rw [List.mem_append, mem_listed htree, mem_listed htree, hfile]
    cases x.isTest <;> simp
  order := by
    rw [List.pairwise_append]
    refine ⟨pairwise_listed htree false, pairwise_listed htree true, fun x hx y hy => ?_⟩
    exact .inl ⟨((mem_listed htree).mp hx).1, ((mem_listed htree).mp hy).1⟩

end Crosscheck.Project
