import Crosscheck.Proofs.Project.Unhindered
/-!
# Links to directories in a project

A run does not go through links, but it tells them from files by their names only: a link that is named as a
source is read as one, and a link where a translation goes to is written to. Links to directories that are in
neither place make no difference to a run. Any other one makes it fail.
-/

namespace Crosscheck.Project

open World (FilesOnly Overlooks)

variable {w w' v : World} {taken : List Place} {i : Invoker} {c : Checker} {p : Project}
  {path base text : Text} {paths : List Text} {q place : Place} {isTest : Bool} {r : Checker.Request}

/-! ## Runs that succeed -/

theorem clear_of_locate (hroot : [] ∉ taken)
    (h : (w.without taken).disk.locate (w.without taken).here path = .ok place) (hplace : place ∉ taken) :
    w.Clear taken path := by
  obtain ⟨-, -, hwalk⟩ := Disk.walk_of_locate h
  rw [← World.clear_without]
  intro q hq hmem
  rcases (Disk.looked_of_walk hwalk).2 q hq with rfl | hsome
  · exact hplace hmem
  · exact hsome (Disk.entry?_without_of_mem hmem fun hnil => hroot (hnil ▸ hmem))

/-- What can be read without the places is not found by way of them. -/
theorem clear_of_readText (hroot : [] ∉ taken) (h : (w.without taken).readText path = .ok text) :
    w.Clear taken path := by
  simp only [World.readText, Disk.readText, Disk.read, Disk.entryAt] at h
  cases hlocate : (w.without taken).disk.locate (w.without taken).here path with
  | error fault =>
      rw [hlocate] at h
      cases h
  | ok place =>
      refine clear_of_locate hroot hlocate fun hmem => ?_
      have hnone : (w.without taken).disk.entry? place = none :=
        Disk.entry?_without_of_mem hmem fun hnil => hroot (hnil ▸ hmem)
      simp only [hlocate, hnone] at h
      cases h

/-- What can be written with the links and without them is not found by way of them. -/
theorem clear_of_writeText (h : Linked i taken w) (hwithout : (w.without taken).writeText path text = .ok v)
    (hwith : w.writeText path text = .ok w') : w.Clear taken path := by
  simp only [World.writeText, Disk.write] at hwithout hwith
  cases hlocate : (w.without taken).disk.locate (w.without taken).here path with
  | error fault =>
      rw [hlocate] at hwithout
      cases hwithout
  | ok place =>
      refine clear_of_locate h.root_not_mem hlocate fun hmem => ?_
      -- The link at the place leads on to a directory, which cannot be written.
      obtain ⟨-, -, hend⟩ := Disk.walk_of_locate hlocate
      cases hlocate' : w.disk.locate w.here path with
      | error fault =>
          rw [hlocate'] at hwith
          cases hwith
      | ok x =>
          obtain ⟨-, -, hwalk⟩ := Disk.walk_of_locate hlocate'
          have hstart : Disk.startOf w.here path ∉ taken := by
            obtain ⟨name, rest, hpieces⟩ :=
              List.exists_cons_of_ne_nil (Text.splitWhen_ne_nil (· = '/') path)
            rw [Path.pieces, hpieces, Disk.walk_cons] at hwalk
            obtain ⟨fault, hfails⟩ | ⟨here, -⟩ := w.disk.turn_cases (Disk.startOf w.here path) name
            · rw [hfails] at hwalk
              cases hwalk
            · exact h.links.not_mem here
          have hdirectory := h.links.directory_of_walk h.parent hstart hend hmem hwalk
          simp only [hlocate', hdirectory] at hwith
          cases hwith

section

variable {target target' : Text} {targets targets' : List Text}

theorem translateFile_clear (h : Overlooking c.invoker taken) (hlinked : Linked c.invoker taken w)
    (hunnamed : Unnamed taken) (hwithout : p.translateFile c r path (w.without taken) = (.ok target, v))
    (hwith : p.translateFile c r path w = (.ok target', w')) : ClearBoth taken w path := by
  obtain ⟨source, w₁, hread, hrest⟩ := Attempt.exists_of_bind_ok hwithout
  obtain ⟨source', w₁', hread', hrest'⟩ := Attempt.exists_of_bind_ok hwith
  have hclear : w.Clear taken path :=
    clear_of_readText hlinked.root_not_mem (readText_of_readSource hread)
  obtain rfl : w₁' = w := by rw [← readSource_world path w, hread']
  rw [(readSource_overlooks hclear).eq_without hread'] at hread
  cases hread
  obtain ⟨text, w₂, htranslate, hrest⟩ := Attempt.exists_of_bind_ok hrest
  obtain ⟨text', w₂', htranslate', hrest'⟩ := Attempt.exists_of_bind_ok hrest'
  rw [(h.translate hlinked.room hunnamed hlinked.root_not_mem r _ source).eq_without htranslate']
    at htranslate
  cases htranslate
  have hfiles : FilesOnly w₁' w₂' := (h.translate_files r _ source w₁').of_eq htranslate'
  obtain ⟨_, _, hwrite, -⟩ := Attempt.exists_of_bind_ok hrest
  obtain ⟨_, _, hwrite', -⟩ := Attempt.exists_of_bind_ok hrest'
  refine ⟨hclear, hfiles.clear.mp ?_⟩
  exact clear_of_writeText (hlinked.of_files hfiles) (writeText_of_writeTarget hwrite)
    (writeText_of_writeTarget hwrite')

theorem translateFiles_clear (h : Overlooking c.invoker taken) (hlinked : Linked c.invoker taken w)
    (hunnamed : Unnamed taken)
    (hwithout : paths.mapM (p.translateFile c r) (w.without taken) = (.ok targets, v))
    (hwith : paths.mapM (p.translateFile c r) w = (.ok targets', w')) :
    ∀ path ∈ paths, ClearBoth taken w path := by
  induction paths generalizing w w' v targets targets' with
  | nil => simp
  | cons path paths ih =>
      rw [List.mapM_cons] at hwithout hwith
      obtain ⟨target, w₁, hfile, hrest⟩ := Attempt.exists_of_bind_ok hwithout
      obtain ⟨target', w₁', hfile', hrest'⟩ := Attempt.exists_of_bind_ok hwith
      have hclear := translateFile_clear h hlinked hunnamed hfile hfile'
      rw [(h.translateFile hlinked hunnamed hclear p r).eq_without hfile'] at hfile
      cases hfile
      have hfiles : FilesOnly w w₁' := (h.translateFile_files p r path w).of_eq hfile'
      obtain ⟨_, _, hmore, -⟩ := Attempt.exists_of_bind_ok hrest
      obtain ⟨_, _, hmore', -⟩ := Attempt.exists_of_bind_ok hrest'
      refine List.forall_mem_cons.mpr ⟨hclear, fun path hpath => ?_⟩
      exact (ClearBoth.files hfiles).mp (ih (hlinked.of_files hfiles) hmore hmore' path hpath)

/-- What is translated has been read. -/
theorem exists_readText (h : Overlooking c.invoker taken)
    (hrun : paths.mapM (p.translateFile c r) w = (.ok targets, w')) (hpath : path ∈ paths) :
    ∃ v s, FilesOnly w v ∧ v.readText path = .ok s := by
  induction paths generalizing w w' targets with
  | nil => cases hpath
  | cons first paths ih =>
      rw [List.mapM_cons] at hrun
      obtain ⟨target, w₁, hfile, hrest⟩ := Attempt.exists_of_bind_ok hrun
      have hfiles : FilesOnly w w₁ := (h.translateFile_files p r first w).of_eq hfile
      rcases List.mem_cons.mp hpath with rfl | hpath
      · obtain ⟨source, _, hread, -⟩ := Attempt.exists_of_bind_ok hfile
        exact ⟨w, source, .refl w, readText_of_readSource hread⟩
      · obtain ⟨_, _, hmore, -⟩ := Attempt.exists_of_bind_ok hrest
        obtain ⟨v, s, hv, hread⟩ := ih hmore hpath
        exact ⟨v, s, hfiles.trans hv, hread⟩

end

theorem onDisk_of_sourcesOf (h : sourcesOf w base = .ok paths) : onDisk w base := by
  simp only [sourcesOf] at h
  simp only [onDisk, Disk.holds, Disk.entryAt]
  cases hlocate : w.disk.locate w.here base with
  | error fault =>
      rw [hlocate] at h
      cases h
  | ok place =>
      cases hentry : w.disk.entry? place with
      | none =>
          simp only [hlocate, hentry] at h
          cases h
      | some e => simp only [hentry]

theorem translateFolder_unhindered {written written' : List Text} (h : Overlooking c.invoker taken)
    (hlinked : Linked c.invoker taken w) (hunnamed : Unnamed taken)
    (hbase : w.Clear taken (folderPath p isTest))
    (hwithout : p.translateFolder c onDisk (folderOf isTest) (w.without taken) = (.ok written, v))
    (hwith : p.translateFolder c onDisk (folderOf isTest) w = (.ok written', w')) :
    Unhindered taken p isTest w := by
  intro paths hsources
  have hsources' := (sourcesOf_without hlinked hunnamed hbase).trans hsources
  rw [translateFolder_eq, if_pos (onDisk_of_sourcesOf hsources), hsources] at hwith
  rw [translateFolder_eq, if_pos (onDisk_of_sourcesOf hsources'), hsources'] at hwithout
  exact translateFiles_clear h hlinked hunnamed hwithout hwith

/-! ## Links that are named as sources -/

/-- A link to a directory cannot be read. -/
theorem readText_link_ne (hlinks : w.disk.LinksToDirectories taken) {name : Text}
    (hleads : w.Leads base place) (hmem : place ++ [name] ∈ taken) (s : Text) :
    w.readText (Path.join base name) ≠ .ok s := by
  obtain ⟨hname, target, links, directory, hlink, hfollows⟩ := hlinks.of_mem hmem
  obtain ⟨n, hlocate⟩ := hleads.walk_join hname.ne_nil hname.not_slash hname.not_zero
  rw [Disk.walk_cons, Disk.turn_follows.mpr ⟨hleads.2, .of_isName hname, hlink⟩] at hlocate
  cases n with
  | zero => simp [World.readText, Disk.readText, Disk.read, Disk.entryAt, hlocate]
  | succ n =>
      simp only at hlocate
      cases hwalk : w.disk.walk n (Disk.startOf place target) (Path.pieces target ++ []) with
      | error fault =>
          rw [hwalk] at hlocate
          simp [World.readText, Disk.readText, Disk.read, Disk.entryAt, hlocate]
      | ok x =>
          obtain rfl := hfollows.eq_of_walk (by simp) hwalk
          rw [hwalk] at hlocate
          simp [World.readText, Disk.readText, Disk.read, Disk.entryAt, hlocate, hfollows.directory]

theorem directory_of_append {d : Disk}
    (hparent : ∀ q, d.entry? q = some .directory → d.entry? q.dropLast = some .directory) {names : Place}
    (h : d.entry? (place ++ names) = some .directory) : d.entry? place = some .directory := by
  induction names using List.reverseRecOn with
  | nil => simpa using h
  | append_singleton names name ih =>
      have hbefore := hparent _ h
      rw [← List.append_assoc, List.dropLast_concat] at hbefore
      exact ih hbefore

/-- What has the name of a source and is no directory is listed. -/
theorem mem_sourcesBelow {d : Disk} {within : Place} {name : Text} {e : Entry} {depth : Nat}
    (hnodup : d.places.Nodup)
    (hparent : ∀ q, d.entry? q = some .directory → d.entry? q.dropLast = some .directory)
    (hdirectory : d.entry? (place ++ within) = some .directory)
    (hentry : d.entry? (place ++ within ++ [name]) = some e) (he : e ≠ .directory)
    (hname : Path.IsName name) (hsource : (Path.splitName name).2 = some sourceExtension)
    (hdepth : within.length < depth) :
    Path.join (within.foldl Path.join path) name ∈ sourcesBelow d depth place path := by
  induction within generalizing place path depth with
  | nil =>
      obtain ⟨depth, rfl⟩ := Nat.exists_eq_add_one.mpr hdepth
      rw [sourcesBelow, List.mem_flatMap]
      refine ⟨(name, e), (Disk.mem_children_of_nodup hnodup).mpr (by simpa using hentry), ?_⟩
      have hextension : Path.extension? (Path.join path name) = some sourceExtension := by
        rw [Path.extension?_join hname, hsource]
      cases e with
      | directory => exact absurd rfl he
      | _ => simp [hextension]
  | cons n within ih =>
      obtain ⟨depth, rfl⟩ := Nat.exists_eq_add_one.mpr (Nat.zero_lt_of_lt hdepth)
      rw [List.append_cons place n within] at hdirectory hentry
      have hnext := directory_of_append hparent hdirectory
      rw [sourcesBelow, List.mem_flatMap]
      exact ⟨(n, .directory), (Disk.mem_children_of_nodup hnodup).mpr hnext,
        ih hdirectory hentry (by simpa using hdepth)⟩

theorem folderPath_ne_nil (p : Project) (isTest : Bool) : folderPath p isTest ≠ [] := by
  rw [folderPath, Path.join_eq_opened (isName_folderOf isTest).head?_ne]
  exact List.append_ne_nil_of_right_ne_nil _ (isName_folderOf isTest).ne_nil

/-- The sources of a folder are those below the directory that its path leads to. -/
theorem sourcesOf_folder (h : w.Leads (folderPath p isTest) place) : sourcesOf w (folderPath p isTest) =
    .ok ((sourcesBelow w.disk w.disk.height place (folderPath p isTest)).mergeSort Path.precedes) := by
  rcases h.1 with ⟨hempty, -⟩ | hlocate
  · exact absurd hempty (folderPath_ne_nil p isTest)
  · simp only [sourcesOf, hlocate, h.2]

/-- Where a run over a folder succeeds, no link below the folder has the name of a source. -/
theorem translateFolder_unnamed {within : Place} {name : Text} {written : List Text}
    (h : Overlooking c.invoker taken) (hlinked : Linked c.invoker taken w)
    (hfolder : w.Leads (folderPath p isTest) place)
    (hbelow : w.Leads (within.foldl Path.join (folderPath p isTest)) (place ++ within))
    (hmem : place ++ within ++ [name] ∈ taken)
    (hrun : p.translateFolder c onDisk (folderOf isTest) w = (.ok written, w')) :
    (Path.splitName name).2 ≠ some sourceExtension := by
  intro hsource
  obtain ⟨hname, target, -, -, hlink, -⟩ := hlinked.links.of_mem hmem
  have hdepth : within.length < w.disk.height := by
    have hentry := Disk.mem_children_iff.mp ((Disk.mem_children_of_nodup hlinked.nodup).mpr hlink)
    have hheight := Disk.length_le_height hentry
    simp only [List.length_append, List.length_singleton] at hheight
    omega
  have hlisted : Path.join (within.foldl Path.join (folderPath p isTest)) name ∈
      sourcesBelow w.disk w.disk.height place (folderPath p isTest) :=
    mem_sourcesBelow hlinked.nodup hlinked.parent hbelow.2 hlink nofun hname hsource hdepth
  have hsources := sourcesOf_folder hfolder
  rw [translateFolder_eq, if_pos (onDisk_of_sourcesOf hsources), hsources] at hrun
  obtain ⟨v, s, hfiles, hread⟩ := exists_readText h hrun (List.mem_mergeSort.mpr hlisted)
  exact readText_link_ne (hlinked.links.of_ways hfiles.way) (hfiles.leads hbelow) hmem s hread

/-! ## The whole project -/

/-- `w'` has what `w` has, and links to directories below the folders of the project at the places in
`taken`. The folders and the directory for source files are found without the links. -/
structure AddsLinks (c : Checker) (p : Project) (taken : List Place) (w w' : World) : Prop where
  without : w'.without taken = w
  tree : w'.disk.IsTree
  below : ∀ q ∈ taken, ∃ isTest place within name, w'.Leads (folderPath p isTest) place ∧
    q = place ++ within ++ [name]
  link : ∀ q ∈ taken, ∃ target directory, w'.disk.entry? q = some (.link target) ∧
    w'.disk.walk Disk.maxLinks (Disk.startOf q.dropLast target) (Path.pieces target) = .ok directory ∧
      w'.disk.entry? directory = some .directory
  folder : ∀ isTest, w.Clear taken (folderPath p isTest)
  room : w.Clear taken (Path.join (World.placeText w.here) c.invoker.directory)

namespace AddsLinks

theorem linked (h : AddsLinks c p taken w w') : Linked c.invoker taken w' where
  nodup := h.tree.nodup
  parent q hq := by
    obtain rfl | ⟨before, name, rfl⟩ := List.eq_nil_or_concat' q
    · exact hq
    · rw [List.dropLast_concat]
      exact (h.tree.inside hq).2
  links q hq := by
    obtain ⟨isTest, place, within, name, -, rfl⟩ := h.below q hq
    obtain ⟨target, directory, hlink, hwalk, hdirectory⟩ := h.link _ hq
    rw [List.dropLast_concat, ← List.append_nil (Path.pieces target)] at hwalk
    obtain ⟨links, between, hfollows, -⟩ := Disk.follows_of_walk hwalk hdirectory (.inr rfl)
    exact ⟨place ++ within, name, target, links, between, rfl, (h.tree.inside hlink).1, hlink, hfollows⟩
  room := by
    rw [← World.clear_without, h.without]
    have hhere : w'.here = w.here := by rw [← h.without]; rfl
    rw [hhere]
    exact h.room

theorem missing (h : AddsLinks c p taken w w') (hq : q ∈ taken) : w.disk.entry? q = none := by
  rw [← h.without]
  exact Disk.entry?_without_of_mem hq (h.linked.links.ne_nil hq)

theorem clear_folder (h : AddsLinks c p taken w w') (isTest : Bool) :
    w'.Clear taken (folderPath p isTest) := by
  rw [← World.clear_without, h.without]
  exact h.folder isTest

end AddsLinks

/-- None of the places has the name of a source, and no source and no translation of one is found by way of
one of them. -/
structure Harmless (c : Checker) (p : Project) (taken : List Place) (w : World) : Prop where
  unnamed : Unnamed taken
  sources : Unhindered taken p false w
  tests : Unhindered taken p true (p.translateFolder c onDisk (folderOf false) w).2

theorem translate_eq (c : Checker) (p : Project) : p.translate c onDisk = (do
    let sources ← p.translateFolder c onDisk (folderOf false)
    let tests ← p.translateFolder c onDisk (folderOf true)
    return sources ++ tests) := rfl

namespace Overlooking

variable (h : Overlooking c.invoker taken)
include h

theorem project_files (p : Project) (w : World) : FilesOnly w (p.translate c onDisk w).2 :=
  (h.translateFolder_files p false w).bind fun _ w₁ _ =>
    (h.translateFolder_files p true w₁).bind fun _ w₂ _ => .refl w₂

theorem project (hadds : AddsLinks c p taken w w') (hharmless : Harmless c p taken w) :
    Overlooks taken (p.translate c onDisk) w' := by
  have hlinked := hadds.linked
  have hunnamed := hharmless.unnamed
  obtain rfl := hadds.without
  have hsources := h.translateFolder hlinked hunnamed (hadds.clear_folder false)
    ((unhindered_without hlinked hunnamed (hadds.clear_folder false)).mp hharmless.sources)
  have htests := hharmless.tests
  rw [hsources] at htests
  refine hsources.bind fun sources w₁ hrun => ?_
  have hfiles := (h.translateFolder_files p false w').of_eq hrun
  rw [hrun] at htests
  have hlinked₁ := hlinked.of_files hfiles
  have hbase₁ : w₁.Clear taken (folderPath p true) := hfiles.clear.mpr (hadds.clear_folder true)
  exact (h.translateFolder hlinked₁ hunnamed hbase₁
    ((unhindered_without hlinked₁ hunnamed hbase₁).mp htests)).bind fun _ _ _ => rfl

/-- Where the runs with the links and without them succeed, the links are harmless. -/
theorem harmless (hadds : AddsLinks c p taken w w') {written written' : List Text}
    (hwithout : p.translate c onDisk w = (.ok written, v))
    {v' : World} (hwith : p.translate c onDisk w' = (.ok written', v')) : Harmless c p taken w := by
  have hlinked := hadds.linked
  have hclear := hadds.clear_folder
  rw [translate_eq] at hwithout hwith
  obtain ⟨sources, w₁, hsources, hrest⟩ := Attempt.exists_of_bind_ok hwithout
  obtain ⟨sources', w₁', hsources', hrest'⟩ := Attempt.exists_of_bind_ok hwith
  obtain ⟨tests, w₂, htests, -⟩ := Attempt.exists_of_bind_ok hrest
  obtain ⟨tests', w₂', htests', -⟩ := Attempt.exists_of_bind_ok hrest'
  have hfiles := (h.translateFolder_files p false w').of_eq hsources'
  have hunnamed : Unnamed taken := by
    intro q hq
    obtain ⟨isTest, place, within, name, hfolder, rfl⟩ := hadds.below q hq
    obtain ⟨target, -, hlink, -⟩ := hadds.link _ hq
    have hbelow := hfolder.foldl_join hadds.tree (hadds.tree.inside hlink).2
    rw [List.getLast?_concat, Option.getD_some]
    cases isTest with
    | false => exact translateFolder_unnamed h hlinked hfolder hbelow hq hsources'
    | true =>
        exact translateFolder_unnamed h (hlinked.of_files hfiles) (hfiles.leads hfolder)
          (hfiles.leads hbelow) hq htests'
  obtain rfl := hadds.without
  have hunhindered := translateFolder_unhindered h hlinked hunnamed (hclear false) hsources hsources'
  have hfirst := (h.translateFolder hlinked hunnamed (hclear false) hunhindered).eq_without hsources'
  refine ⟨hunnamed, (unhindered_without hlinked hunnamed (hclear false)).mpr hunhindered, ?_⟩
  rw [hfirst] at hsources ⊢
  cases hsources
  have hlinked₁ := hlinked.of_files hfiles
  have hclear₁ : w₁'.Clear taken (folderPath p true) := hfiles.clear.mpr (hclear true)
  exact (unhindered_without hlinked₁ hunnamed hclear₁).mpr
    (translateFolder_unhindered h hlinked₁ hunnamed hclear₁ htests htests')

end Overlooking

/-! ## Projects without links -/

section Plain

variable {top : Place} {kept : Place → Prop} {usual : Nat → World → Prop}
  {answer : Text → Except Failure (Option Json)} {n : Nat} {x : File}

theorem Ready.clearBoth_iff (h : Ready p top w) (htaken : ∀ q ∈ taken, w.disk.entry? q = none)
    (hx : x ∈ sources p top w.disk) :
    ClearBoth taken w (x.path p) ↔ x.target.place top ∉ taken := by
  obtain ⟨content, executable, hfile⟩ := h.file hx
  have hnamed := h.named hx
  have hdirectory := File.directory_entry h.tree hfile
  have hclear : ∀ y : File, y.directory top = x.directory top → y.Named →
      (w.Clear taken (y.path p) ↔ y.place top ∉ taken) := by
    intro y hy hname
    rw [← hy] at hdirectory
    constructor
    · exact fun hclear => hclear.not_mem (h.locate hname.name hdirectory)
    · intro hplace q hq
      have hleads := h.leads_directory hdirectory
      rcases hleads.looked_join hname.name.ne_nil hname.name.ne_dots hname.name.not_slash
        hname.name.not_zero (h.not_link (y.inside_place top)) hq with hentry | rfl
      · exact fun hmem => hentry (htaken q hmem)
      · exact hplace
  rw [ClearBoth, File.withExtension_path hnamed, hclear x rfl hnamed,
    hclear x.target rfl ((h.isSource hx).named_target hnamed)]
  refine and_iff_right fun hmem => ?_
  rw [htaken _ hmem] at hfile
  cases hfile

theorem Ready.unhindered_iff (h : Ready p top w) : Unhindered taken p isTest w ↔
    ∀ x ∈ listed w.disk top p isTest, ClearBoth taken w (x.path p) := by
  have hlocate := h.locate_folder isTest
  by_cases hfolder : w.disk.entry? (top ++ [folderOf isTest]) = some .directory
  · rw [Unhindered, folderPath, sourcesOf_eq h.tree hlocate hfolder]
    simp
  · constructor
    · intro _ x hx
      obtain ⟨rfl, ⟨e, hentry, -⟩, -⟩ := (mem_listed h.tree).mp hx
      have hplace : x.place top = top ++ [folderOf x.isTest] ++ (x.within ++ [x.name]) := by
        simp [File.place, File.directory]
      rw [hplace] at hentry
      exact absurd (h.tree.directory_of_below (by simp) hentry) hfolder
    · intro _ paths hpaths
      simp only [sourcesOf, hlocate] at hpaths
      split at hpaths
      · next hdirectory => exact absurd hdirectory hfolder
      · cases hpaths
      · cases hpaths

/-- In a project without links, links are harmless if none of them has the name of a source or is where a
translation goes to. -/
theorem harmless_iff (hseen : Overlooking c.invoker taken)
    (h : Obliging c.invoker p top kept usual answer) (hready : Ready p top w)
    (husual : usual (n + (listed w.disk top p false).length) w)
    (htaken : ∀ q ∈ taken, w.disk.entry? q = none) :
    Harmless c p taken w ↔ Unnamed taken ∧ ∀ x ∈ sources p top w.disk, x.target.place top ∉ taken := by
  obtain ⟨w₁, hrun, -, hready₁, hwrote⟩ := h.translateFolder husual hready
  have hfiles := (hseen.translateFolder_files p false w).of_eq hrun
  have hlisted := (hwrote.alike h.project).toSteady.listed_eq hready hready₁ true
  have htests : Unhindered taken p true (p.translateFolder c onDisk (folderOf false) w).2 ↔
      ∀ x ∈ listed w.disk top p true, ClearBoth taken w (x.path p) := by
    rw [hrun, hready₁.unhindered_iff, hlisted]
    simp only [ClearBoth.files hfiles]
  have hboth : (∀ x ∈ sources p top w.disk, x.target.place top ∉ taken) ↔
      ∀ x ∈ sources p top w.disk, ClearBoth taken w (x.path p) :=
    forall₂_congr fun x hx => (hready.clearBoth_iff htaken hx).symm
  rw [hboth, sources, List.forall_mem_append, ← hready.unhindered_iff, ← htests]
  constructor
  · intro h
    exact ⟨h.unnamed, h.sources, h.tests⟩
  · rintro ⟨hunnamed, hsources, htests⟩
    exact ⟨hunnamed, hsources, htests⟩

end Plain

namespace Small

/-- The project with links in it. -/
private def joined (links : List (Place × Text)) : World :=
  { world with disk := ⟨disk.entries ++ links.map fun l => (l.1, .link l.2)⟩ }

/-- A link to the directory around it, and one from the tests to the sources. -/
private def loops : List (Place × Text) :=
  [(["p", "Sources", "A", "Loop"], ".."), (["p", "Tests", "All"], "/p/Sources")]

/-- A link that is named as a source. -/
private def misnamed : List (Place × Text) := [(["p", "Sources", "L.swift"], "A")]

private theorem addsLinks {links : List (Place × Text)} (htree : (joined links).disk.IsTree)
    (hentries : (joined links).disk.entries.filter (·.1 ∉ links.map Prod.fst) = disk.entries)
    (hlinks : ∀ l ∈ links,
      (∃ isTest within name, l.1 = (["p"] : Place) ++ [folderOf isTest] ++ within ++ [name]) ∧
      (joined links).disk.entry? l.1 = some (.link l.2) ∧
      ∃ n directory, (joined links).disk.Follows Disk.maxLinks (Disk.startOf l.1.dropLast l.2)
        (Path.pieces l.2) n directory) :
    AddsLinks checker project (links.map Prod.fst) world (joined links) := by
  have hwithout : (joined links).without (links.map Prod.fst) = world :=
    congrArg (fun entries => { world with disk := ⟨entries⟩ }) hentries
  have hroot : [] ∉ links.map Prod.fst := by
    intro hmem
    obtain ⟨l, hl, hnil⟩ := List.mem_map.mp hmem
    obtain ⟨⟨isTest, within, name, heq⟩, -⟩ := hlinks l hl
    simp [hnil] at heq
  have hmissing : ∀ q ∈ links.map Prod.fst, world.disk.entry? q = none := by
    intro q hq
    rw [← hwithout]
    exact Disk.entry?_without_of_mem hq fun hnil => hroot (hnil ▸ hq)
  have hfolder : ∀ isTest, world.Leads (folderPath project isTest) ((["p"] : Place) ++ [folderOf isTest]) :=
    fun isTest => root.join (isName_folderOf isTest) (folder_entry isTest)
  refine ⟨hwithout, htree, ?_, ?_, fun isTest => (hfolder isTest).clear hmissing, ?_⟩
  · intro q hq
    obtain ⟨l, hl, rfl⟩ := List.mem_map.mp hq
    obtain ⟨⟨isTest, within, name, heq⟩, -⟩ := hlinks l hl
    have hleads := hfolder isTest
    rw [← hwithout] at hleads
    exact ⟨isTest, _, within, name, hleads.of_without hroot, heq⟩
  · intro q hq
    obtain ⟨l, hl, rfl⟩ := List.mem_map.mp hq
    obtain ⟨-, hlink, n, directory, hfollows⟩ := hlinks l hl
    exact ⟨l.2, directory, hlink, hfollows.walk, hfollows.directory⟩
  · obtain ⟨hlocate, hdirectory⟩ := World.room_eq_ok.mp room_eq
    exact World.Leads.clear ⟨.inr hlocate, hdirectory⟩ hmissing

private theorem addsLinks_loops :
    AddsLinks checker project (loops.map Prod.fst) world (joined loops) := by
  refine addsLinks (by decide +kernel) (by decide +kernel) ?_
  simp only [loops, List.forall_mem_cons]
  have hup : (joined loops).disk.Follows Disk.maxLinks (["p", "Sources", "A"] : Place) [['.', '.']]
      Disk.maxLinks (["p", "Sources"] : Place) := .up rfl (.done rfl)
  have hroot : (joined loops).disk.Follows Disk.maxLinks [] ([[], "p", "Sources"] : List Text)
      Disk.maxLinks (["p", "Sources"] : Place) :=
    .stay rfl (.inl rfl) (.down rfl (.of_isName (by decide)) rfl
      (.down rfl (.of_isName (by decide)) rfl (.done rfl)))
  exact ⟨⟨⟨false, ["A"], "Loop", rfl⟩, rfl, _, _, hup⟩, ⟨⟨true, [], "All", rfl⟩, rfl, _, _, hroot⟩, nofun⟩

private theorem addsLinks_misnamed :
    AddsLinks checker project (misnamed.map Prod.fst) world (joined misnamed) := by
  refine addsLinks (by decide +kernel) (by decide +kernel) ?_
  simp only [misnamed, List.forall_mem_cons]
  have hdown : (joined misnamed).disk.Follows Disk.maxLinks (["p", "Sources"] : Place) (["A"] : List Text)
      Disk.maxLinks (["p", "Sources", "A"] : Place) := .down rfl (.of_isName (by decide)) rfl (.done rfl)
  exact ⟨⟨⟨false, [], "L.swift", rfl⟩, rfl, _, _, hdown⟩, nofun⟩

end Small

/-! ## What links change -/

/-- Links to directories below the folders of a project change neither the result of a run nor anything that it
leaves if they are harmless, and a run that succeeds without them gives the same only if they are. -/
theorem translate_links_iff (h : Overlooking c.invoker taken) (hadds : AddsLinks c p taken w w') :
    (Harmless c p taken w → (p.translate c onDisk w').1 = (p.translate c onDisk w).1 ∧
      (p.translate c onDisk w').2.without taken = (p.translate c onDisk w).2 ∧
      ∀ q ∈ taken, (p.translate c onDisk w').2.disk.entry? q = w'.disk.entry? q) ∧
    ∀ written, (p.translate c onDisk w).1 = .ok written →
      ((p.translate c onDisk w').1 = .ok written ↔ Harmless c p taken w) := by
  have hsame : Harmless c p taken w → p.translate c onDisk w =
      ((p.translate c onDisk w').1, (p.translate c onDisk w').2.without taken) := by
    intro hharmless
    have hoverlooks := h.project hadds hharmless
    rwa [World.Overlooks, hadds.without] at hoverlooks
  refine ⟨fun hharmless => ?_, fun written hwritten => ⟨fun hwritten' => ?_, fun hharmless => ?_⟩⟩
  · rw [hsame hharmless]
    refine ⟨rfl, rfl, fun q hq => ?_⟩
    obtain ⟨target, -, hlink, -⟩ := hadds.link q hq
    rw [hlink, (h.project_files p w').link]
    exact hlink
  · exact h.harmless hadds (Prod.ext hwritten rfl) (Prod.ext hwritten' rfl)
  · rw [← hwritten, hsame hharmless]

theorem translate_links_iff_small :
    Overlooking Small.checker.invoker (Small.loops.map Prod.fst) ∧
    AddsLinks Small.checker Small.project (Small.loops.map Prod.fst) Small.world (Small.joined Small.loops) ∧
    Harmless Small.checker Small.project (Small.loops.map Prod.fst) Small.world ∧
    ∃ written, (Small.project.translate Small.checker onDisk Small.world).1 = .ok written ∧
      (Small.project.translate Small.checker onDisk (Small.joined Small.loops)).1 = .ok written := by
  have hseen : Overlooking Small.checker.invoker (Small.loops.map Prod.fst) := .rehearsed rfl _
  have hharmless : Harmless Small.checker Small.project (Small.loops.map Prod.fst) Small.world := by
    have hlength : (sources Small.project ["p"] Small.disk).length ≤ 10 :=
      Small.ready.lists_sources.length_le
    rw [sources, List.length_append] at hlength
    have hroom : HasRoom Small.checker.invoker ["tmp"]
        (0 + (listed Small.disk ["p"] Small.project false).length) Small.world := Small.hasRoom _ (by omega)
    refine (harmless_iff hseen Small.obliging Small.ready hroom fun q hq =>
      Small.addsLinks_loops.missing hq).mpr ⟨by decide +kernel, fun x hx hmem => ?_⟩
    have hdotless : ∀ q ∈ Small.loops.map Prod.fst, '.' ∉ q.getLast?.getD [] := by decide +kernel
    obtain ⟨stem, -, -, htarget⟩ := (Small.ready.isSource hx).exists_stem
    have hdot := hdotless _ hmem
    simp [File.place, htarget] at hdot
  obtain ⟨written, w', hrun⟩ := Small.exists_run
  refine ⟨hseen, Small.addsLinks_loops, hharmless, written, congrArg Prod.fst hrun, ?_⟩
  exact ((translate_links_iff hseen Small.addsLinks_loops).2 written (congrArg Prod.fst hrun)).mpr hharmless

/-- A link to a directory that has the name of a source makes a run fail. -/
theorem misnamed_link_fails :
    AddsLinks Small.checker Small.project (Small.misnamed.map Prod.fst) Small.world
      (Small.joined Small.misnamed) ∧
    ∃ written, (Small.project.translate Small.checker onDisk Small.world).1 = .ok written ∧
      ∀ written', (Small.project.translate Small.checker onDisk (Small.joined Small.misnamed)).1 ≠
        .ok written' := by
  obtain ⟨written, w', hrun⟩ := Small.exists_run
  refine ⟨Small.addsLinks_misnamed, written, congrArg Prod.fst hrun, fun written' hwritten' => ?_⟩
  have hharmless := (Overlooking.rehearsed rfl _).harmless Small.addsLinks_misnamed hrun (Prod.ext hwritten' rfl)
  exact absurd (hharmless.unnamed ["p", "Sources", "L.swift"] (by simp [Small.misnamed])) (by decide +kernel)

end Crosscheck.Project
