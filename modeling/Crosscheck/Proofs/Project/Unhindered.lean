import Crosscheck.Proofs.Project.Overlooked
import Crosscheck.Proofs.Project.WholeRun
/-!
# Translating past links

Links to directories that have no names of sources are not listed. Where no source and no translation of one
is found by way of them, a run over a folder does the same without them.
-/

namespace Crosscheck.Project

open World (FilesOnly Overlooks)

variable {w w' : World} {taken : List Place} {i : Invoker} {c : Checker} {p : Project}
  {path base source text : Text} {paths : List Text} {place : Place} {isTest : Bool}

/-- There are links to directories at the places, and the directory for source files is found without
them. -/
structure Linked (i : Invoker) (taken : List Place) (w : World) : Prop where
  nodup : w.disk.places.Nodup
  parent : ∀ q, w.disk.entry? q = some .directory → w.disk.entry? q.dropLast = some .directory
  links : w.disk.LinksToDirectories taken
  room : w.Clear taken (Path.join (World.placeText w.here) i.directory)

namespace Linked

theorem of_files (h : Linked i taken w) (hfiles : FilesOnly w w') : Linked i taken w' where
  nodup := hfiles.nodup h.nodup
  parent q hq := (hfiles.directory _).mpr (h.parent q ((hfiles.directory q).mp hq))
  links := h.links.of_ways hfiles.way
  room := by
    rw [hfiles.here, hfiles.clear]
    exact h.room

theorem root_not_mem (h : Linked i taken w) : [] ∉ taken := fun hmem => h.links.ne_nil hmem rfl

end Linked

/-! ## One file -/

theorem readSource_world (path : Text) (w : World) : (readSource path w).2 = w := by
  rw [readSource]
  cases w.readText path <;> rfl

theorem readText_of_readSource (h : readSource path w = (.ok source, w')) :
    w.readText path = .ok source := by
  rw [readSource] at h
  cases htext : w.readText path with
  | error fault =>
      rw [htext] at h
      cases h
  | ok s =>
      rw [htext] at h
      cases h
      rfl

theorem readSource_files (path : Text) (w : World) : FilesOnly w (readSource path w).2 := by
  rw [readSource_world]
  exact .refl w

theorem readSource_overlooks (h : w.Clear taken path) : Overlooks taken (readSource path) w := by
  rw [Overlooks, readSource, readSource, h.readText]
  cases w.readText path <;> rfl

theorem writeText_of_writeTarget {u : Unit} (h : writeTarget path text w = (.ok u, w')) :
    w.writeText path text = .ok w' := by
  rw [writeTarget] at h
  cases hwrite : w.writeText path text with
  | error fault =>
      rw [hwrite] at h
      cases h
  | ok w' =>
      rw [hwrite] at h
      cases h
      rfl

theorem writeTarget_files (path text : Text) (w : World) : FilesOnly w (writeTarget path text w).2 := by
  rw [writeTarget]
  cases hwrite : w.writeText path text with
  | error fault => exact .refl w
  | ok w' => exact .writeText hwrite

theorem writeTarget_overlooks (h : w.Clear taken path) (hlinks : w.disk.LinksToDirectories taken)
    (text : Text) : Overlooks taken (writeTarget path text) w := by
  rw [Overlooks, writeTarget, writeTarget, h.writeText hlinks]
  cases w.writeText path text <;> rfl

/-- Neither the path of a source nor that of its translation comes by one of the places. -/
def ClearBoth (taken : List Place) (w : World) (path : Text) : Prop :=
  w.Clear taken path ∧ w.Clear taken (Path.withExtension path targetExtension)

theorem ClearBoth.files (hfiles : FilesOnly w w') : ClearBoth taken w' path ↔ ClearBoth taken w path := by
  rw [ClearBoth, ClearBoth, hfiles.clear, hfiles.clear]

namespace Overlooking

variable (h : Overlooking c.invoker taken)
include h

theorem translateFile_files (p : Project) (r : Checker.Request) (path : Text) (w : World) :
    FilesOnly w (p.translateFile c r path w).2 :=
  (readSource_files path w).bind fun source w₁ _ =>
    (h.translate_files r (some p.moduleName) source w₁).bind fun text w₂ _ =>
      (writeTarget_files _ text w₂).bind fun _ w₃ _ => .refl w₃

theorem translateFiles_files (p : Project) (r : Checker.Request) (paths : List Text) (w : World) :
    FilesOnly w (paths.mapM (p.translateFile c r) w).2 := by
  induction paths generalizing w with
  | nil => exact .refl w
  | cons path paths ih =>
      rw [List.mapM_cons]
      exact (h.translateFile_files p r path w).bind fun _ w₁ _ => (ih w₁).bind fun _ w₂ _ => .refl w₂

theorem translateFile (hlinked : Linked c.invoker taken w) (hunnamed : Unnamed taken)
    (hclear : ClearBoth taken w path) (p : Project) (r : Checker.Request) :
    Overlooks taken (p.translateFile c r path) w := by
  refine (readSource_overlooks hclear.1).bind fun source w₁ hread => ?_
  obtain rfl : w₁ = w := by
    rw [← readSource_world path w, hread]
  refine (h.translate hlinked.room hunnamed hlinked.root_not_mem r _ source).bind fun text w₂ htext => ?_
  have hfiles : FilesOnly w₁ w₂ := (h.translate_files r _ source w₁).of_eq htext
  have hwrite := writeTarget_overlooks (hfiles.clear.mpr hclear.2) (hlinked.of_files hfiles).links text
  exact hwrite.bind fun _ _ _ => rfl

theorem translateFiles (hlinked : Linked c.invoker taken w) (hunnamed : Unnamed taken)
    (hclear : ∀ path ∈ paths, ClearBoth taken w path) (p : Project) (r : Checker.Request) :
    Overlooks taken (paths.mapM (p.translateFile c r)) w := by
  induction paths generalizing w with
  | nil => rfl
  | cons path paths ih =>
      rw [List.forall_mem_cons] at hclear
      rw [List.mapM_cons]
      refine (h.translateFile hlinked hunnamed hclear.1 p r).bind fun target w₁ hfile => ?_
      have hfiles : FilesOnly w w₁ := (h.translateFile_files p r path w).of_eq hfile
      refine (ih (hlinked.of_files hfiles) fun path hpath => ?_).bind fun _ _ _ => rfl
      exact (ClearBoth.files hfiles).mpr (hclear.2 path hpath)

end Overlooking

/-! ## The sources of a folder -/

section Listing

variable {d : Disk} {depth : Nat}

/-- Nothing is deeper than the disk is high. -/
theorem sourcesBelow_succ (h : d.height ≤ place.length + depth) (path : Text) :
    sourcesBelow d (depth + 1) place path = sourcesBelow d depth place path := by
  induction depth generalizing place path with
  | zero =>
      rw [sourcesBelow, sourcesBelow, List.flatMap_eq_nil_iff]
      rintro ⟨name, e⟩ hmem
      have hheight := Disk.length_le_height (Disk.mem_children_iff.mp hmem)
      rw [List.length_append, List.length_singleton] at hheight
      omega
  | succ depth ih =>
      rw [sourcesBelow, sourcesBelow]
      refine List.flatMap_congr fun pair _ => ?_
      obtain ⟨name, e⟩ := pair
      cases e with
      | directory =>
          refine ih ?_ _
          rw [List.length_append, List.length_singleton]
          omega
      | _ => rfl

theorem sourcesBelow_of_le (h : d.height ≤ depth) (place : Place) (path : Text) :
    sourcesBelow d depth place path = sourcesBelow d d.height place path := by
  induction depth, h using Nat.le_induction with
  | base => rfl
  | succ depth hle ih => rw [sourcesBelow_succ (by omega), ih]

theorem flatMap_filter_eq {α β : Type} {keep : α → Bool} {f g : α → List β} {xs : List α}
    (hkeep : ∀ x ∈ xs, keep x = true → f x = g x) (hdrop : ∀ x ∈ xs, keep x = false → g x = []) :
    (xs.filter keep).flatMap f = xs.flatMap g := by
  induction xs with
  | nil => rfl
  | cons x xs ih =>
      rw [List.forall_mem_cons] at hkeep hdrop
      have hrest := ih hkeep.2 hdrop.2
      cases hx : keep x with
      | true => rw [List.filter_cons_of_pos hx, List.flatMap_cons, List.flatMap_cons, hrest, hkeep.1 hx]
      | false => simp [hx, hrest, hdrop.1 hx]

/-- Links that have no names of sources are not listed. -/
theorem sourcesBelow_without (hnodup : d.places.Nodup) (hlinks : d.LinksToDirectories taken)
    (hunnamed : Unnamed taken) (depth : Nat) (place : Place) (path : Text) :
    sourcesBelow (d.without taken) depth place path = sourcesBelow d depth place path := by
  induction depth generalizing place path with
  | zero => rfl
  | succ depth ih =>
      rw [sourcesBelow, sourcesBelow, Disk.children_without]
      refine flatMap_filter_eq (fun pair _ _ => ?_) fun pair hpair htaken => ?_
      · obtain ⟨name, e⟩ := pair
        cases e with
        | directory => exact ih _ _
        | _ => rfl
      · obtain ⟨name, e⟩ := pair
        have hmem : place ++ [name] ∈ taken := by simpa using htaken
        obtain ⟨hname, target, -, -, hlink, -⟩ := hlinks.of_mem hmem
        rw [(Disk.mem_children_of_nodup hnodup).mp hpair] at hlink
        cases hlink
        have hextension := hunnamed _ hmem
        rw [List.getLast?_concat, Option.getD_some] at hextension
        exact if_neg (by rwa [Path.extension?_join hname])

theorem height_without_le (d : Disk) (taken : List Place) : (d.without taken).height ≤ d.height :=
  Disk.height_le fun _ hpair => Disk.length_le_height (List.mem_filter.mp hpair).1

theorem sourcesOf_without (h : Linked i taken w) (hunnamed : Unnamed taken) (hbase : w.Clear taken base) :
    sourcesOf (w.without taken) base = sourcesOf w base := by
  simp only [sourcesOf, World.disk_without, World.here_without, hbase.locate]
  cases hlocate : w.disk.locate w.here base with
  | error fault => rfl
  | ok place =>
      simp only [Disk.entry?_without (hbase.not_mem hlocate)]
      have hsame := sourcesBelow_without h.nodup h.links hunnamed
      rw [← sourcesBelow_of_le (height_without_le w.disk taken), hsame]

end Listing

/-! ## One folder -/

/-- No source of the folder and no translation of one is found by way of one of the places. -/
def Unhindered (taken : List Place) (p : Project) (isTest : Bool) (w : World) : Prop :=
  ∀ paths, sourcesOf w (folderPath p isTest) = .ok paths → ∀ path ∈ paths, ClearBoth taken w path

theorem unhindered_without (h : Linked i taken w) (hunnamed : Unnamed taken)
    (hbase : w.Clear taken (folderPath p isTest)) :
    Unhindered taken p isTest (w.without taken) ↔ Unhindered taken p isTest w := by
  simp only [Unhindered, sourcesOf_without h hunnamed hbase, ClearBoth, World.clear_without]

namespace Overlooking

variable (h : Overlooking c.invoker taken)
include h

theorem translateFolder_files (p : Project) (isTest : Bool) (w : World) :
    FilesOnly w (p.translateFolder c onDisk (folderOf isTest) w).2 := by
  rw [translateFolder_eq]
  split
  · split
    · exact h.translateFiles_files p _ _ w
    · exact .refl w
  · exact .refl w

theorem translateFolder (hlinked : Linked c.invoker taken w) (hunnamed : Unnamed taken)
    (hbase : w.Clear taken (folderPath p isTest)) (hclear : Unhindered taken p isTest w) :
    Overlooks taken (p.translateFolder c onDisk (folderOf isTest)) w := by
  have hpresent : onDisk (w.without taken) (folderPath p isTest) = onDisk w (folderPath p isTest) :=
    hbase.holds
  rw [Overlooks, translateFolder_eq, translateFolder_eq, hpresent, sourcesOf_without hlinked hunnamed hbase]
  by_cases hon : onDisk w (folderPath p isTest)
  · rw [if_pos hon, if_pos hon]
    cases hsources : sourcesOf w (folderPath p isTest) with
    | error f => rfl
    | ok paths => exact h.translateFiles hlinked hunnamed (hclear paths hsources) p _
  · rw [if_neg hon, if_neg hon]

end Overlooking

end Crosscheck.Project
