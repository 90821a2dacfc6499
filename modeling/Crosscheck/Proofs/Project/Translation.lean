import Crosscheck.Proofs.Project.Surroundings
/-!
# Translating the files of a project

What becomes of a source is told by the world in which the run starts: the run goes on to the first
source that cannot be read, translated or written, and what it has written by then is all that it changes.
-/

namespace Crosscheck.Project

variable {c : Checker} {p : Project} {top : Place} {kept : Place → Prop} {usual : Nat → World → Prop}
  {answer : Text → Except Failure (Option Json)} {w w' w'' v v' : World} {n : Nat}
  {d d' : Disk} {x y : File} {source text : Text} {content : Bytes} {executable : Bool}
  {done files : List File}

/-- Whether a file that is written at the place becomes executable. -/
def executableAt (d : Disk) (place : Place) : Bool :=
  match d.entry? place with
  | some (.file _ executable) => executable
  | _ => false

/-- The text that a source is translated to, or why there is none. -/
def outcome (c : Checker) (p : Project) (answer : Text → Except Failure (Option Json)) (top : Place)
    (w : World) (x : File) : Except Failure Text :=
  match w.disk.entry? (x.place top) with
  | some (.file content _) =>
    match Utf8.decode? content with
    | none => .error (.io ("Failed to read '" ++ x.path p ++ "': " ++ Fault.notText.message))
    | some source =>
      match rendered c answer (w.room c.invoker.directory) ⟨false, x.isTest⟩ (some p.moduleName) source with
      | .error f => .error f
      | .ok text =>
        if w.disk.entry? (x.target.place top) = some .directory then
          .error (.io ("Failed to write '" ++ x.target.path p ++ "': " ++ Fault.isDirectory.message))
        else .ok text
  | _ => .error .noResult

/-! ## Finding the files -/

namespace Ready

theorem leads_directory (h : Ready p top w) (hfile : w.disk.entry? (x.directory top) = some .directory) :
    w.Leads (x.within.foldl Path.join (Path.join p.root (folderOf x.isTest))) (x.directory top) := by
  have hplace : x.directory top = top ++ [folderOf x.isTest] ++ x.within := by
    simp [File.directory]
  rw [hplace] at hfile ⊢
  by_cases hwithin : x.within = []
  · rw [hwithin, List.append_nil] at hfile ⊢
    exact h.root.join (isName_folderOf _) hfile
  · exact (h.root.join (isName_folderOf _) (h.tree.directory_of_below hwithin hfile)).foldl_join h.tree hfile

/-- A name in a directory of the project is found by its path, whether or not there is a file yet. -/
theorem locate (h : Ready p top w) (hname : Path.IsName x.name)
    (hdirectory : w.disk.entry? (x.directory top) = some .directory) :
    w.disk.locate w.here (x.path p) = .ok (x.place top) := by
  exact (h.leads_directory hdirectory).locate_join hname (h.not_link (x.inside_place top))

theorem readText (h : Ready p top w)
    (hfile : w.disk.entry? (x.place top) = some (.file content executable)) :
    w.readText (x.path p) = match Utf8.decode? content with
      | some source => .ok source
      | none => .error .notText := by
  have hlocate := h.locate (File.named h.tree hfile).name (File.directory_entry h.tree hfile)
  cases hdecode : Utf8.decode? content <;>
    simp only [World.readText, Disk.readText, Disk.read, Disk.entryAt, hlocate, hfile, hdecode]

theorem readSource (h : Ready p top w)
    (hfile : w.disk.entry? (x.place top) = some (.file content executable)) :
    readSource (x.path p) w = (match Utf8.decode? content with
      | some source => .ok source
      | none => .error (.io ("Failed to read '" ++ x.path p ++ "': " ++ Fault.notText.message)), w) := by
  rw [Project.readSource, h.readText hfile]
  cases Utf8.decode? content <;> rfl

theorem writeTarget (h : Ready p top w) (hname : Path.IsName x.name)
    (hdirectory : w.disk.entry? (x.directory top) = some .directory) (text : Text) :
    writeTarget (x.path p) text w =
      if w.disk.entry? (x.place top) = some .directory then
        (.error (.io ("Failed to write '" ++ x.path p ++ "': " ++ Fault.isDirectory.message)), w)
      else (.ok (), w.putFile (x.place top) (Utf8.encode text) (executableAt w.disk (x.place top))) := by
  have hlocate := h.locate hname hdirectory
  have hopen : w.disk.isOpen (x.place top) := by
    simp [Disk.isOpen, File.place, hdirectory]
  have hlast : (x.path p).getLast? ≠ some '/' := Path.getLast?_join_ne hname _
  simp only [Project.writeTarget, World.writeText, Disk.write, hlocate]
  cases hentry : w.disk.entry? (x.place top) with
  | none =>
      simp only [hlast, hopen, executableAt, hentry]
      rfl
  | some e =>
      rcases h.plain _ _ (x.inside_place top) hentry with rfl | ⟨content, executable, rfl⟩
      · rfl
      · simp only [executableAt, hentry]
        rfl

end Ready

/-! ## One file -/

theorem Ready.putFile (h : Ready p top w) (hname : Path.IsName x.name)
    (hdirectory : w.disk.entry? (x.directory top) = some .directory)
    (hold : w.disk.entry? (x.place top) ≠ some .directory) (content : Bytes) (executable : Bool) :
    Ready p top (w.putFile (x.place top) content executable) where
  tree := h.tree.put hname hdirectory hold content executable
  root := h.root.putFile (x.place_ne_nil top) hold (h.not_link (x.inside_place top)) content executable
  plain q e hq hentry := by
    rw [World.entry?_putFile (x.place_ne_nil top)] at hentry
    split at hentry
    · cases hentry
      exact .inr ⟨_, _, rfl⟩
    · exact h.plain q e hq hentry

/-- A source has an outcome if it can be read, translated and written. -/
theorem outcome_eq_ok (hfile : w.disk.entry? (x.place top) = some (.file content executable)) :
    outcome c p answer top w x = .ok text ↔ ∃ source, Utf8.decode? content = some source ∧
      rendered c answer (w.room c.invoker.directory) ⟨false, x.isTest⟩ (some p.moduleName) source =
        .ok text ∧ w.disk.entry? (x.target.place top) ≠ some .directory := by
  rw [outcome, hfile]
  simp only
  cases Utf8.decode? content with
  | none => simp
  | some source =>
      simp only [Option.some.injEq, exists_eq_left']
      cases rendered c answer (w.room c.invoker.directory) ⟨false, x.isTest⟩ (some p.moduleName) source with
      | error f => simp
      | ok text' =>
          by_cases htarget : w.disk.entry? (x.target.place top) = some .directory <;> simp [htarget]

theorem executableAt_congr {q : Place} (h : d.entry? q = d'.entry? q) :
    executableAt d q = executableAt d' q := by
  rw [executableAt, executableAt, h]

/-- The directory of a file of the project is kept. -/
theorem inside_directory (top : Place) (x : File) : Inside top (x.directory top) :=
  ⟨x.isTest, x.within, rfl⟩

/-- The file that a translation goes to is written as it would have been before the translation. -/
theorem Ready.writeTranslation (h : Ready p top w') (htree : w.disk.IsTree)
    (hsame : ∀ q, Inside top q → w'.disk.entry? q = w.disk.entry? q) (hx : x.IsSource)
    (hfile : w.disk.entry? (x.place top) = some (.file content executable)) (text : Text) :
    Project.writeTarget (Path.withExtension (x.path p) targetExtension) text w' =
      if w.disk.entry? (x.target.place top) = some .directory then
        (.error (.io ("Failed to write '" ++ x.target.path p ++ "': " ++ Fault.isDirectory.message)), w')
      else (.ok (), w'.putFile (x.target.place top) (Utf8.encode text)
        (executableAt w.disk (x.target.place top))) := by
  have hnamed := File.named htree hfile
  have hdirectory : w'.disk.entry? (x.directory top) = some .directory :=
    (hsame _ (inside_directory top x)).trans (File.directory_entry htree hfile)
  have htarget := hsame _ (x.target.inside_place top)
  have hwrite := h.writeTarget (hx.named_target hnamed).name hdirectory text
  rw [File.withExtension_path hnamed]
  rwa [htarget, executableAt_congr htarget] at hwrite

/-- A source with an outcome is translated, and nothing changes but the file beside it. -/
theorem Obliging.translateFile_ok (h : Obliging c.invoker p top kept usual answer)
    (husual : usual (n + 1) w) (hready : Ready p top w) (hx : x.IsSource)
    (hfile : w.disk.entry? (x.place top) = some (.file content executable))
    (houtcome : outcome c p answer top w x = .ok text) :
    ∃ w', p.translateFile c ⟨false, x.isTest⟩ (x.path p) w = (.ok (x.target.path p), w') ∧
      usual n w' ∧ Ready p top w' ∧ w'.here = w.here ∧
      w'.room c.invoker.directory = w.room c.invoker.directory ∧
      ∀ q, kept q → w'.disk.entry? q = if q = x.target.place top then
        some (.file (Utf8.encode text) (executableAt w.disk (x.target.place top))) else
        w.disk.entry? q := by
  have hnamed := File.named hready.tree hfile
  obtain ⟨source, hdecode, hrendered, htarget⟩ := (outcome_eq_ok hfile).mp houtcome
  obtain ⟨room, hroom⟩ := exists_room_of_rendered hrendered
  have hread := hready.readSource hfile
  rw [hdecode] at hread
  obtain ⟨w₁, htranslate, husual₁, hready₁, hsame⟩ :=
    h.translate husual hready ⟨false, x.isTest⟩ (some p.moduleName) source
  rw [hrendered] at htranslate
  have hproject : ∀ q, Inside top q → w₁.disk.entry? q = w.disk.entry? q := fun q hq =>
    hsame.entry q (h.project q hq)
  have hwrite := hready₁.writeTranslation hready.tree hproject hx hfile text
  rw [if_neg htarget] at hwrite
  have htarget₁ : w₁.disk.entry? (x.target.place top) ≠ some .directory := by
    rwa [hproject _ (x.target.inside_place top)]
  have hdirectory₁ : w₁.disk.entry? (x.directory top) = some .directory :=
    (hproject _ (inside_directory top x)).trans (File.directory_entry hready.tree hfile)
  have hready₂ := hready₁.putFile (hx.named_target hnamed).name hdirectory₁ htarget₁ (Utf8.encode text)
    (executableAt w.disk (x.target.place top))
  refine ⟨_, ?_, h.write husual₁ hready₁ (x.target.inside_place top) htarget₁ _ _, hready₂, hsame.here,
    ?_, fun q hq => ?_⟩
  · rw [Project.translateFile, Attempt.bind_ok hread, Attempt.bind_ok htranslate, Attempt.bind_ok hwrite,
      File.withExtension_path hnamed]
    rfl
  · rw [hroom, World.room_putFile (hsame.room.trans hroom) (x.target.place_ne_nil top) htarget₁
      (hready₁.not_link (x.target.inside_place top))]
  · rw [World.entry?_putFile (x.target.place_ne_nil top), hsame.entry q hq]

/-- A source without an outcome is not translated, and nothing changes. -/
theorem Obliging.translateFile_error (h : Obliging c.invoker p top kept usual answer)
    (husual : usual (n + 1) w) (hready : Ready p top w) (hx : x.IsSource)
    (hfile : w.disk.entry? (x.place top) = some (.file content executable)) {f : Failure}
    (houtcome : outcome c p answer top w x = .error f) :
    ∃ w', p.translateFile c ⟨false, x.isTest⟩ (x.path p) w = (.error f, w') ∧
      usual n w' ∧ Ready p top w' ∧ Undisturbed c.invoker kept w w' := by
  have hread := hready.readSource hfile
  rw [outcome, hfile] at houtcome
  simp only at houtcome
  rw [Project.translateFile]
  cases hdecode : Utf8.decode? content with
  | none =>
      rw [hdecode] at hread houtcome
      cases houtcome
      exact ⟨w, Attempt.bind_error hread, h.fewer husual, hready, .refl ..⟩
  | some source =>
      rw [hdecode] at hread
      simp only [hdecode] at houtcome
      obtain ⟨w₁, htranslate, husual₁, hready₁, hsame⟩ :=
        h.translate husual hready ⟨false, x.isTest⟩ (some p.moduleName) source
      refine ⟨w₁, ?_, husual₁, hready₁, hsame⟩
      rw [Attempt.bind_ok hread]
      cases hrendered : rendered c answer (w.room c.invoker.directory) ⟨false, x.isTest⟩
          (some p.moduleName) source with
      | error g =>
          rw [hrendered] at htranslate houtcome
          cases houtcome
          exact Attempt.bind_error htranslate
      | ok text =>
          have hproject : ∀ q, Inside top q → w₁.disk.entry? q = w.disk.entry? q := fun q hq =>
            hsame.entry q (h.project q hq)
          have hwrite := hready₁.writeTranslation hready.tree hproject hx hfile text
          rw [hrendered] at htranslate
          simp only [hrendered] at houtcome
          split at houtcome
          · next htarget =>
            cases houtcome
            rw [if_pos htarget] at hwrite
            rw [Attempt.bind_ok htranslate]
            exact Attempt.bind_error hwrite
          · cases houtcome

/-! ## All files of a folder -/

/-- What becomes of the files that are translated, and that nothing becomes of anything else. -/
structure Wrote (i : Invoker) (kept : Place → Prop) (top : Place) (outcome : File → Except Failure Text)
    (done : List File) (w w' : World) : Prop where
  here : w'.here = w.here
  room : w'.room i.directory = w.room i.directory
  source : ∀ x ∈ done, x.IsSource
  free : ∀ x ∈ done, w.disk.entry? (x.target.place top) ≠ some .directory
  target : ∀ x ∈ done, ∃ text, outcome x = .ok text ∧ w'.disk.entry? (x.target.place top) =
    some (.file (Utf8.encode text) (executableAt w.disk (x.target.place top)))
  other : ∀ q, kept q → (∀ x ∈ done, q ≠ x.target.place top) → w'.disk.entry? q = w.disk.entry? q

/-- Worlds in which the project has the same sources. -/
structure Steady (top : Place) (w w' : World) : Prop where
  folder : ∀ isTest, w'.disk.entry? (top ++ [folderOf isTest]) = w.disk.entry? (top ++ [folderOf isTest])
  source : ∀ x : File, x.IsSource → w'.disk.entry? (x.place top) = w.disk.entry? (x.place top)

namespace Steady

theorem trans (h : Steady top w w') (h' : Steady top w' w'') : Steady top w w'' where
  folder isTest := (h'.folder isTest).trans (h.folder isTest)
  source x hx := (h'.source x hx).trans (h.source x hx)

theorem listed_eq (h : Steady top w w') (hready : Ready p top w) (hready' : Ready p top w')
    (isTest : Bool) : listed w'.disk top p isTest = listed w.disk top p isTest :=
  listed_congr hready'.tree hready.tree h.source

end Steady

/-- Worlds in which the same becomes of the project. -/
structure Alike (i : Invoker) (top : Place) (w w' : World) : Prop extends Steady top w w' where
  room : w'.room i.directory = w.room i.directory
  target : ∀ x : File, w'.disk.entry? (x.target.place top) = some .directory ↔
    w.disk.entry? (x.target.place top) = some .directory

namespace Alike

variable {i : Invoker}

theorem trans (h : Alike i top w w') (h' : Alike i top w' w'') : Alike i top w w'' where
  toSteady := h.toSteady.trans h'.toSteady
  room := h'.room.trans h.room
  target x := (h'.target x).trans (h.target x)

theorem of_undisturbed (h : Undisturbed i kept w w') (hproject : ∀ q, Inside top q → kept q) :
    Alike i top w w' where
  room := h.room
  folder isTest := h.entry _ (hproject _ (inside_folder top isTest))
  source x _ := h.entry _ (hproject _ (x.inside_place top))
  target x := by rw [h.entry _ (hproject _ (x.target.inside_place top))]

theorem outcome_eq (h : Alike c.invoker top w w') (hx : x.IsSource) :
    outcome c p answer top w' x = outcome c p answer top w x := by
  simp only [outcome, h.room, h.source x hx, h.target x]

end Alike

namespace Wrote

variable {i : Invoker} {result result' : File → Except Failure Text} {done' : List File}

theorem of_undisturbed (h : Undisturbed i kept w w') : Wrote i kept top result [] w w' where
  here := h.here
  room := h.room
  source := by simp
  free := by simp
  target := by simp
  other q hq _ := h.entry q hq

/-- What has been written does not bear on what becomes of the other sources. -/
theorem alike (h : Wrote i kept top result done w w') (hproject : ∀ q, Inside top q → kept q) :
    Alike i top w w' where
  room := h.room
  folder isTest := h.other _ (hproject _ (inside_folder top isTest)) fun x _ heq =>
    x.target.place_ne_folder top isTest heq.symm
  source y hy := h.other _ (hproject _ (y.inside_place top)) fun x hx heq =>
    (h.source x hx).target_ne hy (File.place_injective heq).symm
  target y := by
    by_cases hdone : ∃ x ∈ done, y.target.place top = x.target.place top
    · obtain ⟨x, hx, heq⟩ := hdone
      obtain ⟨text, -, hentry⟩ := h.target x hx
      rw [heq, hentry]
      simp [h.free x hx]
    · rw [h.other _ (hproject _ (y.target.inside_place top)) fun x hx heq => hdone ⟨x, hx, heq⟩]

/-- One list of files after another. -/
theorem append (h : Wrote i kept top result done w w') (h' : Wrote i kept top result' done' w' w'')
    (hproject : ∀ q, Inside top q → kept q) (hsame : ∀ x ∈ done', result' x = result x)
    (hdisjoint : ∀ x ∈ done, ∀ y ∈ done', x ≠ y) : Wrote i kept top result (done ++ done') w w'' := by
  have happart : ∀ x ∈ done, ∀ y ∈ done', x.target.place top ≠ y.target.place top := fun x hx y hy heq =>
    hdisjoint x hx y hy ((h.source x hx).target_injective (h'.source y hy) (File.place_injective heq))
  have hfirst : ∀ y ∈ done', w'.disk.entry? (y.target.place top) = w.disk.entry? (y.target.place top) :=
    fun y hy => h.other _ (hproject _ (y.target.inside_place top)) fun x hx heq => happart x hx y hy heq.symm
  refine ⟨h'.here.trans h.here, h'.room.trans h.room, ?_, ?_, ?_, fun q hq hout => ?_⟩
  · exact fun x hx => (List.mem_append.mp hx).elim (h.source x) (h'.source x)
  · intro x hx
    rcases List.mem_append.mp hx with hx | hx
    · exact h.free x hx
    · rw [← hfirst x hx]
      exact h'.free x hx
  · intro x hx
    rcases List.mem_append.mp hx with hx | hx
    · rw [h'.other _ (hproject _ (x.target.inside_place top)) fun y hy => happart x hx y hy]
      exact h.target x hx
    · rw [← hsame x hx, ← executableAt_congr (hfirst x hx)]
      exact h'.target x hx
  · rw [h'.other q hq fun y hy => hout y (List.mem_append_right _ hy),
      h.other q hq fun x hx => hout x (List.mem_append_left _ hx)]

/-- The same files written again are the same, over the new ones as over the old ones. -/
theorem entry_eq (h : Wrote i kept top result done w w') (h' : Wrote i kept top result' done v v')
    (hsame : ∀ x ∈ done, result' x = result x)
    (hstart : Undisturbed i kept w v ∨ Undisturbed i kept w' v) {q : Place} (hq : kept q) :
    v'.disk.entry? q = w'.disk.entry? q := by
  by_cases hdone : ∃ x ∈ done, q = x.target.place top
  · obtain ⟨x, hx, rfl⟩ := hdone
    obtain ⟨text, htext, hentry⟩ := h.target x hx
    obtain ⟨text', htext', hentry'⟩ := h'.target x hx
    have hexecutable :
        executableAt v.disk (x.target.place top) = executableAt w.disk (x.target.place top) := by
      rcases hstart with hsame | hsame
      · exact executableAt_congr (hsame.entry _ hq)
      · rw [executableAt_congr (hsame.entry _ hq), executableAt, hentry]
    rw [hsame x hx, htext] at htext'
    cases htext'
    rw [hentry', hentry, hexecutable]
  · have hout : ∀ x ∈ done, q ≠ x.target.place top := fun x hx heq => hdone ⟨x, hx, heq⟩
    rw [h'.other q hq hout]
    rcases hstart with hsame | hsame
    · rw [hsame.entry q hq, h.other q hq hout]
    · exact hsame.entry q hq

end Wrote

/-- The files before the first one without an outcome. -/
def finished (result : File → Except Failure Text) (files : List File) : List File :=
  files.takeWhile fun x => (result x).isOk

/-- The paths of the files that translations go to, or why the first source without an outcome has none. -/
def written (result : File → Except Failure Text) (p : Project) (files : List File) :
    Except Failure (List Text) :=
  files.mapM fun x => (result x).map fun _ => x.target.path p

section

variable {result result' : File → Except Failure Text} {f : Failure}

theorem finished_congr (h : ∀ x ∈ files, result x = result' x) :
    finished result files = finished result' files := by
  induction files with
  | nil => rfl
  | cons x files ih =>
      rw [List.forall_mem_cons] at h
      have hrest := ih h.2
      simp only [finished, List.takeWhile_cons, h.1] at hrest ⊢
      rw [hrest]

theorem written_congr (h : ∀ x ∈ files, result x = result' x) :
    written result p files = written result' p files := by
  induction files with
  | nil => rfl
  | cons x files ih =>
      rw [List.forall_mem_cons] at h
      have hrest := ih h.2
      simp only [written, List.mapM_cons, h.1] at hrest ⊢
      rw [hrest]

theorem finished_cons_ok (h : result x = .ok text) :
    finished result (x :: files) = x :: finished result files := by
  simp [finished, h, Except.isOk, Except.toBool]

theorem finished_cons_error (h : result x = .error f) : finished result (x :: files) = [] := by
  simp [finished, h, Except.isOk, Except.toBool]

theorem written_cons_ok (h : result x = .ok text) :
    written result p (x :: files) = (written result p files).map (x.target.path p :: ·) := by
  rw [written, List.mapM_cons, h]
  rfl

theorem written_cons_error (h : result x = .error f) : written result p (x :: files) = .error f := by
  rw [written, List.mapM_cons, h]
  rfl

end

theorem Obliging.usual_of_le (h : Obliging c.invoker p top kept usual answer) {m : Nat}
    (husual : usual n w) (hle : m ≤ n) : usual m w := by
  induction n with
  | zero => rwa [Nat.le_zero.mp hle]
  | succ n ih =>
      rcases Nat.le_succ_iff.mp hle with hle | rfl
      · exact ih (h.fewer husual) hle
      · exact husual

/-- The run over the sources of a folder is told by the world at its start. -/
theorem Obliging.translateFiles (h : Obliging c.invoker p top kept usual answer) {isTest : Bool}
    (husual : usual (n + files.length) w) (hready : Ready p top w) (hnodup : files.Nodup)
    (hfiles : ∀ x ∈ files, x.isTest = isTest ∧ x.IsSource ∧
      ∃ content executable, w.disk.entry? (x.place top) = some (.file content executable)) :
    ∃ w', (files.map (File.path p)).mapM (p.translateFile c ⟨false, isTest⟩) w =
        (written (outcome c p answer top w) p files, w') ∧ usual n w' ∧ Ready p top w' ∧
      Wrote c.invoker kept top (outcome c p answer top w) (finished (outcome c p answer top w) files) w
        w' := by
  -- The outcomes are those of the world before the first file. A file that is written leaves a world alike
  -- for the rest, so the outcomes in the induction hypothesis are the same ones.
  induction files generalizing w with
  | nil => exact ⟨w, rfl, husual, hready, .of_undisturbed (.refl ..)⟩
  | cons x files ih =>
      obtain ⟨⟨rfl, hx, content, executable, hfile⟩, hrest⟩ := List.forall_mem_cons.mp hfiles
      rw [List.map_cons, List.mapM_cons]
      cases houtcome : outcome c p answer top w x with
      | error f =>
          obtain ⟨w', hrun, husual', hready', hsame⟩ := h.translateFile_error husual hready hx hfile houtcome
          rw [finished_cons_error houtcome, written_cons_error houtcome]
          exact ⟨w', Attempt.bind_error hrun, h.usual_of_le husual' (Nat.le_add_right _ _), hready',
            .of_undisturbed hsame⟩
      | ok text =>
          obtain ⟨w₁, hrun, husual₁, hready₁, hhere, hroom, hentry⟩ :=
            h.translateFile_ok husual hready hx hfile houtcome
          have hfirst : Wrote c.invoker kept top (outcome c p answer top w) [x] w w₁ := by
            refine ⟨hhere, hroom, by simpa using hx, ?_, ?_, fun q hq hout => ?_⟩
            · obtain ⟨-, -, -, hfree⟩ := (outcome_eq_ok hfile).mp houtcome
              simpa using hfree
            · have htarget := hentry _ (h.project _ (x.target.inside_place top))
              rw [if_pos rfl] at htarget
              simpa using ⟨text, houtcome, htarget⟩
            · rw [hentry q hq, if_neg (by simpa using hout)]
          have halike := hfirst.alike h.project
          have hsame : ∀ y ∈ files, outcome c p answer top w₁ y = outcome c p answer top w y := fun y hy =>
            halike.outcome_eq (hrest y hy).2.1
          obtain ⟨w₂, hruns, husual₂, hready₂, hwrote⟩ := ih husual₁ hready₁ (List.nodup_cons.mp hnodup).2
            fun y hy => by
              rw [halike.source y (hrest y hy).2.1]
              exact hrest y hy
          rw [written_congr hsame] at hruns
          rw [finished_congr hsame] at hwrote
          refine ⟨w₂, ?_, husual₂, hready₂, ?_⟩
          · rw [Attempt.bind_ok hrun, written_cons_ok houtcome]
            cases hwritten : written (outcome c p answer top w) p files with
            | error f => exact Attempt.bind_error (hruns.trans (by rw [hwritten]))
            | ok paths => exact Attempt.bind_ok (hruns.trans (by rw [hwritten]))
          · rw [finished_cons_ok houtcome]
            refine hfirst.append hwrote h.project (fun y hy => hsame y ?_) fun z hz y hy => ?_
            · exact (List.takeWhile_sublist _).subset hy
            · rw [List.mem_singleton.mp hz]
              rintro rfl
              exact (List.nodup_cons.mp hnodup).1 ((List.takeWhile_sublist _).subset hy)

end Crosscheck.Project
