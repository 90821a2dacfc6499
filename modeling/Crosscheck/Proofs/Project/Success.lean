import Crosscheck.Proofs.Project.WholeRun
/-!
# Successful runs

Whatever the translator answers, and however it comes to it, a run that succeeds has gone through all sources,
as long as each answer leaves the project as it was.
-/

namespace Crosscheck.Project

/-- The translator leaves the project as it is when it answers, in every world that is `usual`, and what is
usual stays so. -/
structure Sparing (i : Invoker) (p : Project) (top : Place) (usual : World → Prop) : Prop where
  call : ∀ {s path a w w₁ w₂}, usual w → Ready p top w → i.persist s w = (.ok path, w₁) →
    i.translator.compile (Invoker.arguments path) w₁ = (.ok a, w₂) →
      usual w₂ ∧ Ready p top w₂ ∧ ∀ q, Inside top q → w₂.disk.entry? q = w.disk.entry? q
  write : ∀ {w q}, usual w → Ready p top w → Inside top q → w.disk.entry? q ≠ some .directory →
    ∀ content executable, usual (w.putFile q content executable)

/-- The directory for source files is at `room`. -/
def RoomAt (i : Invoker) (room : Place) (w : World) : Prop := w.room i.directory = .ok room

variable {c : Checker} {p : Project} {top : Place} {usual : World → Prop} {w w' : World} {x : File}
  {files : List File} {r : Checker.Request} {source text target : Text} {moduleName : Option Text}
  {written : List Text} {isTest : Bool}

theorem Steady.refl (top : Place) (w : World) : Steady top w w := ⟨fun _ => rfl, fun _ _ => rfl⟩

/-- A file beside a source is none of the sources. -/
theorem Steady.putFile (hx : x.IsSource) (hsame : ∀ q, Inside top q → w'.disk.entry? q = w.disk.entry? q)
    (content : Bytes) (executable : Bool) :
    Steady top w (w'.putFile (x.target.place top) content executable) := by
  refine ⟨fun isTest => ?_, fun y hy => ?_⟩
  · rw [World.entry?_putFile (x.target.place_ne_nil top), if_neg (x.target.place_ne_folder top isTest).symm]
    exact hsame _ (inside_folder top isTest)
  · have hne : y.place top ≠ x.target.place top := fun heq =>
      hx.target_ne hy (File.place_injective heq).symm
    rw [World.entry?_putFile (x.target.place_ne_nil top), if_neg hne]
    exact hsame _ (y.inside_place top)

namespace Sparing

theorem translate (h : Sparing c.invoker p top usual) (husual : usual w) (hready : Ready p top w)
    (hrun : c.translate r moduleName source w = (.ok text, w')) :
    usual w' ∧ Ready p top w' ∧ ∀ q, Inside top q → w'.disk.entry? q = w.disk.entry? q := by
  obtain ⟨translated, w₃, hinvoke, hcompose⟩ := Attempt.exists_of_bind_ok hrun
  cases hcompose
  obtain ⟨path, w₁, hpersist, hrest⟩ := Attempt.exists_of_bind_ok (World.eq_ok_of_during hinvoke)
  obtain ⟨a, w₂, hcompile, hunwrap⟩ := Attempt.exists_of_bind_ok hrest
  have hsame : w₂ = w' := by
    cases hanswer : Translator.unwrap a with
    | ok text =>
        rw [hanswer] at hunwrap
        cases hunwrap
        rfl
    | error f =>
        rw [hanswer] at hunwrap
        cases hunwrap
  exact hsame ▸ h.call husual hready hpersist hcompile

/-- A source is translated to the file beside it, and the sources stay as they are. -/
theorem translateFile (h : Sparing c.invoker p top usual) (husual : usual w) (hready : Ready p top w)
    (hx : x.IsSource) {e : Entry} (hentry : w.disk.entry? (x.place top) = some e) (he : e ≠ .directory)
    (hrun : p.translateFile c r (x.path p) w = (.ok target, w')) :
    target = x.target.path p ∧ usual w' ∧ Ready p top w' ∧ Steady top w w' := by
  obtain ⟨content, executable, rfl⟩ := (hready.plain _ _ (x.inside_place top) hentry).resolve_left he
  have hnamed := File.named hready.tree hentry
  obtain ⟨source, w₀, hread, hrest⟩ := Attempt.exists_of_bind_ok hrun
  obtain rfl : w₀ = w := by
    rw [hready.readSource hentry] at hread
    exact (congrArg Prod.snd hread).symm
  obtain ⟨text, w₁, htranslate, hrest⟩ := Attempt.exists_of_bind_ok hrest
  obtain ⟨⟨⟩, w₂, hwrite, hreturn⟩ := Attempt.exists_of_bind_ok hrest
  cases hreturn
  obtain ⟨husual₁, hready₁, hsame⟩ := h.translate husual hready htranslate
  have hdirectory₁ : w₁.disk.entry? (x.directory top) = some .directory :=
    (hsame _ (inside_directory top x)).trans (File.directory_entry hready.tree hentry)
  rw [hready₁.writeTranslation hready.tree hsame hx hentry] at hwrite
  split at hwrite
  · cases hwrite
  · next hfree =>
    cases hwrite
    have hfree₁ : w₁.disk.entry? (x.target.place top) ≠ some .directory := by
      rwa [hsame _ (x.target.inside_place top)]
    exact ⟨File.withExtension_path hnamed,
      h.write husual₁ hready₁ (x.target.inside_place top) hfree₁ _ _,
      hready₁.putFile (x := x.target) (hx.named_target hnamed).name hdirectory₁ hfree₁ _ _,
      .putFile hx hsame _ _⟩

theorem translateFiles (h : Sparing c.invoker p top usual) (husual : usual w) (hready : Ready p top w)
    (hfiles : ∀ x ∈ files, x.IsSource ∧ ∃ e, w.disk.entry? (x.place top) = some e ∧ e ≠ .directory)
    (hrun : (files.map (File.path p)).mapM (p.translateFile c r) w = (.ok written, w')) :
    written = files.map (fun x => x.target.path p) ∧ usual w' ∧ Ready p top w' ∧ Steady top w w' := by
  induction files generalizing w written with
  | nil =>
      cases hrun
      exact ⟨rfl, husual, hready, .refl ..⟩
  | cons x files ih =>
      obtain ⟨⟨hx, e, hentry, he⟩, hrest⟩ := List.forall_mem_cons.mp hfiles
      rw [List.map_cons, List.mapM_cons] at hrun
      obtain ⟨target, w₁, hfirst, hmore⟩ := Attempt.exists_of_bind_ok hrun
      obtain ⟨targets, w₂, hothers, hreturn⟩ := Attempt.exists_of_bind_ok hmore
      cases hreturn
      obtain ⟨rfl, husual₁, hready₁, hsteady⟩ := h.translateFile husual hready hx hentry he hfirst
      obtain ⟨rfl, husual₂, hready₂, hsteady'⟩ := ih husual₁ hready₁ (fun y hy => by
        rw [hsteady.source y (hrest y hy).1]
        exact hrest y hy) hothers
      exact ⟨rfl, husual₂, hready₂, hsteady.trans hsteady'⟩

theorem translateFolder (h : Sparing c.invoker p top usual) (husual : usual w) (hready : Ready p top w)
    (hrun : p.translateFolder c onDisk (folderOf isTest) w = (.ok written, w')) :
    written = (listed w.disk top p isTest).map (fun x => x.target.path p) ∧ usual w' ∧
      Ready p top w' ∧ Steady top w w' := by
  rw [hready.translateFolder] at hrun
  cases hshelf : shelf p top w isTest with
  | error f =>
      rw [hshelf] at hrun
      cases hrun
  | ok files =>
      rw [hshelf] at hrun
      obtain rfl := eq_listed_of_shelf hshelf
      exact h.translateFiles husual hready (fun x hx => ⟨isSource_of_mem_listed hready.tree hx,
        ((mem_listed hready.tree).mp hx).2.1⟩) hrun

/-- A successful run has translated every source. -/
theorem translateProject (h : Sparing c.invoker p top usual) (husual : usual w) (hready : Ready p top w)
    (hrun : p.translate c onDisk w = (.ok written, w')) :
    written = (sources p top w.disk).map fun x => x.target.path p := by
  obtain ⟨first, w₁, hsources, hrest⟩ := Attempt.exists_of_bind_ok hrun
  obtain ⟨second, w₂, htests, hreturn⟩ := Attempt.exists_of_bind_ok hrest
  cases hreturn
  have hsources : p.translateFolder c onDisk (folderOf false) w = (.ok first, w₁) := hsources
  have htests : p.translateFolder c onDisk (folderOf true) w₁ = (.ok second, w') := htests
  obtain ⟨rfl, husual₁, hready₁, hsteady⟩ := h.translateFolder husual hready hsources
  obtain ⟨rfl, -⟩ := h.translateFolder husual₁ hready₁ htests
  rw [hsteady.listed_eq hready hready₁, sources, List.map_append]

/-- A rehearsed translator spares every project that its source files are outside of. -/
theorem rehearsed {i : Invoker} {room : Place} {r : Translator.Rehearsal}
    (htranslator : i.translator = Translator.rehearsed r) (hroom : ¬ Inside top room) :
    Sparing i p top (RoomAt i room) where
  call := fun {s path a w w₁ w₂} hat hready hpersist hcompile => by
    obtain ⟨k, hnew⟩ := exists_newSource hat hready hpersist
    rw [htranslator] at hcompile
    simp only [Translator.rehearsed, Invoker.arguments, List.getLast?_cons_cons, List.getLast?_singleton]
      at hcompile
    cases hread : w₁.readText path with
    | error fault =>
        rw [hread] at hcompile
        cases hcompile
    | ok s' =>
        rw [hread] at hcompile
        obtain ⟨-, rfl⟩ := Prod.mk.inj hcompile
        have hkept : ∀ q, Inside top q → w₁.disk.entry? q = w.disk.entry? q := fun q hq =>
          hnew.kept (allBut_of_inside hroom hq)
        have htree := hnew.tree hready.tree (hnew.sourceFile.isName hread) (World.room_eq_ok.mp hat).2
        exact ⟨hnew.stays, ⟨htree, hnew.root, fun q e hq hentry => hready.plain q e hq (hkept q hq ▸ hentry)⟩,
          hkept⟩
  write hat hready hq hold := room_putFile_inside hat hready hq hold

end Sparing

end Crosscheck.Project
