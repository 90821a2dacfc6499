import Crosscheck.Checker.Basic
import Crosscheck.Proofs.Project.Files
import Crosscheck.Proofs.World.Attempt
/-!
# The surroundings of a project

The sources of a project are handed to a translator one by one, each in a file of a directory for such files.
What a project relies on is that the translator answers by the source text alone and writes neither into
the project nor into anything else that is to be kept. Then a translation is determined by the source.
-/

namespace Crosscheck

namespace World

/-- Where the directory is that a translator finds its source files in, or why there is none. -/
def room (w : World) (directory : Text) : Except Fault Place :=
  match w.disk.locate w.here (Path.join (placeText w.here) directory) with
  | .error fault => .error fault
  | .ok place =>
    match w.disk.entry? place with
    | some .directory => .ok place
    | some _ => .error .notDirectory
    | none => .error .notFound

variable {w : World} {directory : Text} {place : Place}

theorem room_eq_ok : w.room directory = .ok place ↔
    w.disk.locate w.here (Path.join (placeText w.here) directory) = .ok place ∧
      w.disk.entry? place = some .directory := by
  rw [room]
  cases hlocate : w.disk.locate w.here (Path.join (placeText w.here) directory) with
  | error fault => simp
  | ok q =>
      simp only [Except.ok.injEq]
      constructor
      · intro h
        split at h
        · next hentry =>
          cases h
          exact ⟨rfl, hentry⟩
        · cases h
        · cases h
      · rintro ⟨rfl, hentry⟩
        rw [hentry]

/-- The world with a file put into it. -/
def putFile (w : World) (place : Place) (content : Bytes) (executable : Bool) : World :=
  { w with disk := w.disk.put place (.file content executable) }

/-- The directory stays where it is when no directory and no link goes away. -/
theorem room_of_kept {w' : World} (h : w.room directory = .ok place) (hhere : w'.here = w.here)
    (hdirectory : ∀ p, w.disk.entry? p = some .directory → w'.disk.entry? p = some .directory)
    (hlink : ∀ p target, w.disk.entry? p = some (.link target) →
      w'.disk.entry? p = some (.link target)) : w'.room directory = .ok place := by
  obtain ⟨hlocate, hentry⟩ := room_eq_ok.mp h
  have hleads : w'.Leads (Path.join (placeText w.here) directory) place :=
    Leads.of_kept ⟨.inr hlocate, hentry⟩ hhere hdirectory hlink
  rcases hleads with ⟨⟨hempty, -⟩ | hlocate', hentry'⟩
  · simp [hempty, Disk.locate] at hlocate
  · exact room_eq_ok.mpr ⟨hhere ▸ hlocate', hentry'⟩

section PutFile

variable {q : Place} {content : Bytes} {executable : Bool} {p : Place}

theorem entry?_putFile (hq : q ≠ []) (w : World) (content : Bytes) (executable : Bool) (p : Place) :
    (w.putFile q content executable).disk.entry? p =
      if p = q then some (.file content executable) else w.disk.entry? p :=
  Disk.entry?_put hq _ _ _

theorem directory_putFile (hq : q ≠ []) (hold : w.disk.entry? q ≠ some .directory)
    (hp : w.disk.entry? p = some .directory) :
    (w.putFile q content executable).disk.entry? p = some .directory := by
  rw [entry?_putFile hq, if_neg, hp]
  rintro rfl
  exact hold hp

theorem link_putFile {target : Text} (hq : q ≠ []) (hold : ∀ target, w.disk.entry? q ≠ some (.link target))
    (hp : w.disk.entry? p = some (.link target)) :
    (w.putFile q content executable).disk.entry? p = some (.link target) := by
  rw [entry?_putFile hq, if_neg, hp]
  rintro rfl
  exact hold target hp

/-- A file put over no directory and no link leaves paths to directories as they are. -/
theorem Leads.putFile {path : Text} (h : w.Leads path place) (hq : q ≠ [])
    (hdirectory : w.disk.entry? q ≠ some .directory) (hlink : ∀ target, w.disk.entry? q ≠ some (.link target))
    (content : Bytes) (executable : Bool) : (w.putFile q content executable).Leads path place :=
  h.of_kept rfl (fun _ => directory_putFile hq hdirectory) fun _ _ => link_putFile hq hlink

theorem room_putFile (h : w.room directory = .ok place) (hq : q ≠ [])
    (hdirectory : w.disk.entry? q ≠ some .directory) (hlink : ∀ target, w.disk.entry? q ≠ some (.link target))
    (content : Bytes) (executable : Bool) : (w.putFile q content executable).room directory = .ok place :=
  room_of_kept h rfl (fun _ => directory_putFile hq hdirectory) fun _ _ => link_putFile hq hlink

end PutFile

/-- A new file gets a name that is new in the directory. -/
theorem writeFresh_eq (w : World) (directory lead tail content : Text) :
    w.writeFresh directory lead tail content = (w.room directory).map fun place =>
      (Path.join (Path.join (placeText w.here) directory) (w.disk.freshName place lead tail),
        w.putFile (place ++ [w.disk.freshName place lead tail]) (Utf8.encode content) false) := by
  simp only [writeFresh, room]
  cases w.disk.locate w.here (Path.join (placeText w.here) directory) with
  | error fault => rfl
  | ok place =>
      simp only
      cases w.disk.entry? place with
      | none => rfl
      | some e => cases e <;> rfl

end World

namespace Invoker

variable {i : Invoker} {w : World} {s : Text} {fault : Fault} {place : Place}

/-- The failure to make a source file. -/
def noRoom (i : Invoker) (fault : Fault) : Failure :=
  .io ("Failed to create source file in '" ++ i.directory ++ "': " ++ fault.message)

theorem persist_of_error (h : w.room i.directory = .error fault) :
    i.persist s w = (.error (i.noRoom fault), w) := by
  simp only [persist, World.writeFresh_eq, h]
  rfl

theorem persist_of_room (h : w.room i.directory = .ok place) :
    i.persist s w =
      (.ok (Path.join (Path.join (World.placeText w.here) i.directory)
        (w.disk.freshName place "skiff-" ".swift")),
      w.putFile (place ++ [w.disk.freshName place "skiff-" ".swift"]) (Utf8.encode s) false) := by
  simp only [persist, World.writeFresh_eq, h]
  rfl

/-- What invoking the translator comes to if it answers so. -/
def answered (i : Invoker) (answer : Text → Except Failure (Option Json)) (room : Except Fault Place)
    (s : Text) : Except Failure Text :=
  match room with
  | .error fault => .error (i.noRoom fault)
  | .ok _ => (answer (i.importGuard.apply s)).bind Translator.unwrap

end Invoker

namespace Project

/-- What is not touched between two worlds. -/
structure Undisturbed (i : Invoker) (kept : Place → Prop) (w w' : World) : Prop where
  here : w'.here = w.here
  room : w'.room i.directory = w.room i.directory
  entry : ∀ q, kept q → w'.disk.entry? q = w.disk.entry? q

/-- A project of files and directories whose root is at `top`. -/
structure Ready (p : Project) (top : Place) (w : World) : Prop where
  tree : w.disk.IsTree
  root : w.Leads p.root top
  plain : Plain w.disk top

/-- The translator answers by the source text alone and leaves alone what is to be kept, the project
included, in every world that is `usual n` in that it can be called `n` times more there. -/
structure Obliging (i : Invoker) (p : Project) (top : Place) (kept : Place → Prop)
    (usual : Nat → World → Prop) (answer : Text → Except Failure (Option Json)) : Prop where
  project : ∀ q, Inside top q → kept q
  fewer : ∀ {n w}, usual (n + 1) w → usual n w
  reorder : ∀ {n w d}, usual n w → Ready p top w → d.entries.Perm w.disk.entries →
    usual n { w with disk := d }
  call : ∀ {n s path w w₁}, usual (n + 1) w → Ready p top w → i.persist s w = (.ok path, w₁) →
    ∃ w₂, i.translator.compile (Invoker.arguments path) w₁ = (answer s, w₂) ∧ usual n w₂ ∧
      w₂.disk.IsTree ∧ w₂.Leads p.root top ∧ Undisturbed i kept w w₂
  write : ∀ {n w q}, usual n w → Ready p top w → Inside top q → w.disk.entry? q ≠ some .directory →
    ∀ content executable, usual n (w.putFile q content executable)

section

variable {i : Invoker} {p : Project} {top : Place} {kept : Place → Prop} {usual : Nat → World → Prop}
  {answer : Text → Except Failure (Option Json)} {w w' : World} {n : Nat}

theorem Undisturbed.refl (i : Invoker) (kept : Place → Prop) (w : World) : Undisturbed i kept w w :=
  ⟨rfl, rfl, fun _ _ => rfl⟩

theorem Ready.of_undisturbed (h : Ready p top w) (hproject : ∀ q, Inside top q → kept q)
    (htree : w'.disk.IsTree) (hroot : w'.Leads p.root top) (hsame : Undisturbed i kept w w') :
    Ready p top w' :=
  ⟨htree, hroot, fun q e hq hentry => h.plain q e hq (hsame.entry q (hproject q hq) ▸ hentry)⟩

theorem Ready.not_link (h : Ready p top w) {q : Place} (hq : Inside top q) (target : Text) :
    w.disk.entry? q ≠ some (.link target) :=
  h.plain.not_link hq target

/-- The same files listed in another order make the same project. -/
theorem Ready.of_perm (h : Ready p top w) {d : Disk} (hperm : d.entries.Perm w.disk.entries) :
    Ready p top { w with disk := d } where
  tree := h.tree.of_perm hperm
  root := h.root.of_kept rfl (fun q hq => (h.tree.entry?_of_perm hperm q).trans hq)
    fun q _ hq => (h.tree.entry?_of_perm hperm q).trans hq
  plain q e hq hentry := h.plain q e hq ((h.tree.entry?_of_perm hperm q).symm.trans hentry)

theorem Undisturbed.of_perm (htree : w.disk.IsTree) {d : Disk} (hperm : d.entries.Perm w.disk.entries) :
    Undisturbed i kept w { w with disk := d } where
  here := rfl
  room := by
    simp only [World.room, Disk.locate_congr (htree.entry?_of_perm hperm), htree.entry?_of_perm hperm]
  entry q _ := htree.entry?_of_perm hperm q

/-- The text that an invocation gives is determined by the text handed over. -/
theorem Obliging.invoke (h : Obliging i p top kept usual answer) (husual : usual (n + 1) w)
    (hready : Ready p top w) (s : Text) :
    ∃ w', i.translate s w = (i.answered answer (w.room i.directory) s, w') ∧ usual n w' ∧
      Ready p top w' ∧ Undisturbed i kept w w' := by
  cases hroom : w.room i.directory with
  | error fault =>
      refine ⟨w, Attempt.bind_error (Invoker.persist_of_error hroom), h.fewer husual, hready, .refl ..⟩
  | ok place =>
      have hpersist := Invoker.persist_of_room (s := i.importGuard.apply s) hroom
      obtain ⟨w₂, hcompile, husual', htree, hroot, hsame⟩ := h.call husual hready hpersist
      refine ⟨w₂, ?_, husual', hready.of_undisturbed h.project htree hroot hsame, hsame⟩
      rw [Invoker.translate, Attempt.bind_ok hpersist, Invoker.answered]
      cases hanswer : answer (i.importGuard.apply s) with
      | error f => exact Attempt.bind_error (hcompile.trans (by rw [hanswer]))
      | ok response =>
          rw [Attempt.bind_ok (hcompile.trans (by rw [hanswer]))]
          cases hunwrap : Translator.unwrap response with
          | ok translated =>
              simp only [hunwrap, Except.bind]
              rfl
          | error f =>
              simp only [hunwrap, Except.bind]
              rfl

variable {c : Checker}

/-- What translating a source comes to if the translator answers so. -/
def rendered (c : Checker) (answer : Text → Except Failure (Option Json)) (room : Except Fault Place)
    (r : Checker.Request) (moduleName : Option Text) (source : Text) : Except Failure Text :=
  match c.invoker.answered answer room (c.resolver.resolve source) with
  | .error f => .error (f.during .translate)
  | .ok translated =>
    .ok (Artifact.compose ⟨r.testCase, moduleName, true⟩ (c.patcher.patchWith (c.modeFor r) translated))

theorem exists_room_of_rendered {room : Except Fault Place} {r : Checker.Request} {moduleName : Option Text}
    {source text : Text} (h : rendered c answer room r moduleName source = .ok text) :
    ∃ place, room = .ok place := by
  cases room with
  | error fault => cases h
  | ok place => exact ⟨place, rfl⟩

/-- A translation is determined by its source. -/
theorem Obliging.translate (h : Obliging c.invoker p top kept usual answer) (husual : usual (n + 1) w)
    (hready : Ready p top w) (r : Checker.Request) (moduleName : Option Text) (source : Text) :
    ∃ w', c.translate r moduleName source w =
        (rendered c answer (w.room c.invoker.directory) r moduleName source, w') ∧
      usual n w' ∧ Ready p top w' ∧ Undisturbed c.invoker kept w w' := by
  obtain ⟨w', hinvoke, hafter⟩ := h.invoke husual hready (c.resolver.resolve source)
  refine ⟨w', ?_, hafter⟩
  rw [Checker.translate, Checker.run, rendered]
  cases hanswered : c.invoker.answered answer (w.room c.invoker.directory) (c.resolver.resolve source) with
  | error f =>
      rw [hanswered] at hinvoke
      exact Attempt.bind_error (World.during_error hinvoke)
  | ok translated =>
      rw [hanswered] at hinvoke
      rw [Attempt.bind_ok (World.during_ok hinvoke)]
      rfl

end

end Project

end Crosscheck
