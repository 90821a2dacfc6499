import Crosscheck.Proofs.Machine.Footprint
import Crosscheck.Proofs.Project.Rehearsed
/-!
# What is overlooked

A step that comes by none of the places that are taken away does the same without them: it gives the same
result, and leaves the same but for them. Steps that change nothing but files leave the way of every path as
it is, so what one of them comes by can be told before the others are taken.
-/

namespace Crosscheck

namespace World

variable {w w' w'' : World} {taken : List Place} {path content : Text} {place q : Place}
  {name : Text} {bytes : Bytes} {executable : Bool}

/-- The world without what is at some places. -/
def without (w : World) (taken : List Place) : World := { w with disk := w.disk.without taken }

theorem disk_without (w : World) (taken : List Place) :
    (w.without taken).disk = w.disk.without taken := rfl

theorem here_without (w : World) (taken : List Place) : (w.without taken).here = w.here := rfl

theorem putFile_without (hq : q ∉ taken) (w : World) (bytes : Bytes) (executable : Bool) :
    (w.putFile q bytes executable).without taken = (w.without taken).putFile q bytes executable := by
  simp only [putFile, without, Disk.put_without hq]

/-- The path comes by none of the places. -/
def Clear (w : World) (taken : List Place) (path : Text) : Prop :=
  ∀ q ∈ w.disk.looked Disk.maxLinks (Disk.startOf w.here path) (Path.pieces path), q ∉ taken

theorem clear_without : (w.without taken).Clear taken path ↔ w.Clear taken path := by
  constructor <;> intro h
  · rw [Clear, disk_without, here_without] at h
    rwa [Clear, (Disk.walk_of_without h).2]
  · rwa [Clear, disk_without, here_without, (Disk.walk_without h).2]

namespace Clear

theorem locate (h : w.Clear taken path) :
    (w.disk.without taken).locate w.here path = w.disk.locate w.here path := by
  simp only [Disk.locate]
  split
  · rfl
  · split
    · rfl
    · exact (Disk.walk_without h).1

theorem not_mem (h : w.Clear taken path) (hlocate : w.disk.locate w.here path = .ok place) :
    place ∉ taken := by
  obtain ⟨-, -, hwalk⟩ := Disk.walk_of_locate hlocate
  exact h _ (Disk.looked_of_walk hwalk).1

theorem entryAt (h : w.Clear taken path) :
    (w.disk.without taken).entryAt w.here path = w.disk.entryAt w.here path := by
  rw [Disk.entryAt, Disk.entryAt, h.locate]
  cases hlocate : w.disk.locate w.here path with
  | error fault => rfl
  | ok place => simp only [Disk.entry?_without (h.not_mem hlocate)]

theorem holds (h : w.Clear taken path) :
    (w.disk.without taken).holds w.here path = w.disk.holds w.here path := by
  rw [Disk.holds, Disk.holds, h.entryAt]

theorem readText (h : w.Clear taken path) : (w.without taken).readText path = w.readText path := by
  simp only [World.readText, Disk.readText, Disk.read, disk_without, here_without, h.entryAt]

theorem room {directory : Text} (h : w.Clear taken (Path.join (placeText w.here) directory)) :
    (w.without taken).room directory = w.room directory := by
  rw [World.room, World.room, disk_without, here_without, h.locate]
  cases hlocate : w.disk.locate w.here (Path.join (placeText w.here) directory) with
  | error fault => rfl
  | ok place => simp only [Disk.entry?_without (h.not_mem hlocate)]

/-- A file is written in the same place, as the links that are taken away are not directories. -/
theorem writeText (h : w.Clear taken path) (hlinks : w.disk.LinksToDirectories taken) (content : Text) :
    (w.without taken).writeText path content = (w.writeText path content).map (·.without taken) := by
  have hopen : ∀ place, (w.disk.without taken).isOpen place = w.disk.isOpen place := by
    intro place
    have hdirectory : ∀ q, Disk.entry? (w.disk.without taken) q = some .directory ↔
        w.disk.entry? q = some .directory := fun q => by
      by_cases hq : q ∈ taken
      · rw [Disk.entry?_without_of_mem hq (hlinks.ne_nil hq)]
        exact ⟨nofun, fun hdirectory => absurd hq (hlinks.not_mem hdirectory)⟩
      · rw [Disk.entry?_without hq]
    rw [Disk.isOpen, Disk.isOpen, Bool.eq_iff_iff]
    simp [hdirectory]
  simp only [World.writeText, disk_without, here_without, Disk.write, h.locate]
  cases hlocate : w.disk.locate w.here path with
  | error fault => rfl
  | ok place =>
      have hplace := h.not_mem hlocate
      simp only [Disk.entry?_without hplace, hopen, ← Disk.put_without hplace]
      cases w.disk.entry? place with
      | none =>
          simp only
          split
          · rfl
          · split <;> rfl
      | some e => cases e <;> rfl

end Clear

/-- A path that leads to a directory does not come by anything that is missing. -/
theorem Leads.clear (h : w.Leads path place) (htaken : ∀ q ∈ taken, w.disk.entry? q = none) :
    w.Clear taken path := by
  obtain ⟨-, links, hfollows⟩ := h.follows
  intro q hq hmem
  rw [← List.append_nil (Path.pieces path)] at hq
  have hentry : w.disk.entry? q ≠ none := by
    rcases hfollows.looked_append hq with hentry | hend
    · exact hentry
    · rw [Disk.looked, List.mem_singleton] at hend
      simp [hend, hfollows.directory]
  exact hentry (htaken q hmem)

/-- What leads to a directory without the places does so with them. -/
theorem Leads.of_without (h : (w.without taken).Leads path place) (hroot : [] ∉ taken) :
    w.Leads path place := by
  have hentry : ∀ {q : Place} {e : Entry}, (w.without taken).disk.entry? q = some e →
      w.disk.entry? q = some e := by
    intro q e hq
    by_cases hmem : q ∈ taken
    · rw [disk_without, Disk.entry?_without_of_mem hmem fun hnil => hroot (hnil ▸ hmem)] at hq
      cases hq
    · rwa [disk_without, Disk.entry?_without hmem] at hq
  exact h.of_kept rfl (fun _ => hentry) fun _ _ => hentry

/-! ## Steps that change files only -/

/-- On the disk nothing changes but files. -/
structure FilesOnly (w w' : World) : Prop where
  here : w'.here = w.here
  way : ∀ q, w'.disk.way? q = w.disk.way? q
  nodup : w.disk.places.Nodup → w'.disk.places.Nodup

namespace FilesOnly

theorem refl (w : World) : FilesOnly w w := ⟨rfl, fun _ => rfl, id⟩

theorem trans (h : FilesOnly w w') (h' : FilesOnly w' w'') : FilesOnly w w'' :=
  ⟨h'.here.trans h.here, fun q => (h'.way q).trans (h.way q), fun hnodup => h'.nodup (h.nodup hnodup)⟩

theorem directory (h : FilesOnly w w') (q : Place) :
    w'.disk.entry? q = some .directory ↔ w.disk.entry? q = some .directory := by
  rw [← Disk.way?_eq_directory, h.way, Disk.way?_eq_directory]

theorem link (h : FilesOnly w w') (q : Place) (target : Text) :
    w'.disk.entry? q = some (.link target) ↔ w.disk.entry? q = some (.link target) := by
  rw [← Disk.way?_eq_link, h.way, Disk.way?_eq_link]

theorem clear (h : FilesOnly w w') : w'.Clear taken path ↔ w.Clear taken path := by
  rw [Clear, Clear, Disk.looked_congr h.way, h.here]

theorem leads (h : FilesOnly w w') (hleads : w.Leads path place) : w'.Leads path place :=
  hleads.of_kept h.here (fun q => (h.directory q).mpr) fun q target => (h.link q target).mpr

theorem putFile (hq : q ≠ []) (hold : w.disk.way? q = none) (bytes : Bytes) (executable : Bool) :
    FilesOnly w (w.putFile q bytes executable) where
  here := rfl
  way p := by
    by_cases hp : p = q
    · rw [hp, hold, Disk.way?, entry?_putFile hq, if_pos rfl]
    · exact Disk.way?_congr (by rw [entry?_putFile hq, if_neg hp])
  nodup hnodup := by
    rw [World.putFile, Disk.places_put]
    split
    · exact hnodup
    · next hnone => exact hnodup.append (List.nodup_singleton _) (List.disjoint_singleton.mpr hnone)

theorem writeText (h : w.writeText path content = .ok w') : FilesOnly w w' := by
  simp only [World.writeText, Disk.write] at h
  cases hlocate : w.disk.locate w.here path with
  | error fault =>
      rw [hlocate] at h
      cases h
  | ok place =>
      rw [hlocate] at h
      cases hentry : w.disk.entry? place with
      | none =>
          have hne : place ≠ [] := by
            rintro rfl
            cases hentry
          simp only [hentry] at h
          split at h
          · cases h
          · split at h
            · cases h
              exact putFile hne (by rw [Disk.way?, hentry]) _ _
            · cases h
      | some e =>
          simp only [hentry] at h
          cases e with
          | file old executable =>
              have hne : place ≠ [] := by
                rintro rfl
                cases hentry
              cases h
              exact putFile hne (by rw [Disk.way?, hentry]) _ _
          | void =>
              cases h
              exact refl w
          | _ => cases h

end FilesOnly

variable {α β : Type} {step : Attempt World α} {next : α → Attempt World β} {a : α}

theorem FilesOnly.of_eq {result : Except Failure α} (h : FilesOnly w (step w).2)
    (hstep : step w = (result, w')) : FilesOnly w w' := by
  rwa [hstep] at h

theorem FilesOnly.bind (h : FilesOnly w (step w).2)
    (hnext : ∀ a w', step w = (.ok a, w') → FilesOnly w' (next a w').2) :
    FilesOnly w ((step >>= next) w).2 := by
  rcases hstep : step w with ⟨f | a, w'⟩ <;> rw [hstep] at h
  · rw [Attempt.bind_error hstep]
    exact h
  · rw [Attempt.bind_ok hstep]
    exact h.trans (hnext a w' hstep)

theorem FilesOnly.during (h : FilesOnly w (step w).2) (stage : Stage) :
    FilesOnly w (World.during stage step w).2 := by
  rcases hstep : step w with ⟨f | a, w'⟩ <;> rw [hstep] at h
  · rwa [during_error hstep]
  · rwa [during_ok hstep]

/-! ## Steps that do the same -/

/-- The step does the same without the places. -/
def Overlooks (taken : List Place) (step : Attempt World α) (w : World) : Prop :=
  step (w.without taken) = ((step w).1, (step w).2.without taken)

namespace Overlooks

theorem eq_without {result : Except Failure α} (h : Overlooks taken step w) (hstep : step w = (result, w')) :
    step (w.without taken) = (result, w'.without taken) := by
  rw [h, hstep]

theorem bind (h : Overlooks taken step w)
    (hnext : ∀ a w', step w = (.ok a, w') → Overlooks taken (next a) w') :
    Overlooks taken (step >>= next) w := by
  rw [Overlooks]
  rcases hstep : step w with ⟨f | a, w'⟩
  · rw [Attempt.bind_error hstep, Attempt.bind_error (h.eq_without hstep)]
  · rw [Attempt.bind_ok hstep, Attempt.bind_ok (h.eq_without hstep)]
    exact hnext a w' hstep

theorem during (h : Overlooks taken step w) (stage : Stage) :
    Overlooks taken (World.during stage step) w := by
  rw [Overlooks]
  rcases hstep : step w with ⟨f | a, w'⟩
  · rw [during_error hstep, during_error (h.eq_without hstep)]
  · rw [during_ok hstep, during_ok (h.eq_without hstep)]

end Overlooks

end World

namespace Project

open World (FilesOnly Overlooks)

variable {w w' : World} {taken : List Place} {i : Invoker} {c : Checker} {p : Project} {path s : Text}
  {q place : Place}

/-- None of the places has the name of a source. -/
def Unnamed (taken : List Place) : Prop :=
  ∀ q ∈ taken, (Path.splitName (q.getLast?.getD [])).2 ≠ some sourceExtension

instance (taken : List Place) : Decidable (Unnamed taken) :=
  inferInstanceAs (Decidable (∀ q ∈ taken, (Path.splitName (q.getLast?.getD [])).2 ≠ some sourceExtension))

theorem Unnamed.sourceName_not_mem (h : Unnamed taken) (place : Place) (k : Nat) :
    place ++ [sourceName k] ∉ taken := by
  intro hmem
  have hname : sourceName k = ("skiff-" ++ Text.ofNat k : Text) ++ '.' :: sourceExtension := rfl
  refine h _ hmem ?_
  rw [List.getLast?_concat, Option.getD_some, hname, Path.splitName_append (by simp) (by decide)]

/-- A new source file gets the same name. -/
theorem Unnamed.freshName (h : Unnamed taken) (d : Disk) (place : Place) :
    (d.without taken).freshName place "skiff-" ".swift" = d.freshName place "skiff-" ".swift" := by
  obtain ⟨k, hname, hfree, hleast⟩ := d.exists_freshName place
  obtain ⟨l, hname', hfree', hleast'⟩ := (d.without taken).exists_freshName place
  have hentry : ∀ m, Disk.entry? (d.without taken) (place ++ [sourceName m]) =
      d.entry? (place ++ [sourceName m]) := fun m => Disk.entry?_without (h.sourceName_not_mem place m)
  have hle := hleast l ((hentry l).symm.trans hfree')
  have hge := hleast' k ((hentry k).trans hfree)
  rw [hname, hname', Nat.le_antisymm hge hle]

/-- The translator overlooks the places: it answers the same without them if its source file can be
found without them, and it changes nothing but files. -/
structure Overlooking (i : Invoker) (taken : List Place) : Prop where
  compile : ∀ path w, w.Clear taken path →
    Overlooks taken (i.translator.compile (Invoker.arguments path)) w
  files : ∀ path w, FilesOnly w (i.translator.compile (Invoker.arguments path) w).2

theorem Overlooking.rehearsed {r : Translator.Rehearsal} (h : i.translator = Translator.rehearsed r)
    (taken : List Place) : Overlooking i taken where
  compile path w hclear := by
    rw [h, Overlooks]
    simp only [Translator.rehearsed, Invoker.arguments, List.getLast?_cons_cons, List.getLast?_singleton,
      hclear.readText]
    cases w.readText path <;> rfl
  files path w := by
    rw [h]
    simp only [Translator.rehearsed, Invoker.arguments, List.getLast?_cons_cons, List.getLast?_singleton]
    cases w.readText path with
    | error fault => exact .refl w
    | ok source => exact ⟨rfl, fun _ => rfl, id⟩

/-! ## Translating one file -/

theorem persist_files (i : Invoker) (s : Text) (w : World) : FilesOnly w (i.persist s w).2 := by
  cases hroom : w.room i.directory with
  | error fault =>
      rw [Invoker.persist_of_error hroom]
      exact .refl w
  | ok room =>
      rw [Invoker.persist_of_room hroom]
      obtain ⟨k, hfresh, hnone, -⟩ := w.disk.exists_freshName room
      rw [hfresh]
      exact .putFile (by simp) (by rw [Disk.way?, hnone]) _ _

theorem persist_overlooks (hroom : w.Clear taken (Path.join (World.placeText w.here) i.directory))
    (hunnamed : Unnamed taken) (s : Text) : Overlooks taken (i.persist s) w := by
  rw [Overlooks]
  cases hat : w.room i.directory with
  | error fault =>
      rw [Invoker.persist_of_error hat, Invoker.persist_of_error (hroom.room.trans hat)]
  | ok room =>
      rw [Invoker.persist_of_room hat, Invoker.persist_of_room (hroom.room.trans hat),
        World.disk_without, hunnamed.freshName, World.putFile_without]
      · rfl
      · obtain ⟨k, hfresh, -⟩ := w.disk.exists_freshName room
        rw [hfresh]
        exact hunnamed.sourceName_not_mem room k

/-- The path of a new source file comes by none of the places. -/
theorem clear_of_persist (hroom : w.Clear taken (Path.join (World.placeText w.here) i.directory))
    (hunnamed : Unnamed taken) (hroot : [] ∉ taken) (hpersist : i.persist s w = (.ok path, w')) :
    w'.Clear taken path := by
  have hsame := (persist_overlooks hroom hunnamed s).eq_without hpersist
  obtain ⟨room, hat⟩ := Invoker.room_of_persist hsame
  obtain ⟨k, hnew⟩ := Invoker.exists_sourceFile hat hsame
  have hfile := hnew.entry?_eq (room ++ [sourceName k])
  rw [if_pos rfl] at hfile
  rw [← World.clear_without, hnew.path]
  intro q hq
  rcases hnew.base.looked_join (sourceName_ne k (by decide)) (sourceName_ne k (by decide))
    (not_slash_sourceName k) (not_zero_sourceName k) (by simp [hfile]) hq with hentry | rfl
  · intro hmem
    refine hentry (Disk.entry?_without_of_mem hmem ?_)
    rintro rfl
    exact hroot hmem
  · exact hunnamed.sourceName_not_mem room k

theorem Overlooking.invoke_files (h : Overlooking i taken) (s : Text) (w : World) :
    FilesOnly w (i.translate s w).2 := by
  refine (persist_files i _ w).bind fun path w₁ _ => (h.files path w₁).bind fun response w₂ _ => ?_
  cases Translator.unwrap response <;> exact .refl w₂

theorem Overlooking.invoke (h : Overlooking i taken)
    (hroom : w.Clear taken (Path.join (World.placeText w.here) i.directory)) (hunnamed : Unnamed taken)
    (hroot : [] ∉ taken) (s : Text) : Overlooks taken (i.translate s) w := by
  refine (persist_overlooks hroom hunnamed _).bind fun path w₁ hpersist => ?_
  have hclear := clear_of_persist hroom hunnamed hroot hpersist
  refine (h.compile path w₁ hclear).bind fun response w₂ _ => ?_
  cases Translator.unwrap response <;> rfl

theorem Overlooking.translate_files (h : Overlooking c.invoker taken) (r : Checker.Request)
    (moduleName : Option Text) (source : Text) (w : World) :
    FilesOnly w (c.translate r moduleName source w).2 :=
  ((h.invoke_files _ w).during .translate).bind fun _ w₁ _ => .refl w₁

theorem Overlooking.translate (h : Overlooking c.invoker taken)
    (hroom : w.Clear taken (Path.join (World.placeText w.here) c.invoker.directory))
    (hunnamed : Unnamed taken) (hroot : [] ∉ taken) (r : Checker.Request) (moduleName : Option Text)
    (source : Text) : Overlooks taken (c.translate r moduleName source) w :=
  ((h.invoke hroom hunnamed hroot _).during .translate).bind fun _ _ _ => rfl

end Project

end Crosscheck
