import Crosscheck.Proofs.Project.Surroundings
import Crosscheck.Proofs.Text.Digits
import Crosscheck.Proofs.Text.Utf8
import Crosscheck.Translator.Rehearsed
import Mathlib.Data.Finset.Card
/-!
# Rehearsed translators in a project

A rehearsed translator answers by the text of its source file and changes nothing on the disk, so it does
what a project relies on, as long as the directory for source files is outside the project and there are
names left in it.
-/

namespace Crosscheck

namespace Utf8

variable {s : Text}

theorem length_encode_of_ascii (h : ∀ c ∈ s, c.toNat < 0x80) : (encode s).length = s.length := by
  induction s with
  | nil => rfl
  | cons c s ih =>
      rw [List.forall_mem_cons] at h
      have hchar : (encodeChar c).length = 1 := by
        simp only [encodeChar, if_pos h.1, List.length_singleton]
      rw [encode, List.flatMap_cons, List.length_append, hchar, ← encode, ih h.2, List.length_cons,
        Nat.add_comm]

end Utf8

/-! ## The names of source files -/

/-- The name of a source file for a translator. -/
def sourceName (k : Nat) : Text := "skiff-" ++ Text.ofNat k ++ ".swift"

theorem sourceName_injective : Function.Injective sourceName := by
  intro k l h
  have hdigits := List.append_cancel_left (List.append_cancel_right h)
  rw [← Text.natOfDigits_ofNat k, hdigits, Text.natOfDigits_ofNat]

/-- So many names are short enough for a directory. -/
def sourceNames : Nat := 10 ^ 200

private theorem sourceName_chars (k : Nat) :
    ∀ c ∈ sourceName k, c.toNat < 0x80 ∧ c ≠ '/' ∧ c ≠ '\x00' := by
  have hlead : ∀ c ∈ "skiff-".toList, c.toNat < 0x80 ∧ c ≠ '/' ∧ c ≠ '\x00' := by simp
  have htail : ∀ c ∈ ".swift".toList, c.toNat < 0x80 ∧ c ≠ '/' ∧ c ≠ '\x00' := by simp
  have hdigit : ∀ c ∈ Text.ofNat k, c.toNat < 0x80 ∧ c ≠ '/' ∧ c ≠ '\x00' := by
    intro c hc
    have hrange : 48 ≤ c.toNat ∧ c.toNat ≤ 57 := by
      simpa [Text.isAsciiDigit] using Text.isAsciiDigit_of_mem_ofNat hc
    refine ⟨by omega, ?_, ?_⟩
    · rintro rfl
      exact absurd hrange (by decide)
    · rintro rfl
      exact absurd hrange (by decide)
  intro c hc
  rcases List.mem_append.mp hc with hc | hc
  · exact (List.mem_append.mp hc).elim (hlead c) (hdigit c)
  · exact htail c hc

theorem length_sourceName (k : Nat) : (sourceName k).length = (Text.ofNat k).length + 12 := by
  have hlead : "skiff-".toList.length = 6 := rfl
  have htail : ".swift".toList.length = 6 := rfl
  unfold sourceName
  rw [List.length_append, List.length_append, hlead, htail]
  omega

theorem sourceName_ne (k : Nat) {s : Text} (hs : s.length ≤ 2) : sourceName k ≠ s := by
  rintro rfl
  have hlength := length_sourceName k
  omega

theorem not_slash_sourceName (k : Nat) : '/' ∉ sourceName k := fun hmem =>
  (sourceName_chars k _ hmem).2.1 rfl

theorem not_zero_sourceName (k : Nat) : '\x00' ∉ sourceName k := fun hmem =>
  (sourceName_chars k _ hmem).2.2 rfl

theorem isName_sourceName {k : Nat} (h : k < sourceNames) : Path.IsName (sourceName k) := by
  have hdigits : (Text.ofNat k).length ≤ 200 :=
    (Nat.length_toDigits_le_iff (by decide) (by decide)).mpr h
  refine ⟨sourceName_ne k (by decide), sourceName_ne k (by decide), sourceName_ne k (by decide),
    not_slash_sourceName k, not_zero_sourceName k, ?_⟩
  rw [Utf8.length_encode_of_ascii fun c hc => (sourceName_chars k c hc).1, length_sourceName]
  omega

/-! ## New names in a directory -/

namespace Disk

variable {d : Disk} {place : Place}

/-- No more names are taken than there are entries. -/
theorem card_taken_le (d : Disk) (place : Place) (n : Nat) :
    ((Finset.range n).filter fun k => d.entry? (place ++ [sourceName k]) ≠ none).card ≤
      d.entries.length := by
  have hplaces : d.places.toFinset.card ≤ d.entries.length :=
    (List.toFinset_card_le _).trans (by simp [places])
  refine le_trans (Finset.card_le_card_of_injOn (fun k => place ++ [sourceName k]) ?_ ?_) hplaces
  · intro k hk
    have hentry : d.entry? (place ++ [sourceName k]) ≠ none := (Finset.mem_filter.mp hk).2
    rw [entry?_of_ne_nil (by simp)] at hentry
    by_contra hnot
    exact hentry (lookup_eq_none fun hmem => hnot (List.mem_toFinset.mpr hmem))
  · intro k _ l _ heq
    exact sourceName_injective (List.cons.inj (List.append_cancel_left heq)).1

theorem freshName_of_find {lead tail : Text} {k : Nat}
    (h : ((List.range (d.entries.length + 1)).find? fun n =>
      (d.entry? (place ++ [lead ++ Text.ofNat n ++ tail])).isNone) = some k) :
    d.freshName place lead tail = lead ++ Text.ofNat k ++ tail := by
  simp only [freshName, h]

/-- A new file takes the least of the names that are left. -/
theorem exists_freshName (d : Disk) (place : Place) :
    ∃ k, d.freshName place "skiff-" ".swift" = sourceName k ∧ d.entry? (place ++ [sourceName k]) = none ∧
      ∀ l, d.entry? (place ++ [sourceName l]) = none → k ≤ l := by
  have hfree : ∃ k ∈ List.range (d.entries.length + 1), (d.entry? (place ++ [sourceName k])).isNone := by
    by_contra hnone
    have hall : (Finset.range (d.entries.length + 1)).filter (fun k =>
        d.entry? (place ++ [sourceName k]) ≠ none) = Finset.range (d.entries.length + 1) :=
      Finset.filter_true_of_mem fun k hk hentry =>
        hnone ⟨k, List.mem_range.mpr (Finset.mem_range.mp hk), by rw [hentry]; rfl⟩
    have hcard := d.card_taken_le place (d.entries.length + 1)
    rw [hall, Finset.card_range] at hcard
    omega
  obtain ⟨k, hk⟩ := Option.isSome_iff_exists.mp (List.find?_isSome.mpr hfree)
  obtain ⟨hnone, -, hleast⟩ := List.find?_range_eq_some.mp hk
  refine ⟨k, ?_, Option.isNone_iff_eq_none.mp hnone, fun l hl => ?_⟩
  · exact freshName_of_find hk
  · by_contra hlt
    simpa [hl] using hleast l (by omega)

end Disk

/-! ## New source files -/

namespace Invoker

variable {i : Invoker} {s s' path : Text} {w w₁ : World} {room : Place} {k : Nat}

/-- What there is to know of a source file that has just been made: it has the least number that is left in
the directory, and the path leads there. -/
structure SourceFile (i : Invoker) (s path : Text) (w w₁ : World) (room : Place) (k : Nat) : Prop where
  path : path = Path.join (Path.join (World.placeText w.here) i.directory) (sourceName k)
  world : w₁ = w.putFile (room ++ [sourceName k]) (Utf8.encode s) false
  free : w.disk.entry? (room ++ [sourceName k]) = none
  least : ∀ l, w.disk.entry? (room ++ [sourceName l]) = none → k ≤ l
  base : w₁.Leads (Path.join (World.placeText w.here) i.directory) room

theorem room_of_persist (h : i.persist s w = (.ok path, w₁)) : ∃ room, w.room i.directory = .ok room := by
  cases hroom : w.room i.directory with
  | error fault =>
      rw [persist_of_error hroom] at h
      cases h
  | ok room => exact ⟨room, rfl⟩

theorem exists_sourceFile (hroom : w.room i.directory = .ok room) (h : i.persist s w = (.ok path, w₁)) :
    ∃ k, i.SourceFile s path w w₁ room k := by
  rw [persist_of_room hroom] at h
  cases h
  obtain ⟨k, hfresh, hnone, hleast⟩ := w.disk.exists_freshName room
  obtain ⟨hlocate, hdirectory⟩ := World.room_eq_ok.mp hroom
  rw [hfresh]
  exact ⟨k, rfl, rfl, hnone, hleast, World.Leads.putFile ⟨.inr hlocate, hdirectory⟩ (by simp)
    (by simp [hnone]) (by simp [hnone]) _ _⟩

namespace SourceFile

theorem entry?_eq (h : i.SourceFile s path w w₁ room k) (q : Place) : w₁.disk.entry? q =
    if q = room ++ [sourceName k] then some (.file (Utf8.encode s) false) else w.disk.entry? q := by
  rw [h.world]
  exact World.entry?_putFile (by simp) ..

theorem readText (h : i.SourceFile s path w w₁ room k) (hname : Path.IsName (sourceName k)) :
    w₁.readText path = .ok s := by
  have hentry := h.entry?_eq (room ++ [sourceName k])
  rw [if_pos rfl] at hentry
  rw [h.path]
  exact h.base.readText_join hname hentry

/-- A source file that can be read has a name that is not too long. -/
theorem isName (h : i.SourceFile s path w w₁ room k) (hread : w₁.readText path = .ok s') :
    Path.IsName (sourceName k) := by
  cases hlocate : w₁.disk.locate w₁.here path with
  | error fault => simp [World.readText, Disk.readText, Disk.read, Disk.entryAt, hlocate] at hread
  | ok q =>
      cases hentry : w₁.disk.entry? q with
      | none => simp [World.readText, Disk.readText, Disk.read, Disk.entryAt, hlocate, hentry] at hread
      | some e =>
          rw [h.path] at hlocate
          exact h.base.isName_of_locate_join (not_slash_sourceName k) (not_zero_sourceName k)
            (sourceName_ne k (by decide)) (sourceName_ne k (by decide)) (sourceName_ne k (by decide)) hlocate
            hentry

end SourceFile

end Invoker

/-! ## What a project relies on -/

namespace Project

variable {i : Invoker} {p : Project} {top room : Place} {r : Translator.Rehearsal} {w : World} {n : Nat}

/-- Everything but the source files for the translator. -/
def AllBut (room q : Place) : Prop := ∀ k, q ≠ room ++ [sourceName k]

/-- The directory for source files is at `room`, and it has `n` names left. -/
def HasRoom (i : Invoker) (room : Place) (n : Nat) (w : World) : Prop :=
  w.room i.directory = .ok room ∧ ∃ free : Finset Nat, n ≤ free.card ∧
    ∀ k ∈ free, k < sourceNames ∧ w.disk.entry? (room ++ [sourceName k]) = none

/-- There is room on every disk that is not unimaginably large. -/
theorem hasRoom_of_length_le (hroom : w.room i.directory = .ok room)
    (h : w.disk.entries.length + n ≤ sourceNames) : HasRoom i room n w := by
  refine ⟨hroom, (Finset.range sourceNames).filter fun k =>
    w.disk.entry? (room ++ [sourceName k]) = none, ?_, fun k hk => ?_⟩
  · have htaken := w.disk.card_taken_le room sourceNames
    have hsum := Finset.card_filter_add_card_filter_not (s := Finset.range sourceNames)
      fun k => w.disk.entry? (room ++ [sourceName k]) = none
    rw [Finset.card_range] at hsum
    simp only [ne_eq] at htaken
    omega
  · rw [Finset.mem_filter, Finset.mem_range] at hk
    exact hk

theorem sourceName_ne_folderOf (k : Nat) (isTest : Bool) : sourceName k ≠ folderOf isTest := by
  intro h
  have hhead : some 's' = (folderOf isTest).head? := congrArg List.head? h
  revert hhead
  cases isTest <;> decide

theorem not_inside_room (hroom : ¬ Inside top room) (k : Nat) : ¬ Inside top (room ++ [sourceName k]) := by
  rintro ⟨isTest, rest, heq⟩
  induction rest using List.reverseRecOn with
  | nil =>
      obtain ⟨-, hname⟩ := List.append_inj' heq rfl
      exact sourceName_ne_folderOf k isTest (List.cons.inj hname).1
  | append_singleton rest name _ =>
      rw [← List.cons_append, ← List.append_assoc] at heq
      exact hroom ⟨isTest, rest, (List.append_inj' heq rfl).1⟩

/-- What a new source file changes. -/
structure NewSource (i : Invoker) (p : Project) (top room : Place) (s path : Text) (w w₁ : World) (k : Nat) :
    Prop where
  path : path = Path.join (Path.join (World.placeText w.here) i.directory) (sourceName k)
  world : w₁ = w.putFile (room ++ [sourceName k]) (Utf8.encode s) false
  free : w.disk.entry? (room ++ [sourceName k]) = none
  least : ∀ l, w.disk.entry? (room ++ [sourceName l]) = none → k ≤ l
  stays : w₁.room i.directory = .ok room
  base : w₁.Leads (Path.join (World.placeText w.here) i.directory) room
  root : w₁.Leads p.root top

theorem exists_newSource {s path : Text} {w₁ : World} (hat : w.room i.directory = .ok room)
    (hready : Ready p top w) (hpersist : i.persist s w = (.ok path, w₁)) :
    ∃ k, NewSource i p top room s path w w₁ k := by
  obtain ⟨k, hnew⟩ := Invoker.exists_sourceFile hat hpersist
  have hold : w.disk.entry? (room ++ [sourceName k]) ≠ some .directory := by
    simp [hnew.free]
  have hlink : ∀ target, w.disk.entry? (room ++ [sourceName k]) ≠ some (.link target) := by
    simp [hnew.free]
  have hne : room ++ [sourceName k] ≠ [] := by
    simp
  have hworld := hnew.world
  subst hworld
  exact ⟨k, hnew.path, rfl, hnew.free, hnew.least, World.room_putFile hat hne hold hlink _ _, hnew.base,
    hready.root.putFile hne hold hlink _ _⟩

namespace NewSource

variable {s s' path : Text} {w₁ : World} {k : Nat}

theorem sourceFile (h : NewSource i p top room s path w w₁ k) : i.SourceFile s path w w₁ room k :=
  ⟨h.path, h.world, h.free, h.least, h.base⟩

theorem kept (h : NewSource i p top room s path w w₁ k) {q : Place} (hq : AllBut room q) :
    w₁.disk.entry? q = w.disk.entry? q :=
  (h.sourceFile.entry?_eq q).trans (if_neg (hq k))

theorem tree (h : NewSource i p top room s path w w₁ k) (htree : w.disk.IsTree)
    (hname : Path.IsName (sourceName k)) (hdirectory : w.disk.entry? room = some .directory) :
    w₁.disk.IsTree := by
  have hold : w.disk.entry? (room ++ [sourceName k]) ≠ some .directory := by
    simp [h.free]
  rw [h.world]
  exact htree.put hname hdirectory hold _ _

end NewSource

theorem allBut_of_inside (hroom : ¬ Inside top room) {q : Place} (hq : Inside top q) : AllBut room q :=
  fun k heq => not_inside_room hroom k (heq ▸ hq)

theorem room_putFile_inside (hat : w.room i.directory = .ok room) (hready : Ready p top w) {q : Place}
    (hq : Inside top q) (hold : w.disk.entry? q ≠ some .directory) (content : Bytes) (executable : Bool) :
    (w.putFile q content executable).room i.directory = .ok room := by
  have hne : q ≠ [] := by
    obtain ⟨isTest, rest, rfl⟩ := hq
    simp
  exact World.room_putFile hat hne hold (hready.not_link hq) content executable

/-- A rehearsed translator answers by the source text alone and leaves everything as it is but its source
files. -/
theorem Obliging.rehearsed (htranslator : i.translator = Translator.rehearsed r)
    (hroom : ¬ Inside top room) : Obliging i p top (AllBut room) (HasRoom i room) r.respond where
  project _ := allBut_of_inside hroom
  fewer := fun ⟨hat, free, hcard, hfree⟩ => ⟨hat, free, by omega, hfree⟩
  reorder := fun {n w d} ⟨hat, free, hcard, hfree⟩ hready hperm => by
    have hsame : Undisturbed i (AllBut room) w { w with disk := d } := .of_perm hready.tree hperm
    refine ⟨hsame.room.trans hat, free, hcard, fun k hk => ⟨(hfree k hk).1, ?_⟩⟩
    exact (hready.tree.entry?_of_perm hperm _).trans (hfree k hk).2
  write := fun {n w q} ⟨hat, free, hcard, hfree⟩ hready hq hold content executable => by
    refine ⟨room_putFile_inside hat hready hq hold content executable, free, hcard,
      fun k hk => ⟨(hfree k hk).1, ?_⟩⟩
    have hne : q ≠ [] := by
      obtain ⟨isTest, rest, rfl⟩ := hq
      simp
    rw [World.entry?_putFile hne, if_neg (allBut_of_inside hroom hq k).symm, (hfree k hk).2]
  call := fun {n s path w w₁} ⟨hat, free, hcard, hfree⟩ hready hpersist => by
    obtain ⟨k, hnew⟩ := exists_newSource hat hready hpersist
    obtain ⟨l, hl⟩ := Finset.card_pos.mp (show 0 < free.card by omega)
    have hname := isName_sourceName (Nat.lt_of_le_of_lt (hnew.least l (hfree l hl).2) (hfree l hl).1)
    have hread := hnew.sourceFile.readText hname
    refine ⟨{ w₁ with calls := w₁.calls ++ [⟨Invoker.arguments path, s⟩] }, ?_,
      ⟨hnew.stays, free.erase k, ?_, fun m hm => ?_⟩,
      hnew.tree hready.tree hname (World.room_eq_ok.mp hat).2, hnew.root, ?_, hnew.stays.trans hat.symm,
      fun q hq => hnew.kept hq⟩
    · rw [htranslator]
      simp only [Translator.rehearsed, Invoker.arguments, List.getLast?_cons_cons, List.getLast?_singleton,
        hread]
    · have herase := Finset.pred_card_le_card_erase (s := free) (a := k)
      omega
    · obtain ⟨hmk, hm⟩ := Finset.mem_erase.mp hm
      have hne : room ++ [sourceName m] ≠ room ++ [sourceName k] := fun heq =>
        hmk (sourceName_injective (List.cons.inj (List.append_cancel_left heq)).1)
      exact ⟨(hfree m hm).1, ((hnew.sourceFile.entry?_eq _).trans (if_neg hne)).trans (hfree m hm).2⟩
    · rw [hnew.world]
      rfl

end Project

end Crosscheck
