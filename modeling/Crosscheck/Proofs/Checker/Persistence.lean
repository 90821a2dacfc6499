import Crosscheck.Proofs.Checker.FailClosed
import Crosscheck.Proofs.Conditional.LastLine
import Crosscheck.Proofs.Project.Rehearsed
import Crosscheck.Proofs.Snippet.Ending
/-!
# The last line that a translator sees

The lines of a fragment go to the translator behind the lines of the prelude, with conditional blocks
resolved and the import guard exchanged. The return taken off the last line of the fragment is then
off the last line of the source file as well, unless one of these steps works on that line itself.
-/

namespace Crosscheck

theorem Text.endsIn_joinLines (ls : List Text) (line : Text) :
    EndsIn line (joinLines (ls ++ [line])) := by
  by_cases hls : ls = []
  · exact .inl (by rw [hls]; rfl)
  · exact .inr ⟨_, joinLines_append_singleton hls line⟩

namespace Invoker

/-- The arguments name a new source file with this text, which is all that is new in the world. The translator
can read it if the name of the file is not too long. -/
def Persists (text : Text) (arguments : List Text) (w w₁ : World) : Prop :=
  ∃ path place, arguments = Invoker.arguments path ∧
    w₁ = { w with disk := w.disk.put place (.file (Utf8.encode text) false) } ∧
    (∀ t, w₁.readText path = .ok t → t = text) ∧
    (w.disk.entries.length < sourceNames → w₁.readText path = .ok text)

/-- A text that is put into a source file is what is read there. -/
theorem readText_of_persist {i : Invoker} {s path : Text} {w w₁ : World}
    (h : i.persist s w = (.ok path, w₁)) : (∀ t, w₁.readText path = .ok t → t = s) ∧
      (w.disk.entries.length < sourceNames → w₁.readText path = .ok s) := by
  obtain ⟨room, hroom⟩ := room_of_persist h
  obtain ⟨k, hfile⟩ := exists_sourceFile hroom h
  constructor
  · intro t hread
    have hcontent := hfile.readText (hfile.isName hread)
    exact Except.ok.inj (hread.symm.trans hcontent)
  · intro hsize
    obtain ⟨-, free, hcard, hfree⟩ := Project.hasRoom_of_length_le (n := 1) hroom hsize
    obtain ⟨l, hl⟩ := Finset.card_pos.mp hcard
    have hleast := hfile.least l (hfree l hl).2
    exact hfile.readText (isName_sourceName (Nat.lt_of_le_of_lt hleast (hfree l hl).1))

theorem persists_of_persist {i : Invoker} {s path : Text} {w w₁ : World}
    (h : i.persist s w = (.ok path, w₁)) : Persists s (arguments path) w w₁ := by
  obtain ⟨room, hroom⟩ := room_of_persist h
  obtain ⟨k, hfile⟩ := exists_sourceFile hroom h
  exact ⟨path, _, rfl, hfile.world, readText_of_persist h⟩

end Invoker

namespace Checker

variable {translator : Translator} {directory : Text} {config : Config} {c : Checker} {r : Request}
  {site : Site} {w w₁ : World} {snippet : Snippet} {path code line bare last : Text} {arguments : List Text}

/-- What becomes of a source before it is handed over. -/
def rewritten (c : Checker) (source : Text) : Text :=
  c.invoker.importGuard.apply (c.resolver.resolve source)

/-- The same checker with another translator. -/
def withTranslator (c : Checker) (t : Translator) : Checker :=
  { c with invoker := { c.invoker with translator := t } }

/-- The translation of a snippet comes to the translator with these arguments, in the world `w₁`: whatever
translator there is, if it fails there, then so does the translation, and with its failure. -/
def Reaches (c : Checker) (r : Request) (site : Site) (w : World) (arguments : List Text) (w₁ : World) :
    Prop :=
  ∀ (t : Translator) (f : Failure) (w' : World), t.compile arguments w₁ = (.error f, w') →
    (c.withTranslator t).inline r site w = (.error (f.during .translate), w')

/-! ## Coming to the translator -/

theorem reaches_of_persist (hlocated : c.Located site ⟨w, none⟩ snippet)
    (hpersist : c.invoker.persist (c.rewritten (c.prepared snippet).text) w = (.ok path, w₁)) :
    c.Reaches r site w (Invoker.arguments path) w₁ := by
  intro t f w' hfails
  have htranslate : (c.withTranslator t).invoker.translate
      (c.resolver.resolve (c.prepared snippet).text) w = (.error f, w') :=
    (Attempt.bind_ok hpersist).trans (Attempt.bind_error hfails)
  exact inline_of_untranslated (c := c.withTranslator t) (s := ⟨w, none⟩) hlocated htranslate

/-- Without a source file for a snippet, the translation fails and leaves everything as it was, whatever
translator there is. -/
theorem persists_or_fails (c : Checker) (r : Request) (site : Site) (w : World) :
    (∃ snippet path w₁, c.Located site ⟨w, none⟩ snippet ∧
      c.invoker.persist (c.rewritten (c.prepared snippet).text) w = (.ok path, w₁)) ∨
    ∀ t, ∃ f, (c.withTranslator t).inline r site w = (.error f, w) := by
  cases hlocate : w.locate site.path site.line c.config.sentinel site.preamble with
  | error f =>
      exact .inr fun t => ⟨_, inline_of_unlocated (c := c.withTranslator t) (s := ⟨w, none⟩) hlocate⟩
  | ok snippet =>
      rcases c.invoker.persist_cases (c.rewritten (c.prepared snippet).text) w with
        ⟨path, disk, hpersist⟩ | ⟨text, hpersist⟩
      · exact .inl ⟨snippet, path, _, hlocate, hpersist⟩
      · refine .inr fun t => ⟨Failure.during .translate (.io text), ?_⟩
        have htranslate : (c.withTranslator t).invoker.translate
            (c.resolver.resolve (c.prepared snippet).text) w = (.error (.io text), w) :=
          Attempt.bind_error hpersist
        exact inline_of_untranslated (c := c.withTranslator t) (s := ⟨w, none⟩) hlocate htranslate

/-- A world that differs from `w`. -/
private def marked (w : World) : World := { w with output := 0 :: w.output }

private theorem marked_ne (w : World) : marked w ≠ w := fun h =>
  List.cons_ne_self _ _ (congrArg World.output h)

/-- The translator is reached at one place only. -/
theorem Reaches.unique {arguments' : List Text} {w₁' : World} (h : c.Reaches r site w arguments w₁)
    (h' : c.Reaches r site w arguments' w₁') : arguments = arguments' ∧ w₁ = w₁' := by
  classical
  by_contra hne
  -- a translator that leaves a mark at one of the places and none at the other
  let probe : Translator := ⟨"probe", fun args v =>
    (.error (.io []), if args = arguments ∧ v = w₁ then marked w else w)⟩
  have hhere := h probe (.io []) (marked w) (by simp only [probe, and_self, if_true])
  have hthere := h' probe (.io []) w (by
    simp only [probe]
    rw [if_neg fun hsame => hne ⟨hsame.1.symm, hsame.2.symm⟩])
  exact marked_ne w (congrArg Prod.snd (hhere.symm.trans hthere))

/-- The translator is reached with the source file for the snippet that is located, and in no other way. -/
theorem reaches_iff : c.Reaches r site w arguments w₁ ↔ ∃ snippet path,
    c.Located site ⟨w, none⟩ snippet ∧
      c.invoker.persist (c.rewritten (c.prepared snippet).text) w = (.ok path, w₁) ∧
      arguments = Invoker.arguments path := by
  constructor
  · intro hreach
    rcases c.persists_or_fails r site w with ⟨snippet, path, w₂, hlocated, hpersist⟩ | hfails
    · obtain ⟨rfl, rfl⟩ := hreach.unique (reaches_of_persist hlocated hpersist)
      exact ⟨snippet, path, hlocated, hpersist, rfl⟩
    · obtain ⟨f, hkept⟩ := hfails ⟨"marking", fun _ _ => (.error (.io []), marked w)⟩
      have hmarked := hreach ⟨"marking", fun _ _ => (.error (.io []), marked w)⟩ (.io []) (marked w) rfl
      exact absurd (congrArg Prod.snd (hmarked.symm.trans hkept)) (marked_ne w)
  · rintro ⟨snippet, path, hlocated, hpersist, rfl⟩
    exact reaches_of_persist hlocated hpersist

theorem ofConfig_ok (h : ofConfig translator directory config = .ok c) :
    Resolver.ofTags config.tags config.branch = .ok c.resolver ∧ c.config = config ∧
      c.invoker = ⟨translator, config.importGuard, directory⟩ := by
  rw [ofConfig] at h
  split at h
  · cases h
  · next resolver hresolver =>
    cases h
    exact ⟨hresolver, rfl, rfl⟩

/-- The source ends with the last line of the snippet. -/
theorem endsIn_prepared {startLine : Nat} {sentinel : Text} {preamble : Option (Nat × Nat)}
    (hline : Snippet.LastLine code startLine sentinel preamble line bare last)
    (hlocate : Snippet.locate code path startLine sentinel preamble = .ok snippet) (c : Checker) :
    Text.EndsIn last (c.prepared snippet).text := by
  obtain ⟨before, hbefore⟩ := hline.lines_of_locate hlocate
  have hjoin := Text.endsIn_joinLines (c.config.prelude ++ before) last
  rwa [List.append_assoc, ← hbefore] at hjoin

/-- The last of the lines taken from the file, without markers and without a return at its front, is the last
line of the source file for the translator, if it is not blank and neither a block nor the import guard takes
in a part of it or the line break before it. It begins with a return only if there was a second one behind the
one taken off. -/
theorem persisted_last_line (hc : ofConfig translator directory config = .ok c)
    (hreach : c.Reaches r site w arguments w₁) (hread : w.readText site.path = .ok code)
    (hlocate : Snippet.locate code site.path site.line config.sentinel site.preamble = .ok snippet)
    (hline : Snippet.LastLine code site.line config.sentinel site.preamble line bare last)
    (hfilled : Text.isBlankText last = false)
    (hblocks : ¬ c.resolver.TakesLast (c.prepared snippet).text)
    (hguard : ∀ u v, c.resolver.resolve (c.prepared snippet).text =
      u ++ config.importGuard.source ++ v → '\n' ∈ v) :
    ∃ text, Invoker.Persists text arguments w w₁ ∧ Text.EndsIn last text ∧
      Engine.lastExpression text = Text.trim last ∧
      (Snippet.returnLead <+: Engine.lastExpression text ↔
        ∃ value, Text.trim bare = Snippet.returnLead ++ value ∧
          Snippet.returnLead <+: Text.trim value) := by
  obtain ⟨-, hconfig, hinvoker⟩ := ofConfig_ok hc
  have hlocated : c.Located site ⟨w, none⟩ snippet := by
    rw [Located, World.locate, hread, hconfig]
    exact hlocate
  obtain ⟨snippet', path, hlocated', hpersist, rfl⟩ := reaches_iff.mp hreach
  obtain rfl := Except.ok.inj (hlocated.symm.trans hlocated')
  have hresolved := Resolver.endsIn_resolve hline.single hblocks (endsIn_prepared hline hlocate c)
  have hpersisted : Text.EndsIn last (c.rewritten (c.prepared snippet).text) := by
    rw [rewritten, hinvoker]
    exact Text.endsIn_replaceAll hline.single hguard _ hresolved
  have hlast := Text.lastExpression_of_endsIn hline.single hfilled hpersisted
  refine ⟨_, Invoker.persists_of_persist hpersist, hpersisted, hlast, ?_⟩
  rw [hlast]
  exact hline.returns_iff

/-! ## Files with one snippet -/

/-- A file with this text, and a directory for source files. -/
def snippetWorld (code : Text) : World where
  disk := ⟨[(["A.swift".toList], .file (Utf8.encode code) false), (["tmp".toList], .directory)]⟩
  here := []
  environment := []
  output := []
  calls := []

theorem readText_snippetWorld (code : Text) : (snippetWorld code).readText "/A.swift" = .ok code :=
  (World.leads_root _).readText_join (by decide : Path.IsName "A.swift") rfl

theorem locate_snippetWorld (code : Text) :
    (snippetWorld code).disk.locate [] "/tmp" = .ok ["tmp".toList] :=
  (World.leads_root _).locate_join (by decide : Path.IsName "tmp") nofun

private def silent : Translator := ⟨"none", fun _ => return none⟩

private def firstLine : Site := ⟨"/A.swift", 1, none⟩

private theorem exists_reaches (config : Config) {resolver : Resolver}
    (hresolver : Resolver.ofTags config.tags config.branch = .ok resolver)
    (hlocate : Snippet.locate code "/A.swift" 1 config.sentinel none = .ok snippet) :
    ∃ c arguments w₁, ofConfig silent "/tmp" config = .ok c ∧
      c.Reaches .plain firstLine (snippetWorld code) arguments w₁ ∧
      Invoker.Persists (config.importGuard.apply (resolver.resolve
        (snippet.fragment.withLeadingLines config.prelude).text)) arguments (snippetWorld code) w₁ := by
  let c : Checker := ⟨config, resolver, ⟨silent, config.importGuard, "/tmp"⟩, .builtIn config.patch⟩
  obtain ⟨path, w₁, hpersist⟩ := Invoker.exists_persist (i := c.invoker) (locate_snippetWorld code) rfl
    (c.rewritten (c.prepared snippet).text)
  have hlocated : c.Located firstLine ⟨snippetWorld code, none⟩ snippet :=
    located_of_readText (readText_snippetWorld code) hlocate
  exact ⟨c, _, w₁, by rw [ofConfig, hresolver], reaches_of_persist hlocated hpersist,
    Invoker.persists_of_persist hpersist⟩

private def sumCode : Text := "call\n#if SKIP\nlet a = 1\n#endif\n  return a + 2 \n\x7d verify: \x7b"

private theorem lastLine_sumCode :
    Snippet.LastLine sumCode 1 Config.default.sentinel none "  return a + 2 " "  return a + 2 "
      "a + 2" where
  taken := by
    have hlines : Text.splitLines sumCode = ["call".toList, "#if SKIP".toList, "let a = 1".toList,
      "#endif".toList, "  return a + 2 ".toList, "\x7d verify: \x7b".toList] := by decide
    rw [hlines]
    exact ⟨5, [], _, by decide, by decide, rfl, rfl, rfl⟩
  unmarked := .clear (by decide)
  unreturned := .inl (by decide)

theorem persisted_last_line_sum : ∃ c arguments w₁ text, ofConfig silent "/tmp" .default = .ok c ∧
    c.Reaches .plain firstLine (snippetWorld sumCode) arguments w₁ ∧
    Invoker.Persists text arguments (snippetWorld sumCode) w₁ ∧
    Engine.lastExpression text = "a + 2".toList := by
  obtain ⟨resolver, hresolver⟩ :=
    (Resolver.recognizes_of_ofTags .primary Tag.spells_default (by decide)).1 (by decide)
  obtain ⟨snippet, hlocate⟩ : ∃ snippet, Snippet.locate sumCode "/A.swift" 1
      Config.default.sentinel none = .ok snippet := ⟨_, rfl⟩
  obtain ⟨c, arguments, w₁, hc, hreach, -⟩ := exists_reaches .default hresolver hlocate
  have hopen : ¬ Block.Closes "a + 2" := by
    rintro ⟨indent, rest, hrest⟩
    have hmem : '#' ∈ "a + 2".toList := by simp [← hrest]
    exact absurd hmem (by decide)
  have hended := endsIn_prepared lastLine_sumCode hlocate c
  obtain ⟨tag, htag⟩ := Resolver.pattern_of_ofTags (by decide +kernel) (ofConfig_ok hc).1
  have hblocks := Resolver.not_takesLast htag lastLine_sumCode.single hopen hended
  have hresolved := Resolver.endsIn_resolve lastLine_sumCode.single hblocks hended
  obtain ⟨text, hpersists, -, hlast, -⟩ := persisted_last_line hc hreach (readText_snippetWorld _) hlocate
    lastLine_sumCode (by decide) hblocks fun u v h =>
      Text.newline_mem_of_part (by decide) (by decide) hresolved h
  exact ⟨c, arguments, w₁, text, hc, hreach, hpersists, hlast⟩

private def plain : Config := { Config.default with prelude := [] }

/-- Settings and a file in which a return is left: on a line of the prelude, before a blank line, twice
on one line, in the branch of a block, by the import guard, by a tag that is no pattern in its own right,
and by one that ends in a comment. -/
private def leftover : List (Config × Text) := [
  ({ plain with prelude := ["return 1"] }, "call\n\x7d verify: \x7b"),
  (plain, "call\nreturn 6\n\n\x7d verify: \x7b"),
  (plain, "call\nreturn return 6\n\x7d verify: \x7b"),
  (plain, "call\nlet a\n#if SKIP\nreturn 6\n#endif\n\x7d verify: \x7b"),
  ({ plain with importGuard := ⟨"when", "return"⟩ }, "call\nwhen 6\n\x7d verify: \x7b"),
  ({ plain with importGuard := ⟨[], "return "⟩ }, "call\n6\n\x7d verify: \x7b"),
  ({ plain with importGuard := ⟨"a\n", "return "⟩ }, "call\na\n6\n\x7d verify: \x7b"),
  ({ plain with tags := [.pattern "Q))|x |(?:(?:"] }, "call\nx return 6\n\x7d verify: \x7b"),
  ({ plain with tags := [.pattern "(?x)a#", .pattern "[\n))|(?:(?:]"] },
    "call\n#if a return 6\n\x7d verify: \x7b")]

/-- The last line of the source file for the snippet behind the first line of a file begins with a return. -/
private def ReturnLeft (config : Config) (code : Text) : Prop :=
  ∃ c arguments w₁ text, ofConfig silent "/tmp" config = .ok c ∧
    c.Reaches .plain firstLine (snippetWorld code) arguments w₁ ∧
    Invoker.Persists text arguments (snippetWorld code) w₁ ∧
    Snippet.returnLead <+: Engine.lastExpression text

/-- The same as something that can be computed. -/
private def leaves (config : Config) (code : Text) : Bool :=
  match Resolver.ofTags config.tags config.branch,
    Snippet.locate code "/A.swift" 1 config.sentinel none with
  | .ok resolver, .ok snippet => Snippet.returnLead.isPrefixOf (Engine.lastExpression
      (config.importGuard.apply
        (resolver.resolve (snippet.fragment.withLeadingLines config.prelude).text)))
  | _, _ => false

private theorem returnLeft_of_leaves {config : Config} {code : Text} (h : leaves config code) :
    ReturnLeft config code := by
  rw [leaves] at h
  split at h
  · next resolver snippet hresolver hlocate =>
    obtain ⟨c, arguments, w₁, hc, hreach, hpersists⟩ := exists_reaches config hresolver hlocate
    exact ⟨c, arguments, w₁, _, hc, hreach, hpersists, List.isPrefixOf_iff_prefix.mp h⟩
  · cases h

/-- Not every last line is free of a return. -/
theorem persisted_return_left : leftover.Forall fun file => ReturnLeft file.1 file.2 := by
  have hleaves : ∀ file ∈ leftover, leaves file.1 file.2 := by decide +kernel
  apply List.forall_iff_forall_mem.mpr
  intro file hfile
  exact returnLeft_of_leaves (hleaves file hfile)

end Checker

end Crosscheck
