import Crosscheck.Proofs.Checker.Persistence
/-!
# The source that is reported and the one that is translated

A translation reports the source as it was put together: the prelude, the preamble and the snippet. What is
handed to the translator went through two more stages, which resolve conditional blocks and exchange the import
guard. The two texts are the same just if neither stage has anything to do.
-/

namespace Crosscheck

/-- There is nothing to exchange, or nothing else to put in its place. -/
def ImportGuard.Idle (g : ImportGuard) (s : Text) : Prop :=
  g.source = g.target ∨ Text.occursIn g.source s = false

theorem ImportGuard.apply_eq_self_iff {g : ImportGuard} {s : Text} : g.apply s = s ↔ g.Idle s :=
  Text.replaceAll_eq_self_iff

namespace Resolver

variable {r : Resolver} {s : Text}

/-- A text with a block in it gets shorter. -/
theorem TakesBlocks.length_resolve_lt (hr : r.TakesBlocks) (h : r.pass? s ≠ none) :
    (r.resolve s).length < s.length := by
  obtain ⟨t, ht⟩ := Option.ne_none_iff_exists'.mp h
  have hless := (hr.pass?_deletes ht).2
  have hsettle : r.resolve s = r.settle s.length t := by rw [resolve, settle, ht]
  have hbound : t.length < 11 * (s.length + 1) := by omega
  obtain ⟨n, -, -, -, hsub⟩ := hr.settle_spec hbound
  have hle := hsub.length_le
  rw [hsettle]
  omega

end Resolver

/-- A translator that gives back what it gets. -/
theorem Translator.compile_echo {path source : Text} {w : World} (h : w.readText path = .ok source) :
    (Translator.rehearsed .echo).compile (Invoker.arguments path) w =
      (.ok (some (Translator.answer source)),
        { w with calls := w.calls ++ [⟨Invoker.arguments path, source⟩] }) := by
  simp only [Translator.rehearsed, Invoker.arguments, List.getLast?_cons_cons, List.getLast?_singleton, h]
  rfl

namespace Checker

variable {translator : Translator} {directory : Text} {config : Config} {c : Checker} {r : Request}
  {site : Site} {w w' : World} {x : Inline} {source answer : Text}

/-- The translator answers a call for a new source file with this content, which it can read if the name of
the file is not too long. -/
def Hands (c : Checker) (content : Text) (w w' : World) : Prop :=
  ∃ path w₁ response, c.invoker.persist content w = (.ok path, w₁) ∧
    c.invoker.translator.compile (Invoker.arguments path) w₁ = (.ok response, w') ∧
    (∀ s, w₁.readText path = .ok s → s = content) ∧
    (w.disk.entries.length < sourceNames → w₁.readText path = .ok content)

theorem hands_of_translate (h : c.invoker.translate (c.resolver.resolve source) w = (.ok answer, w')) :
    c.Hands (c.rewritten source) w w' := by
  obtain ⟨path, w₁, hpersist, hrest⟩ := Attempt.exists_of_bind_ok h
  obtain ⟨response, w₂, hcompile, hunwrap⟩ := Attempt.exists_of_bind_ok hrest
  have hsame : w₂ = w' := by
    cases hresponse : Translator.unwrap response with
    | error f =>
        rw [hresponse] at hunwrap
        cases hunwrap
    | ok t =>
        rw [hresponse] at hunwrap
        cases hunwrap
        rfl
  exact ⟨path, w₁, response, hpersist, hsame ▸ hcompile, Invoker.readText_of_persist hpersist⟩

theorem exists_of_inline_ok (h : c.inline r site w = (.ok x, w')) :
    ∃ answer, c.invoker.translate (c.resolver.resolve x.source) w = (.ok answer, w') := by
  obtain ⟨snippet, w₁, hlocate, hrest⟩ := Attempt.exists_of_bind_ok h
  obtain ⟨-, rfl⟩ := Prod.mk.inj (World.eq_ok_of_during hlocate)
  obtain ⟨translated, w₂, hrun, hreturn⟩ := Attempt.exists_of_bind_ok hrest
  obtain ⟨answer, w₃, htranslate, hcompose⟩ := Attempt.exists_of_bind_ok hrun
  cases hreturn
  cases hcompose
  exact ⟨answer, World.eq_ok_of_during htranslate⟩

/-- Without a block, the guard alone can change a source. -/
theorem rewritten_eq_self_iff_of_pass? (h : c.resolver.pass? source = none) :
    c.rewritten source = source ↔ c.invoker.importGuard.Idle source := by
  rw [rewritten, Resolver.resolve_of_pass?_eq_none h, ImportGuard.apply_eq_self_iff]

/-- A guard that is not replaced by something longer does not make up for a block. -/
theorem rewritten_eq_self_iff (hr : c.resolver.TakesBlocks)
    (hguard : c.invoker.importGuard.target.length ≤ c.invoker.importGuard.source.length) :
    c.rewritten source = source ↔
      c.resolver.pass? source = none ∧ c.invoker.importGuard.Idle source := by
  by_cases hpass : c.resolver.pass? source = none
  · rw [rewritten_eq_self_iff_of_pass? hpass]
    exact (and_iff_right hpass).symm
  · refine iff_of_false (fun hsame => ?_) fun h => hpass h.1
    have hless := hr.length_resolve_lt hpass
    have hle := Text.length_replaceAll_le hguard (c.resolver.resolve source)
    have hlength : (Text.replaceAll c.invoker.importGuard.source c.invoker.importGuard.target
      (c.resolver.resolve source)).length = source.length := congrArg List.length hsame
    omega

/-- What a successful translation of a snippet has handed over is the source that it reports, rewritten. A
source without blocks is handed over as it is just if the guard has nothing to do; one with blocks is not, if
each tag is a pattern of its own and the guard is not replaced by something longer. -/
theorem source_handed_iff (hc : ofConfig translator directory config = .ok c)
    (hrun : c.inline r site w = (.ok x, w')) :
    c.Hands (c.rewritten x.source) w w' ∧
      (c.resolver.pass? x.source = none →
        (c.rewritten x.source = x.source ↔ config.importGuard.Idle x.source)) ∧
      ((config.tags.mapM Tag.pattern?).isSome →
        config.importGuard.target.length ≤ config.importGuard.source.length →
        (c.rewritten x.source = x.source ↔
          c.resolver.pass? x.source = none ∧ config.importGuard.Idle x.source)) := by
  obtain ⟨hresolver, -, hinvoker⟩ := ofConfig_ok hc
  obtain ⟨answer, htranslate⟩ := exists_of_inline_ok hrun
  have hguard : c.invoker.importGuard = config.importGuard := congrArg Invoker.importGuard hinvoker
  rw [← hguard]
  refine ⟨hands_of_translate htranslate, rewritten_eq_self_iff_of_pass?, fun htags => ?_⟩
  exact rewritten_eq_self_iff (Resolver.takesBlocks_of_ofTags htags hresolver).1

/-! ## Files with one snippet, and a translator that gives back what it gets -/

private def echoing : Translator := .rehearsed .echo

private theorem exists_inline (config : Config) (code : Text) {resolver : Resolver} {snippet : Snippet}
    (hresolver : Resolver.ofTags config.tags config.branch = .ok resolver)
    (hlocate : Snippet.locate code "/A.swift" 1 config.sentinel none = .ok snippet) :
    ∃ c x w', ofConfig echoing "/tmp" config = .ok c ∧ c.resolver = resolver ∧
      c.inline .plain ⟨"/A.swift", 1, none⟩ (snippetWorld code) = (.ok x, w') ∧
      x.source = (snippet.fragment.withLeadingLines config.prelude).text ∧
      w'.calls.map (·.source) = [c.rewritten x.source] := by
  let c : Checker := ⟨config, resolver, ⟨echoing, config.importGuard, "/tmp"⟩, .builtIn config.patch⟩
  let source := (snippet.fragment.withLeadingLines config.prelude).text
  have hroom : (snippetWorld code).room "/tmp" = .ok ["tmp".toList] :=
    World.room_eq_ok.mpr ⟨locate_snippetWorld code, rfl⟩
  obtain ⟨path, w₁, hpersist⟩ := Invoker.exists_persist (i := c.invoker) (locate_snippetWorld code) rfl
    (c.rewritten source)
  obtain ⟨k, hfile⟩ := Invoker.exists_sourceFile hroom hpersist
  have hzero : k ≤ 0 := hfile.least 0 rfl
  have hcontent := hfile.readText (isName_sourceName (Nat.lt_of_le_of_lt hzero (by decide)))
  have hcompile : c.invoker.translator.compile (Invoker.arguments path) w₁ = _ :=
    Translator.compile_echo hcontent
  have hcalls : w₁.calls = [] := by
    rw [hfile.world]
    rfl
  obtain ⟨w', htranslate, hhanded⟩ : ∃ w', c.invoker.translate (c.resolver.resolve source)
      (snippetWorld code) = (.ok (c.rewritten source), w') ∧
        w'.calls.map (·.source) = [c.rewritten source] := by
    refine ⟨{ w₁ with calls := w₁.calls ++ [⟨Invoker.arguments path, c.rewritten source⟩] }, ?_, by
      simp [hcalls]⟩
    exact (Attempt.bind_ok hpersist).trans (Attempt.bind_ok hcompile)
  have hlocated : c.Located ⟨"/A.swift", 1, none⟩ ⟨snippetWorld code, none⟩ snippet :=
    located_of_readText (readText_snippetWorld code) hlocate
  have htranslated : c.Translated .plain ⟨"/A.swift", 1, none⟩ ⟨snippetWorld code, none⟩ _ w' :=
    ⟨snippet, _, hlocated, htranslate, rfl⟩
  exact ⟨c, _, w', by rw [ofConfig, hresolver], rfl, inline_of_translated htranslated, rfl, hhanded⟩

private def bare : Config := { Config.default with prelude := [] }

private def keptCode : Text := "call\n#if os(iOS)\nx\n#endif\n\x7d verify: \x7b"

/-- A block that none of the tags recognizes is handed over as it is. -/
theorem source_handed_iff_kept : ∃ c x w', ofConfig echoing "/tmp" bare = .ok c ∧
    c.inline .plain ⟨"/A.swift", 1, none⟩ (snippetWorld keptCode) = (.ok x, w') ∧
    x.source = "#if os(iOS)\nx\n#endif".toList ∧
    c.Hands "#if os(iOS)\nx\n#endif" (snippetWorld keptCode) w' := by
  have hpasses : (Resolver.ofTags bare.tags bare.branch).toOption.map
      (·.pass? "#if os(iOS)\nx\n#endif") = some none := by decide +kernel
  obtain ⟨resolver, hresolver, hpass⟩ := Resolver.exists_of_toOption hpasses
  obtain ⟨c, x, w', hc, rfl, hrun, hsource, -⟩ := exists_inline bare keptCode hresolver rfl
  have hsource : x.source = "#if os(iOS)\nx\n#endif".toList := hsource.trans (by decide)
  obtain ⟨hhands, -, hsame⟩ := source_handed_iff hc hrun
  rw [hsource] at hhands hsame
  have hidle : bare.importGuard.Idle "#if os(iOS)\nx\n#endif" := .inr (by decide)
  rw [(hsame (by decide +kernel) (by decide)).mpr ⟨hpass, hidle⟩] at hhands
  exact ⟨c, x, w', hc, hrun, hsource, hhands⟩

private def blockCode : Text := "call\n#if KOTLIN\nx\n#endif\n\x7d verify: \x7b"

/-- Of a block, only the branch is handed over. -/
theorem block_reported_not_handed : ∃ c x w', ofConfig echoing "/tmp" bare = .ok c ∧
    c.inline .plain ⟨"/A.swift", 1, none⟩ (snippetWorld blockCode) = (.ok x, w') ∧
    x.source = "#if KOTLIN\nx\n#endif".toList ∧ w'.calls.map (·.source) = ["x".toList] := by
  have hresolved : (Resolver.ofTags bare.tags bare.branch).toOption.map
      (·.resolve "#if KOTLIN\nx\n#endif") = some "x".toList := by decide +kernel
  obtain ⟨resolver, hresolver, hresolve⟩ := Resolver.exists_of_toOption hresolved
  obtain ⟨c, x, w', hc, rfl, hrun, hsource, hcalls⟩ := exists_inline bare blockCode hresolver rfl
  have hsource : x.source = "#if KOTLIN\nx\n#endif".toList := hsource.trans (by decide)
  obtain ⟨-, -, hinvoker⟩ := ofConfig_ok hc
  have hguard : bare.importGuard.apply "x" = "x".toList := by decide
  rw [rewritten, hsource, hinvoker, hresolve, hguard] at hcalls
  exact ⟨c, x, w', hc, hrun, hsource, hcalls⟩

end Checker

end Crosscheck
