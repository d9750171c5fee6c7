import Stencil.Cli.Run
import Stencil.Proofs.Ceiling
import Stencil.Proofs.Partials

/-!
# Commands that agree

Checking a template file, describing its text and rendering it reach the engine in different ways: a
check and a rendering ask it for the template, perhaps from the cache, while a description parses
the text and compiles the nodes. Main statement: all three find the file valid, or all three find
the same parse error, and a check of many files reports on each as if it were alone
(`commands_agree`).
-/

namespace Stencil

/-- A template accepts at its top the keys that it reads, however blocks inside treat theirs. -/
theorem Block.accepted_ofNodes (mode : KeyValidation) (nodes : List Node) :
    (Block.ofNodes mode ∅ ∅ nodes).accepted = Node.listKeys nodes := by
  refine KeySet.ext fun k => ?_
  cases mode <;> simp [Block.accepted, Block.ofNodes, Block.acceptedKeys]

namespace Cli

/-! ## Verdicts on sources -/

/-- The engine makes of the source, in every session, a template that reads and accepts the keys. -/
def Compilable (e : Engine) (source : String) (keys : KeySet) : Prop :=
  ∀ s, ∃ t, (e.build source s).1 = .ok t ∧ t.keys = keys ∧ t.block.accepted = keys

/-- The parser of the engine refuses the source, in every session. -/
def Unparsable (e : Engine) (source : String) (cause : Node.ParseError) : Prop :=
  ∀ s, (e.build source s).1 = .error (.parse cause)

/-- A source is one or the other. -/
theorem compilable_or_unparsable (e : Engine) (source : String) :
    (∃ keys, Compilable e source keys) ∨ ∃ cause, Unparsable e source cause := by
  cases hparse : e.parse source with
  | error err =>
    obtain ⟨cause, rfl⟩ := Engine.error_of_parse hparse
    refine Or.inr ⟨cause, fun s => ?_⟩
    rw [Engine.build, hparse]
  | ok nodes =>
    refine Or.inl ⟨Node.listKeys nodes, fun s => ?_⟩
    rw [Engine.build, hparse]
    simp only [Engine.compileNodes, Engine.compile_eq_of_parse hparse]
    exact ⟨_, rfl, rfl, Block.accepted_ofNodes _ nodes⟩

/-- A description of a source is one of the template that the source is compiled to. -/
theorem describe_cases (e : Engine) (source : String) (withNodes : Bool) (s : Session) :
    (∃ t rest, (e.build source s).1 = .ok t ∧ (describe e source withNodes s).1 =
      .ok ("keys: " ++ ", ".intercalate t.keys.toList ++ "\nrequires data: " ++ rest)) ∨
    ∃ err, (e.build source s).1 = .error err ∧
      (describe e source withNodes s).1 = .error err := by
  cases hparse : e.parse source with
  | error err =>
    right
    simp only [describe, Engine.build, hparse]
    exact ⟨err, rfl, rfl⟩
  | ok nodes =>
    simp only [describe, Engine.build, hparse]
    generalize e.compileNodes nodes source s = compiled
    obtain ⟨result, s'⟩ := compiled
    cases result with
    | error err => exact Or.inr ⟨err, rfl, rfl⟩
    | ok t =>
      let tree := if withNodes then Node.write nodes ++ "\n" else ""
      refine Or.inl ⟨t, truthName t.requiresData ++ "\nnesting depth: " ++
        Node.decimal (Node.listDepth nodes) ++ "\n" ++ tree, rfl, ?_⟩
      cases withNodes <;> simp [tree, String.append_assoc]

/-- What is outside of the keys that a template accepts at its top is refused first of all. -/
theorem render_of_firstOutside {t : Template} {d : Data} {k : String}
    (h : FirstOutside t.block.accepted d k) : t.render d = .error (.unexpectedKey k) := by
  have hcheck := (check_keys_eq_unexpectedKey_iff _ _ _).2 h
  rw [Template.render, Block.run]
  cases hblock : t.block with
  | mk accepted steps =>
    rw [hblock] at hcheck
    rw [Block.render, Scope.validate_eq_check]
    show (accepted.check d.keys >>= fun _ => _) = _
    rw [show accepted.check d.keys = .error (.unexpectedKey k) from hcheck]
    rfl

/-! ## Verdicts on files -/

/-- The result is one of rendering the template file, so it has been compiled. -/
def PastCompilation (path : String) (result : Except Failure String) : Prop :=
  (∃ text, result = .ok text) ∨ ∃ err, result = .error (.renderTemplate path err)

/-- The commands find a template file valid, and that it reads and accepts the keys. -/
structure Valid (files : Files) (e : Engine) (sources : List String) (path source : String)
    (keys : KeySet) : Prop where
  /-- A check counts the keys. -/
  check : ∀ s, e.Reaches sources s → (checkFile files e path s).1.result = .ok keys.size
  /-- A description lists the keys. -/
  describe : ∀ withNodes s, ∃ rest, (describe e source withNodes s).1 =
    .ok ("keys: " ++ ", ".intercalate keys.toList ++ "\nrequires data: " ++ rest)
  /-- A rendering is one of a template of the file that accepts the keys at its top, and refuses the
  first other one, with the data that the partials are laid over to. -/
  render : ∀ ps data s, AllCompile files e ps → (∀ p ∈ ps, Covers files sources p.path) →
    e.Reaches sources s → ∃ t d, CompilesTo files e path t ∧ t.block.accepted = keys ∧
      Overlays files e data ps d ∧
      (renderFile files e path data ps s).1 = (t.render d).mapError (.renderTemplate path) ∧
      ∀ k, FirstOutside keys d k →
        (renderFile files e path data ps s).1 = .error (.renderTemplate path (.unexpectedKey k))

/-- The commands find the same parse error in a template file. -/
structure Invalid (files : Files) (e : Engine) (sources : List String) (path source : String)
    (cause : Node.ParseError) : Prop where
  check : ∀ s, e.Reaches sources s →
    (checkFile files e path s).1.result = .error (.engine (.parse cause))
  describe : ∀ withNodes s, (describe e source withNodes s).1 = .error (.parse cause)
  render : ∀ ps data s, AllCompile files e ps → (∀ p ∈ ps, Covers files sources p.path) →
    e.Reaches sources s →
    (renderFile files e path data ps s).1 = .error (.compileTemplate path (.parse cause))

section Files

variable {files : Files} {e : Engine} {sources : List String} {s : Session} {path source : String}

/-- The text of a readable file is the only one. -/
theorem covers_of_readText (hread : files.readText path = .ok source)
    (hsource : source ∈ sources) : Covers files sources path := by
  intro source' hread'
  obtain rfl := Except.ok.inj (hread.symm.trans hread')
  exact hsource

/-- What is compiled from a readable file was built from its text. -/
theorem CompilesTo.exists_build {t : Template} (h : CompilesTo files e path t)
    (hread : files.readText path = .ok source) : ∃ s, (e.build source s).1 = .ok t := by
  obtain ⟨source', s, hread', hbuild⟩ := h
  obtain rfl := Except.ok.inj (hread.symm.trans hread')
  exact ⟨s, hbuild⟩

/-- Templates of one source have the same keys, and accept them. -/
theorem Compilable.keys_eq {keys : KeySet} (h : Compilable e source keys) {t : Template}
    (hbuild : (e.build source s).1 = .ok t) : t.keys = keys ∧ t.block.accepted = keys := by
  obtain ⟨u, hu, hkeys, haccepted⟩ := h s
  obtain rfl := Except.ok.inj (hbuild.symm.trans hu)
  exact ⟨hkeys, haccepted⟩

/-- A file whose text is compiled is found valid. -/
theorem Compilable.valid {keys : KeySet} (h : Compilable e source keys)
    (hapart : e.KeepsApart sources) (hread : files.readText path = .ok source)
    (hsource : source ∈ sources) : Valid files e sources path source keys := by
  have hpath := covers_of_readText hread hsource
  obtain ⟨u, hbuild, _⟩ := h {}
  have hu : CompilesTo files e path u := ⟨source, {}, hread, hbuild⟩
  refine ⟨fun s hs => ?_, fun withNodes s => ?_, fun ps data s hps hcovers hs => ?_⟩
  · obtain ⟨t, s', hcompile, ht, _⟩ := hu.compileFile_eq hs hapart hpath fun _ => .engine
    obtain ⟨s₁, hbuild⟩ := ht.exists_build hread
    rw [checkFile, hcompile, ← (h.keys_eq hbuild).1]
    rfl
  · obtain ⟨t, hbuild, hkeys, _⟩ := h s
    rcases describe_cases e source withNodes s with ⟨t', rest, hbuild', htext⟩ | ⟨err, herr, _⟩
    · obtain rfl := Except.ok.inj (hbuild.symm.trans hbuild')
      exact ⟨rest, hkeys ▸ htext⟩
    · rw [hbuild] at herr
      cases herr
  · obtain ⟨d, s', hrender, hreaches, hoverlays⟩ :=
      exists_renderFile_eq hps hs hapart hcovers path data
    obtain ⟨t, s₁, hcompile, ht, _⟩ := hu.compileFile_eq hreaches hapart hpath .compileTemplate
    obtain ⟨s₂, hbuild⟩ := ht.exists_build hread
    have haccepted := (h.keys_eq hbuild).2
    have hresult : (renderFile files e path data ps s).1 =
        (t.render d).mapError (.renderTemplate path) := by
      rw [hrender]
      simp only [renderFile, addPartials, hcompile]
    refine ⟨t, d, ht, haccepted, hoverlays, hresult, fun k hk => ?_⟩
    rw [hresult, render_of_firstOutside (haccepted ▸ hk)]
    rfl

/-- A file whose text is not parsed is found invalid. -/
theorem Unparsable.invalid {cause : Node.ParseError} (h : Unparsable e source cause)
    (hapart : e.KeepsApart sources) (hread : files.readText path = .ok source)
    (hsource : source ∈ sources) : Invalid files e sources path source cause := by
  have hpath := covers_of_readText hread hsource
  have hfails (failure : String → Error → Failure) :
      Fails files e path failure (failure path (.parse cause)) := .broken hread (h {})
  refine ⟨fun s hs => ?_, fun withNodes s => ?_, fun ps data s hps hcovers hs => ?_⟩
  · obtain ⟨s', hcompile, _⟩ := (hfails fun _ => .engine).compileFile_eq hs hapart hpath
    rw [checkFile, hcompile]
    rfl
  · rcases describe_cases e source withNodes s with ⟨t, _, hbuild, _⟩ | ⟨err, herr, htext⟩
    · rw [h s] at hbuild
      cases hbuild
    · rw [h s] at herr
      cases herr
      exact htext
  · obtain ⟨d, s', hrender, hreaches, _⟩ :=
      exists_renderFile_eq hps hs hapart hcovers path data
    obtain ⟨s₁, hcompile, _⟩ := (hfails .compileTemplate).compileFile_eq hreaches hapart hpath
    rw [hrender]
    simp only [renderFile, addPartials, hcompile]

end Files

/-! ## Lists of files -/

section Lists

variable {files : Files} {e : Engine} {sources : List String} {s : Session}

/-- A report does not depend on what the engine was asked for before. -/
theorem checkFile_eq_uncached (h : e.Reaches sources s) (hapart : e.KeepsApart sources)
    {path : String} (hpath : Covers files sources path) (s' : Session) :
    (checkFile files e path s).1 = (checkFile files e.uncached path s').1 ∧
      e.Reaches sources (checkFile files e path s).2 := by
  obtain ⟨result, s₁, hcompile, hcompiled, hreaches⟩ :=
    compiled_compileFile h hapart hpath fun _ => .engine
  have huncached := compiled_compileFile_uncached files e path (fun _ => .engine) s'
  unfold checkFile
  rw [hcompile]
  generalize compileFile files e.uncached path (fun _ => .engine) s' = outcome at huncached
  obtain ⟨result', s₁'⟩ := outcome
  refine ⟨?_, hreaches⟩
  rcases hcompiled.alike huncached with ⟨t, u, rfl, rfl, hagrees⟩ | ⟨f, rfl, rfl⟩
  · simp only [Except.map, hagrees.keys]
  · rfl

/-- **Files are reported on one by one.** The reports on some files are those on each of them. -/
theorem checkFiles_eq_map (h : e.Reaches sources s) (hapart : e.KeepsApart sources)
    {paths : List String} (hpaths : ∀ path ∈ paths, Covers files sources path) (s' : Session) :
    (checkFiles files e paths s).1 =
      paths.map fun path => (checkFile files e.uncached path s').1 := by
  -- each file is checked in the session that the files before it lead to
  induction paths generalizing s with
  | nil => rfl
  | cons path paths ih =>
    obtain ⟨hpath, hpaths⟩ := List.forall_mem_cons.1 hpaths
    obtain ⟨hreport, hreaches⟩ := checkFile_eq_uncached h hapart hpath s'
    rw [List.map_cons, ← hreport, ← ih hreaches hpaths]
    rfl

end Lists

/-! ## The main statement -/

section Agreement

variable {files : Files} {e : Engine} {sources : List String} {path source : String}

/-- What checking, describing and rendering make of a readable template file, each whatever the
engine was asked for before. -/
structure CommandsAgree (files : Files) (e : Engine) (sources : List String)
    (path source : String) : Prop where
  /-- A check passes exactly if there is a description. -/
  describes : ∀ withNodes s s', e.Reaches sources s →
    ((∃ n, (checkFile files e path s).1.result = .ok n) ↔
      ∃ text, (describe e source withNodes s').1 = .ok text)
  /-- A check passes exactly if a rendering, with partials that compile, gets past compilation. -/
  renders : ∀ ps data s s', AllCompile files e ps → (∀ p ∈ ps, Covers files sources p.path) →
    e.Reaches sources s → e.Reaches sources s' →
    ((∃ n, (checkFile files e path s).1.result = .ok n) ↔
      PastCompilation path (renderFile files e path data ps s').1)
  /-- All three know the same keys, or the same parse error. -/
  verdict : (∃ keys, Valid files e sources path source keys) ∨
    ∃ cause, Invalid files e sources path source cause

/-- Commands that find the file valid agree. -/
theorem Valid.commandsAgree {keys : KeySet} (h : Valid files e sources path source keys) :
    CommandsAgree files e sources path source where
  describes := by
    intro withNodes s s' hs
    obtain ⟨rest, htext⟩ := h.describe withNodes s'
    exact iff_of_true ⟨_, h.check s hs⟩ ⟨_, htext⟩
  renders := by
    intro ps data s s' hps hcovers hs hs'
    obtain ⟨t, d, _, _, _, hresult, _⟩ := h.render ps data s' hps hcovers hs'
    refine iff_of_true ⟨_, h.check s hs⟩ ?_
    rw [hresult]
    cases t.render d with
    | ok text => exact Or.inl ⟨text, rfl⟩
    | error err => exact Or.inr ⟨err, rfl⟩
  verdict := Or.inl ⟨keys, h⟩

/-- Commands that find the file invalid agree. -/
theorem Invalid.commandsAgree {cause : Node.ParseError}
    (h : Invalid files e sources path source cause) :
    CommandsAgree files e sources path source where
  describes := by
    intro withNodes s s' hs
    rw [h.check s hs, h.describe withNodes s']
    refine iff_of_false ?_ ?_
    · rintro ⟨n, hn⟩
      cases hn
    · rintro ⟨text, htext⟩
      cases htext
  renders := by
    intro ps data s s' hps hcovers hs hs'
    rw [h.check s hs, h.render ps data s' hps hcovers hs']
    refine iff_of_false ?_ ?_
    · rintro ⟨n, hn⟩
      cases hn
    · rintro (⟨text, htext⟩ | ⟨err, herr⟩)
      · cases htext
      · cases herr
  verdict := Or.inr ⟨cause, h⟩

/-- **Check, inspect and render agree.** An engine, with a cache or without, is asked for some
sources, and no two of them are hashed to one digest. Whatever it was asked for before, checking,
describing and rendering a template file find it valid with the same keys, or refuse it with the
same parse error. A check of many files reports on each of them as an engine without a cache does
on that file alone, and it fails exactly if one of the reports does. -/
theorem commands_agree (files : Files) (hapart : e.KeepsApart sources) :
    (∀ path source, files.readText path = .ok source → source ∈ sources →
      CommandsAgree files e sources path source) ∧
    ∀ paths s, (∀ path ∈ paths, Covers files sources path) → e.Reaches sources s →
      (∀ s', (checkFiles files e paths s).1 =
        paths.map fun path => (checkFile files e.uncached path s').1) ∧
      ((Command.run files e s (.check paths)).failure.isSome = true ↔
        ∃ r ∈ (checkFiles files e paths s).1, r.isOk = false) := by
  constructor
  · intro path source hread hsource
    rcases compilable_or_unparsable e source with ⟨keys, hkeys⟩ | ⟨cause, hcause⟩
    · exact (hkeys.valid hapart hread hsource).commandsAgree
    · exact (hcause.invalid hapart hread hsource).commandsAgree
  · intro paths s hpaths hs
    exact ⟨checkFiles_eq_map hs hapart hpaths, isSome_failureOf_iff _⟩

end Agreement

/-! ## A valid and an invalid file -/

namespace Letter

open Stencil.TwoEngines (html before)

/-- A check of the template file without a cache. -/
theorem checkFile_page : (checkFile files html.uncached "t" {}).1 = ⟨"t", .ok 1⟩ := by
  have hcreate : html.uncached.createTemplate "@\x7bv\x7d" {} = _ :=
    TwoEngines.build_source (e := html.uncached) rfl rfl {}
  simp only [checkFile, compileFile, readTemplate, readText_page, hcreate, Except.mapError]
  rfl

/-- The file that holds nothing but the end of a conditional is refused at its start. -/
theorem checkFile_bad : (checkFile files html.uncached "b" {}).1 =
    ⟨"b", .error (.engine (.parse
      (.ofOffset (.danglingEnd .conditional none) "@endif".toList 0)))⟩ := by
  have hscan : Node.scan "@endif".toList = [.directive (.close .conditional)] := by
    decide +kernel
  have hparse : html.uncached.parse "@endif" =
      .error (.parse (.ofOffset (.danglingEnd .conditional none) "@endif".toList 0)) := by
    unfold Engine.parse Node.parse Node.parseChars
    rw [hscan]
    rfl
  have hcreate : html.uncached.createTemplate "@endif" {} = html.uncached.build "@endif" {} := rfl
  simp only [checkFile, compileFile, readTemplate, readText_bad, hcreate, Engine.build, hparse,
    Except.mapError]
  rfl

/-- A valid file that is checked twice, with an invalid one in between. -/
theorem commands_agree_page_bad :
    html.KeepsApart sources ∧ CommandsAgree files html sources "t" "@\x7bv\x7d" ∧
      CommandsAgree files html sources "b" "@endif" ∧
      (checkFiles files html ["t", "b", "t"] before).1 =
        [⟨"t", .ok 1⟩, ⟨"b", .error (.engine (.parse
          (.ofOffset (.danglingEnd .conditional none) "@endif".toList 0)))⟩, ⟨"t", .ok 1⟩] ∧
      (Command.run files html before (.check ["t", "b", "t"])).failure.isSome = true := by
  obtain ⟨hagree, hlists⟩ := commands_agree files keepsApart
  obtain ⟨hreports, hfailure⟩ := hlists ["t", "b", "t"] before
    (fun path hpath => covers (by revert path; decide)) reaches_before
  have hchecked := hreports {}
  simp only [List.map_cons, List.map_nil, checkFile_page, checkFile_bad] at hchecked
  refine ⟨keepsApart, hagree _ _ readText_page (by decide), hagree _ _ readText_bad (by decide),
    hchecked, ?_⟩
  rw [hfailure, hchecked]
  exact ⟨_, List.mem_cons_of_mem _ List.mem_cons_self, rfl⟩

end Letter

end Cli

end Stencil
