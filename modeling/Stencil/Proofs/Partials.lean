import Stencil.Proofs.CompiledFiles
import Stencil.Proofs.Interchange

/-!
# Partials as data

A template file that is rendered with partials is rendered with other data: under the name of each
partial stands the template of the last one of that name. Partials are compiled before the template
file is so much as read, so the first one that is missing or broken decides the result. Main
statement: `renderFile_partials`.
-/

namespace Stencil.Cli

/-! ## The last partial of a name -/

/-- The last of some partials that has a name. -/
def Partial.last? (partials : List Partial) (name : String) : Option Partial :=
  partials.reverse.find? fun p => p.name = name

namespace Partial

variable {ps ps' : List Partial} {name : String}

/-- Later partials come first. -/
theorem last?_append (ps ps' : List Partial) (name : String) :
    last? (ps ++ ps') name = (last? ps' name).or (last? ps name) := by
  rw [last?, List.reverse_append, List.find?_append]
  rfl

/-- The first partial counts if no other one has the name. -/
theorem last?_cons (p : Partial) (ps : List Partial) (name : String) :
    last? (p :: ps) name = (last? ps name).or (if p.name = name then some p else none) := by
  rw [← List.singleton_append, last?_append]
  simp only [last?, List.reverse_singleton, List.find?_singleton, decide_eq_true_eq]

/-- The last partial of a name is one of the partials and has the name. -/
theorem mem_of_last? {p : Partial} (h : last? ps name = some p) : p ∈ ps ∧ p.name = name := by
  refine ⟨List.mem_reverse.1 (List.mem_of_find?_eq_some h), ?_⟩
  have hname := List.find?_some h
  exact of_decide_eq_true hname

/-- A name without a last partial is the name of none. -/
theorem last?_eq_none_iff : last? ps name = none ↔ name ∉ ps.map Partial.name := by
  simp [last?, List.find?_eq_none]

/-- If all names differ, each partial is the last one of its name. -/
theorem last?_eq_some_iff (hnames : (ps.map Partial.name).Nodup) {p : Partial} :
    last? ps name = some p ↔ p ∈ ps ∧ p.name = name := by
  refine ⟨mem_of_last?, ?_⟩
  rintro ⟨hp, rfl⟩
  have hname : p.name ∈ ps.map Partial.name := List.mem_map_of_mem hp
  cases hlast : last? ps p.name with
  | none => exact absurd hname (last?_eq_none_iff.1 hlast)
  | some q =>
    obtain ⟨hq, heq⟩ := mem_of_last? hlast
    rw [List.inj_on_of_nodup_map hnames hq hp heq]

/-- Partials with different names may come in any order. -/
theorem last?_eq_of_perm (h : ps.Perm ps') (hnames : (ps.map Partial.name).Nodup) (name : String) :
    last? ps name = last? ps' name := by
  have hnames' : (ps'.map Partial.name).Nodup := (h.map Partial.name).nodup_iff.1 hnames
  refine Option.ext fun p => ?_
  rw [last?_eq_some_iff hnames, last?_eq_some_iff hnames', h.mem_iff]

/-- A partial in front of another one of its name is not the last one. -/
theorem last?_append_cons (before : List Partial) (p : Partial) {after : List Partial}
    (h : p.name ∈ after.map Partial.name) (name : String) :
    last? (before ++ p :: after) name = last? (before ++ after) name := by
  rw [last?_append, last?_append, last?_cons]
  by_cases hname : p.name = name
  · subst hname
    obtain ⟨q, hq⟩ := Option.ne_none_iff_exists'.1 fun hnone => last?_eq_none_iff.1 hnone h
    rw [hq]
    rfl
  · rw [if_neg hname, Option.or_none]

end Partial

/-! ## Data with partials -/

/-- The data `d` is `data` with the templates of some partials: under the name of a partial stands
the template of the last one of that name, and under any other key what `data` holds there. -/
structure Overlays (files : Files) (e : Engine) (data : Data) (ps : List Partial) (d : Data) :
    Prop where
  named : ∀ name p, Partial.last? ps name = some p →
    ∃ t, CompilesTo files e p.path t ∧ d.get? name = some (.template t)
  unnamed : ∀ name, Partial.last? ps name = none → d.get? name = data.get? name

/-- The file of each partial can be read and compiled. -/
def AllCompile (files : Files) (e : Engine) (ps : List Partial) : Prop :=
  ∀ p ∈ ps, ∃ t, CompilesTo files e p.path t

/-- The first of some partials whose file cannot be read or compiled, and how it fails. -/
inductive FirstFailure (files : Files) (e : Engine) : List Partial → Failure → Prop where
  | here {p : Partial} {ps : List Partial} {f : Failure}
    (h : Fails files e p.path .compilePartial f) : FirstFailure files e (p :: ps) f
  | later {p : Partial} {ps : List Partial} {f : Failure} {t : Template}
    (hp : CompilesTo files e p.path t) (h : FirstFailure files e ps f) :
    FirstFailure files e (p :: ps) f

section Overlays

variable {files : Files} {e : Engine} {sources : List String} {s : Session}

/-- Without partials the data stay as they are. -/
theorem overlays_nil (files : Files) (e : Engine) (data : Data) :
    Overlays files e data [] data where
  named := by
    intro name p h
    cases h
  unnamed := fun _ _ => rfl

/-- The first partial is inserted before the others. -/
theorem Overlays.cons {p : Partial} {ps : List Partial} {data d : Data} {t : Template}
    (ht : CompilesTo files e p.path t)
    (h : Overlays files e (data.insert p.name (.template t)) ps d) :
    Overlays files e data (p :: ps) d where
  named := by
    intro name q hq
    -- a later partial of the name overwrites the first one
    rw [Partial.last?_cons] at hq
    cases hlast : Partial.last? ps name with
    | some q' =>
      rw [hlast, Option.some_or] at hq
      obtain rfl := Option.some.inj hq
      exact h.named name _ hlast
    | none =>
      rw [hlast, Option.none_or, Option.ite_none_right_eq_some] at hq
      obtain ⟨rfl, hq⟩ := hq
      cases hq
      refine ⟨t, ht, ?_⟩
      rw [h.unnamed _ hlast, KeyMap.get?_insert, if_pos rfl]
  unnamed := by
    intro name hnone
    rw [Partial.last?_cons, Option.or_eq_none_iff] at hnone
    obtain ⟨hlast, hne⟩ := hnone
    have hname : ¬name = p.name := by
      rintro rfl
      rw [if_pos rfl] at hne
      cases hne
    rw [h.unnamed name hlast, KeyMap.get?_insert, if_neg hname]

/-- All data that some partials are laid over to are alike. -/
theorem Overlays.alike {data d d' : Data} {ps : List Partial} (h : Overlays files e data ps d)
    (h' : Overlays files e data ps d') : Data.Alike d d' := by
  intro name
  cases hname : Partial.last? ps name with
  | none =>
    rw [h.unnamed name hname, h'.unnamed name hname]
    cases data.get? name with
    | none => exact .none
    | some v => exact .some (.same v)
  | some p =>
    obtain ⟨t, ht, hd⟩ := h.named name p hname
    obtain ⟨t', ht', hd'⟩ := h'.named name p hname
    rw [hd, hd']
    exact .some (.template (ht.agrees ht'))

/-- Of the partials only the last one of each name matters, and of the data only what stands under
other keys. -/
theorem Overlays.congr {data data' d : Data} {ps ps' : List Partial}
    (h : Overlays files e data ps d)
    (hlast : ∀ name, Partial.last? ps' name = Partial.last? ps name)
    (hdata : ∀ name, Partial.last? ps name = none → data'.get? name = data.get? name) :
    Overlays files e data' ps' d where
  named := by
    intro name p hp
    exact h.named name p (hlast name ▸ hp)
  unnamed := by
    intro name hnone
    rw [hlast] at hnone
    rw [h.unnamed name hnone, hdata name hnone]

/-- Partials that compile are laid over the data. -/
theorem exists_addPartials_eq_ok {ps : List Partial} (hps : AllCompile files e ps)
    (h : e.Reaches sources s) (hapart : e.KeepsApart sources)
    (hcovers : ∀ p ∈ ps, Covers files sources p.path) (data : Data) :
    ∃ d s', addPartials files e data ps s = (.ok d, s') ∧ e.Reaches sources s' ∧
      Overlays files e data ps d := by
  -- the data and the session vary, since a partial is compiled and inserted before the next one
  induction ps generalizing data s with
  | nil => exact ⟨data, s, rfl, h, overlays_nil files e data⟩
  | cons p ps ih =>
    obtain ⟨⟨u, hu⟩, hps⟩ := List.forall_mem_cons.1 hps
    obtain ⟨hp, hcovers⟩ := List.forall_mem_cons.1 hcovers
    obtain ⟨t, s₁, hcompile, ht, hreaches⟩ := hu.compileFile_eq h hapart hp .compilePartial
    rw [addPartials, hcompile]
    obtain ⟨d, s', hadd, hreaches', hoverlays⟩ :=
      ih hps hreaches hcovers (data.insert p.name (.template t))
    exact ⟨d, s', hadd, hreaches', hoverlays.cons ht⟩

/-- The first partial that fails ends the work. -/
theorem addPartials_eq_error {ps : List Partial} {f : Failure} (hps : FirstFailure files e ps f)
    (h : e.Reaches sources s) (hapart : e.KeepsApart sources)
    (hcovers : ∀ p ∈ ps, Covers files sources p.path) (data : Data) :
    (addPartials files e data ps s).1 = .error f := by
  induction hps generalizing data s with
  | here hf =>
    obtain ⟨hp, _⟩ := List.forall_mem_cons.1 hcovers
    obtain ⟨s₁, hcompile, _⟩ := hf.compileFile_eq h hapart hp
    rw [addPartials, hcompile]
  | later hu _ ih =>
    obtain ⟨hp, hcovers⟩ := List.forall_mem_cons.1 hcovers
    obtain ⟨t, s₁, hcompile, _, hreaches⟩ := hu.compileFile_eq h hapart hp .compilePartial
    rw [addPartials, hcompile]
    exact ih hreaches hcovers _

/-- All partials compile, or there is a first one that fails. -/
theorem allCompile_or_firstFailure (files : Files) (e : Engine) (ps : List Partial) :
    AllCompile files e ps ∨ ∃ f, FirstFailure files e ps f := by
  induction ps with
  | nil =>
    left
    intro p hp
    cases hp
  | cons p ps ih =>
    rcases compilesTo_or_fails files e p.path .compilePartial with ⟨t, ht⟩ | ⟨f, hf⟩
    · rcases ih with hps | ⟨f, hf⟩
      · exact Or.inl (List.forall_mem_cons.2 ⟨⟨t, ht⟩, hps⟩)
      · exact Or.inr ⟨f, .later ht hf⟩
    · exact Or.inr ⟨f, .here hf⟩

end Overlays

/-! ## Rendering -/

section Rendering

variable {files : Files} {e : Engine} {sources : List String} {s : Session} {template : String}

/-- A template file without partials is rendered to the same on data that are alike, whatever the
engine was asked for before. -/
theorem renderFile_nil_eq (h : e.Reaches sources s) (hapart : e.KeepsApart sources)
    (htemplate : Covers files sources template) {d d' : Data} (hdata : Data.Alike d d')
    (s' : Session) :
    (renderFile files e template d [] s).1 = (renderFile files e.uncached template d' [] s').1 := by
  simp only [renderFile, addPartials]
  obtain ⟨result, s₁, hcompile, hcompiled, _⟩ :=
    compiled_compileFile h hapart htemplate .compileTemplate
  have huncached := compiled_compileFile_uncached files e template .compileTemplate s'
  rw [hcompile]
  generalize compileFile files e.uncached template .compileTemplate s' = outcome at huncached
  obtain ⟨result', s₁'⟩ := outcome
  rcases hcompiled.alike huncached with ⟨t, u, rfl, rfl, hagrees⟩ | ⟨f, rfl, rfl⟩
  · simp only [hagrees.render_eq hdata]
  · rfl

/-- Partials that compile are laid over the data, and rendering goes on without them. -/
theorem exists_renderFile_eq {ps : List Partial} (hps : AllCompile files e ps)
    (h : e.Reaches sources s) (hapart : e.KeepsApart sources)
    (hpartials : ∀ p ∈ ps, Covers files sources p.path) (template : String) (data : Data) :
    ∃ d s', renderFile files e template data ps s = renderFile files e template d [] s' ∧
      e.Reaches sources s' ∧ Overlays files e data ps d := by
  obtain ⟨d, s', hadd, hreaches, hoverlays⟩ :=
    exists_addPartials_eq_ok hps h hapart hpartials data
  refine ⟨d, s', ?_, hreaches, hoverlays⟩
  rw [renderFile, hadd]
  rfl

/-- **Partials are data.** Rendering with partials that compile is rendering with the data that they
are laid over to. -/
theorem renderFile_eq_nil {ps : List Partial} (hps : AllCompile files e ps)
    (h : e.Reaches sources s) (hapart : e.KeepsApart sources)
    (hpartials : ∀ p ∈ ps, Covers files sources p.path)
    (htemplate : Covers files sources template) {data d : Data}
    (hd : Overlays files e data ps d) (s' : Session) :
    (renderFile files e template data ps s).1 =
      (renderFile files e.uncached template d [] s').1 := by
  obtain ⟨d₁, s₁, hrender, hreaches, hoverlays⟩ :=
    exists_renderFile_eq hps h hapart hpartials template data
  rw [hrender]
  exact renderFile_nil_eq hreaches hapart htemplate (hoverlays.alike hd) s'

/-- What partials that compile come to when a template file is rendered with them. -/
structure PartialsOverlay (files : Files) (e : Engine) (sources : List String) (template : String)
    (data : Data) (ps : List Partial) (s : Session) : Prop where
  /-- The partials can be laid over the data. -/
  overlay : ∃ d, Overlays files e data ps d
  /-- The result is that of the template file with these data and no partials. -/
  rendered : ∀ d s', Overlays files e data ps d →
    (renderFile files e template data ps s).1 =
      (renderFile files e.uncached template d [] s').1
  /-- Partials with different names may come in any order. -/
  permuted : (ps.map Partial.name).Nodup → ∀ ps' s', ps.Perm ps' → e.Reaches sources s' →
    (renderFile files e template data ps s).1 = (renderFile files e template data ps' s').1
  /-- A partial in front of another one of its name may be left out. -/
  overridden : ∀ before p after s', ps = before ++ p :: after →
    p.name ∈ after.map Partial.name → e.Reaches sources s' →
    (renderFile files e template data ps s).1 =
      (renderFile files e template data (before ++ after) s').1
  /-- The data may hold anything under the names of partials. -/
  hidden : ∀ data' s', (∀ k ∉ ps.map Partial.name, data'.get? k = data.get? k) →
    e.Reaches sources s' →
    (renderFile files e template data ps s).1 = (renderFile files e template data' ps s').1

/-- Partials that compile are laid over the data, the last one of each name winning. -/
theorem partialsOverlay_of_allCompile {ps : List Partial} (hps : AllCompile files e ps)
    (h : e.Reaches sources s) (hapart : e.KeepsApart sources)
    (hpartials : ∀ p ∈ ps, Covers files sources p.path)
    (htemplate : Covers files sources template) (data : Data) :
    PartialsOverlay files e sources template data ps s := by
  obtain ⟨d, _, _, _, hd⟩ := exists_addPartials_eq_ok hps h hapart hpartials data
  -- other partials and data give the same if they can be laid over to the same data
  have hsame (ps' : List Partial) (data' : Data) (s' : Session) (hsubset : ps' ⊆ ps)
      (hd' : Overlays files e data' ps' d) (h' : e.Reaches sources s') :
      (renderFile files e template data ps s).1 =
        (renderFile files e template data' ps' s').1 := by
    have hps' : AllCompile files e ps' := fun p hp => hps p (hsubset hp)
    have hpartials' : ∀ p ∈ ps', Covers files sources p.path := fun p hp =>
      hpartials p (hsubset hp)
    rw [renderFile_eq_nil hps h hapart hpartials htemplate hd s',
      renderFile_eq_nil hps' h' hapart hpartials' htemplate hd' s']
  refine ⟨⟨d, hd⟩, fun d' s' hd' => ?_, fun hnames ps' s' hperm h' => ?_,
    fun before p after s' heq hname h' => ?_, fun data' s' hdata h' => ?_⟩
  · exact renderFile_eq_nil hps h hapart hpartials htemplate hd' s'
  · have hlast := fun name => (Partial.last?_eq_of_perm hperm hnames name).symm
    exact hsame ps' data s' hperm.symm.subset (hd.congr hlast fun _ _ => rfl) h'
  · subst heq
    have hlast := fun name => (Partial.last?_append_cons before p hname name).symm
    have hsubset : before ++ after ⊆ before ++ p :: after :=
      ((List.sublist_cons_self p after).append_left before).subset
    exact hsame (before ++ after) data s' hsubset (hd.congr hlast fun _ _ => rfl) h'
  · have hother := fun name hnone => hdata name (Partial.last?_eq_none_iff.1 hnone)
    exact hsame ps data' s' (List.Subset.refl ps) (hd.congr (fun _ => rfl) hother) h'

/-! ## The main statement -/

/-- **Partials overlay data by name, the last one winning.** An engine, with a cache or without, has
been asked for some sources before, and no two of them are hashed to one digest. If the partials
compile, a template file is rendered with them as with the data that they are laid over to: in any
order if their names differ, with or without one that a later one overrides, and whatever the data
hold under their names. If one of them does not, the first such one is blamed, whatever the template
file and the data are. -/
theorem renderFile_partials {ps : List Partial} (h : e.Reaches sources s)
    (hapart : e.KeepsApart sources) (hpartials : ∀ p ∈ ps, Covers files sources p.path) :
    (AllCompile files e ps → ∀ template data, Covers files sources template →
      PartialsOverlay files e sources template data ps s) ∧
    (¬AllCompile files e ps → ∃ f, FirstFailure files e ps f) ∧
    ∀ f, FirstFailure files e ps f →
      ∀ template data, (renderFile files e template data ps s).1 = .error f := by
  refine ⟨fun hps template data htemplate => ?_, fun hps => ?_, fun f hf template data => ?_⟩
  · exact partialsOverlay_of_allCompile hps h hapart hpartials htemplate data
  · exact (allCompile_or_firstFailure files e ps).resolve_left hps
  · have hadd := addPartials_eq_error hf h hapart hpartials data
    rw [renderFile]
    generalize addPartials files e data ps s = outcome at hadd
    obtain ⟨result, s'⟩ := outcome
    cases hadd
    rfl

end Rendering

/-! ## A partial that is overridden -/

namespace Letter

open Stencil.TwoEngines (html before)

/-- A template file with a placeholder, the same text once more, a file of fixed text and one that
is no template. -/
def files : Files :=
  ⟨[(["t"], .file "@\x7bv\x7d".toUTF8), (["o"], .file "@\x7bv\x7d".toUTF8),
    (["n"], .file "<b>".toUTF8), (["b"], .file "@endif".toUTF8)]⟩

/-- The texts of the files. -/
def sources : List String := ["@\x7bv\x7d", "<b>", "@endif"]

/-- The template of the fixed text. -/
def bold : Template := ⟨0, .mk ∅ [.text "<b>"], false, ∅, "<b>", html.escaper⟩

/-- Two partials of one name. -/
def partials : List Partial := [⟨"v", "o"⟩, ⟨"v", "n"⟩]

/-- Two partials, of which the second one is missing. -/
def broken : List Partial := [⟨"v", "n"⟩, ⟨"w", "g"⟩]

/-- A name of one letter is not split. -/
theorem splitOn_letter {name : String} (hfirst : String.Pos.Raw.atEnd name 0 = false)
    (hname : (String.Pos.Raw.get name 0 == String.Pos.Raw.get "/" 0) = false)
    (hlast : String.Pos.Raw.atEnd name (String.Pos.Raw.next name 0) = true)
    (hletter : String.Pos.Raw.extract name 0 (String.Pos.Raw.next name 0) = name) :
    name.splitOn "/" = [name] := by
  have hstart : (0 : String.Pos.Raw).unoffsetBy 0 = 0 := rfl
  rw [String.splitOn, if_neg (by decide), String.splitOnAux, hfirst, hname, String.splitOnAux,
    hstart, hlast]
  exact congrArg (fun letter => [letter]) hletter

/-- A name of one letter leads to a place in the working directory. -/
theorem locate_letter {name : String} (h : name ∈ ["t", "o", "n", "b", "g"]) :
    files.locate name = .ok [name] := by
  have horigin : Files.origin name = [] := by
    revert name
    decide +kernel
  rw [Files.locate, horigin]
  simp only [List.mem_cons, List.not_mem_nil, or_false] at h
  rcases h with rfl | rfl | rfl | rfl | rfl
  all_goals
    rw [if_neg (by decide), splitOn_letter rfl rfl rfl (by decide +kernel)]
    rfl

/-- The template file can be read. -/
theorem readText_page : files.readText "t" = .ok "@\x7bv\x7d" :=
  Files.readText_of_entryAt (locate_letter (by decide)) rfl

/-- The first partial can be read. -/
theorem readText_old : files.readText "o" = .ok "@\x7bv\x7d" :=
  Files.readText_of_entryAt (locate_letter (by decide)) rfl

/-- The second partial can be read. -/
theorem readText_new : files.readText "n" = .ok "<b>" :=
  Files.readText_of_entryAt (locate_letter (by decide)) rfl

/-- The text that is no template can be read. -/
theorem readText_bad : files.readText "b" = .ok "@endif" :=
  Files.readText_of_entryAt (locate_letter (by decide)) rfl

/-- There is no other file. -/
theorem readText_gone : files.readText "g" = .error .notFound :=
  Files.readText_of_entryAt_eq_none (locate_letter (by decide)) rfl

/-- The texts of the files are among the sources. -/
theorem covers {path : String} (h : path ∈ ["t", "o", "n", "b", "g"]) :
    Covers files sources path := by
  intro source hread
  simp only [List.mem_cons, List.not_mem_nil, or_false] at h
  rcases h with rfl | rfl | rfl | rfl | rfl
  · rw [readText_page] at hread
    cases hread
    decide
  · rw [readText_old] at hread
    cases hread
    decide
  · rw [readText_new] at hread
    cases hread
    decide
  · rw [readText_bad] at hread
    cases hread
    decide
  · rw [readText_gone] at hread
    cases hread

/-- The fixed text is compiled as it is. -/
theorem build_new : (html.build "<b>" {}).1 = .ok bold := by
  have hscan : Node.scan "<b>".toList = [.text ['<', 'b', '>']] := by decide +kernel
  have hparse : html.parse "<b>" = .ok [.literal "<b>"] := by
    unfold Engine.parse Node.parse Node.parseChars
    rw [hscan]
    rfl
  rw [Engine.build, hparse]
  rfl

/-- The second partial compiles. -/
theorem compilesTo_new : CompilesTo files html "n" bold :=
  ⟨_, {}, readText_new, build_new⟩

/-- The first partial compiles. -/
theorem compilesTo_old : CompilesTo files html "o" (TwoEngines.template html 0) :=
  ⟨_, {}, readText_old, congrArg Prod.fst (TwoEngines.build_source rfl rfl {})⟩

/-- The engine has not used its cache. -/
theorem reaches_before : html.Reaches sources before := by
  refine .start fun id hid => ?_
  cases hid
  refine ⟨_, rfl, rfl, fun source _ t ht => ?_⟩
  cases ht

/-- The texts have different digests. -/
theorem keepsApart : html.KeepsApart sources := by
  intro _
  refine collisionFree_of_nodup ?_
  simp only [sources, List.map_cons, List.map_nil, hashedBytes_eq]
  decide +kernel

/-- The second partial is inserted last. -/
theorem overlays (data : Data) : Overlays files html data partials
    ((data.insert "v" (.template (TwoEngines.template html 0))).insert "v" (.template bold)) := by
  refine .cons compilesTo_old ?_
  exact .cons compilesTo_new (overlays_nil files html _)

/-- The template file with some data is compiled and rendered. -/
theorem renderFile_page (d : Data) :
    (renderFile files html.uncached "t" d [] {}).1 =
      ((TwoEngines.template html 0).render d).mapError (.renderTemplate "t") := by
  have hcreate : html.uncached.createTemplate "@\x7bv\x7d" {} = _ :=
    TwoEngines.build_source (e := html.uncached) rfl rfl {}
  simp only [renderFile, addPartials, compileFile, readTemplate, readText_page, hcreate,
    Except.mapError]
  rfl

/-- The first partial is overridden, and so is what the data hold under its name; and a partial that
is missing is to blame for whatever template file there is. -/
theorem renderFile_partials_overridden :
    html.Reaches sources before ∧ html.KeepsApart sources ∧
      (∀ p ∈ partials, Covers files sources p.path) ∧ AllCompile files html partials ∧
      (renderFile files html "t" (KeyMap.ofList [("v", .null)]) partials before).1 =
        .ok "<b>" ∧
      (∀ p ∈ broken, Covers files sources p.path) ∧ ¬AllCompile files html broken ∧
      ∀ template data, (renderFile files html template data broken before).1 =
        .error (.readTemplate "g" .notFound) := by
  have hpartials : ∀ p ∈ partials, Covers files sources p.path :=
    List.forall_mem_cons.2 ⟨covers (by decide), List.forall_mem_singleton.2 (covers (by decide))⟩
  have hall : AllCompile files html partials :=
    List.forall_mem_cons.2 ⟨⟨_, compilesTo_old⟩, List.forall_mem_singleton.2 ⟨_, compilesTo_new⟩⟩
  have hbroken : ∀ p ∈ broken, Covers files sources p.path :=
    List.forall_mem_cons.2 ⟨covers (by decide), List.forall_mem_singleton.2 (covers (by decide))⟩
  have hgone : Fails files html "g" .compilePartial (.readTemplate "g" .notFound) :=
    .unreadable readText_gone
  have hnot : ¬AllCompile files html broken := by
    intro h
    obtain ⟨t, ht⟩ := h ⟨"w", "g"⟩ (by decide)
    exact ht.not_fails hgone
  refine ⟨reaches_before, keepsApart, hpartials, hall, ?_, hbroken, hnot, ?_⟩
  · obtain ⟨hoverlay, _⟩ := renderFile_partials reaches_before keepsApart hpartials
    have hresult := hoverlay hall "t" (KeyMap.ofList [("v", .null)]) (covers (by decide))
    rw [hresult.rendered _ {} (overlays _), renderFile_page]
    rfl
  · obtain ⟨_, _, hfirst⟩ := renderFile_partials reaches_before keepsApart hbroken
    exact hfirst _ (.later compilesTo_new (.here hgone))

end Letter

end Stencil.Cli
