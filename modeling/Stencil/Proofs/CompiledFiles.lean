import Stencil.Cli.Rendering
import Stencil.Proofs.Requests

/-!
# Compiled files

What comes of a file that a command compiles: it cannot be read, or the engine compiles its text or
refuses it. Main statements: this does not depend on what the engine was asked for before
(`compiled_compileFile`), and it is one outcome up to agreement of templates (`Compiled.alike`).
-/

namespace Stencil.Cli

/-! ## Outcomes -/

/-- The text of the file, if it can be read, is among the sources. -/
def Covers (files : Files) (sources : List String) (path : String) : Prop :=
  ∀ source, files.readText path = .ok source → source ∈ sources

/-- The file can be read, and the engine compiles its text to the template. -/
def CompilesTo (files : Files) (e : Engine) (path : String) (t : Template) : Prop :=
  ∃ source s, files.readText path = .ok source ∧ (e.build source s).1 = .ok t

/-- The file cannot be read, or the engine does not compile its text. -/
inductive Fails (files : Files) (e : Engine) (path : String) (failure : String → Error → Failure) :
    Failure → Prop where
  | unreadable {cause : FileError} (h : files.readText path = .error cause) :
    Fails files e path failure (.readTemplate path cause)
  | broken {source : String} {s : Session} {err : Error} (h : files.readText path = .ok source)
    (hbuild : (e.build source s).1 = .error err) : Fails files e path failure (failure path err)

/-- What compiling the file may come to. -/
inductive Compiled (files : Files) (e : Engine) (path : String)
    (failure : String → Error → Failure) : Except Failure Template → Prop where
  | ok {t : Template} (h : CompilesTo files e path t) : Compiled files e path failure (.ok t)
  | error {f : Failure} (h : Fails files e path failure f) :
    Compiled files e path failure (.error f)

section Compiled

variable {files : Files} {e : Engine} {sources : List String} {s : Session} {path : String}
  {failure : String → Error → Failure}

/-- An engine compiles a source to the same in two sessions, up to agreement. -/
theorem build_agree_self (e : Engine) (source : String) (s s' : Session) :
    Agree (e.build source s).1 (e.build source s').1 :=
  Engine.build_agree rfl rfl rfl source s s'

/-- A file compiles to one template, up to agreement. -/
theorem CompilesTo.agrees {t u : Template} (ht : CompilesTo files e path t)
    (hu : CompilesTo files e path u) : t.Agrees u := by
  obtain ⟨source, s, hread, hbuild⟩ := ht
  obtain ⟨source', s', hread', hbuild'⟩ := hu
  obtain rfl := Except.ok.inj (hread.symm.trans hread')
  have hagree := build_agree_self e source s s'
  rw [hbuild, hbuild'] at hagree
  cases hagree with
  | ok h => exact h

/-- A file that compiles does not fail. -/
theorem CompilesTo.not_fails {t : Template} (ht : CompilesTo files e path t) {f : Failure} :
    ¬Fails files e path failure f := by
  obtain ⟨source, s, hread, hbuild⟩ := ht
  intro hf
  cases hf with
  | unreadable h =>
    rw [hread] at h
    cases h
  | @broken source' s' err h hbuild' =>
    obtain rfl := Except.ok.inj (hread.symm.trans h)
    have hagree := build_agree_self e source s s'
    rw [hbuild, hbuild'] at hagree
    cases hagree

/-- A file fails in one way. -/
theorem Fails.eq {f f' : Failure} (h : Fails files e path failure f)
    (h' : Fails files e path failure f') : f = f' := by
  cases h with
  | unreadable h =>
    cases h' with
    | unreadable h' =>
      obtain rfl := Except.error.inj (h.symm.trans h')
      rfl
    | broken h' =>
      rw [h] at h'
      cases h'
  | @broken source s err h hbuild =>
    cases h' with
    | unreadable h' =>
      rw [h] at h'
      cases h'
    | @broken source' s' err' h' hbuild' =>
      obtain rfl := Except.ok.inj (h.symm.trans h')
      have hagree := build_agree_self e source s s'
      rw [hbuild, hbuild'] at hagree
      cases hagree
      rfl

/-- A file compiles, or it fails. -/
theorem compilesTo_or_fails (files : Files) (e : Engine) (path : String)
    (failure : String → Error → Failure) :
    (∃ t, CompilesTo files e path t) ∨ ∃ f, Fails files e path failure f := by
  cases hread : files.readText path with
  | error cause => exact Or.inr ⟨_, .unreadable hread⟩
  | ok source =>
    cases hbuild : (e.build source {}).1 with
    | error err => exact Or.inr ⟨_, .broken hread hbuild⟩
    | ok t => exact Or.inl ⟨t, source, {}, hread, hbuild⟩

/-- A file comes to what the engine builds from its text. -/
theorem Compiled.of_build {source : String} (hread : files.readText path = .ok source)
    (s : Session) :
    Compiled files e path failure ((e.build source s).1.mapError (failure path)) := by
  cases hbuild : (e.build source s).1 with
  | error err => exact .error (.broken hread hbuild)
  | ok t => exact .ok ⟨source, s, hread, hbuild⟩

/-- Two outcomes for one file are templates that agree, or the same failure. -/
theorem Compiled.alike {r r' : Except Failure Template} (h : Compiled files e path failure r)
    (h' : Compiled files e path failure r') :
    (∃ t u, r = .ok t ∧ r' = .ok u ∧ t.Agrees u) ∨ ∃ f, r = .error f ∧ r' = .error f := by
  cases h with
  | @ok t ht =>
    cases h' with
    | @ok u hu => exact Or.inl ⟨t, u, rfl, rfl, ht.agrees hu⟩
    | error hf => exact absurd hf ht.not_fails
  | @error f hf =>
    cases h' with
    | ok hu => exact absurd hf hu.not_fails
    | error hf' => exact Or.inr ⟨f, rfl, by rw [hf.eq hf']⟩

/-- What compiling a file without a cache comes to. -/
theorem compiled_compileFile_uncached (files : Files) (e : Engine) (path : String)
    (failure : String → Error → Failure) (s : Session) :
    Compiled files e path failure (compileFile files e.uncached path failure s).1 := by
  unfold compileFile readTemplate
  cases hread : files.readText path with
  | error cause => exact .error (.unreadable hread)
  | ok source => exact .of_build hread s

/-- **Compiling a file does not depend on the past.** Whatever the engine was asked for before, the
outcome is one that there is without a cache. -/
theorem compiled_compileFile (h : e.Reaches sources s) (hapart : e.KeepsApart sources)
    (hpath : Covers files sources path) (failure : String → Error → Failure) :
    ∃ result s', compileFile files e path failure s = (result, s') ∧
      Compiled files e path failure result ∧ e.Reaches sources s' := by
  unfold compileFile readTemplate
  cases hread : files.readText path with
  | error cause => exact ⟨_, s, rfl, .error (.unreadable hread), h⟩
  | ok source =>
    have hsource := hpath source hread
    obtain ⟨s', hcreate⟩ := Engine.exists_build_eq_createTemplate h hapart hsource
    refine ⟨_, _, rfl, ?_, h.create hsource⟩
    show Compiled files e path failure ((e.createTemplate source s).1.mapError (failure path))
    rw [hcreate]
    exact .of_build hread s'

/-- A file that can be compiled is compiled. -/
theorem CompilesTo.compileFile_eq {u : Template} (hu : CompilesTo files e path u)
    (h : e.Reaches sources s) (hapart : e.KeepsApart sources) (hpath : Covers files sources path)
    (failure : String → Error → Failure) :
    ∃ t s', compileFile files e path failure s = (.ok t, s') ∧ CompilesTo files e path t ∧
      e.Reaches sources s' := by
  obtain ⟨result, s', hcompile, hcompiled, hreaches⟩ :=
    compiled_compileFile h hapart hpath failure
  cases hcompiled with
  | @ok t ht => exact ⟨t, s', hcompile, ht, hreaches⟩
  | error hf => exact absurd hf hu.not_fails

/-- A file that fails does so whenever it is compiled. -/
theorem Fails.compileFile_eq {f : Failure} (hf : Fails files e path failure f)
    (h : e.Reaches sources s) (hapart : e.KeepsApart sources)
    (hpath : Covers files sources path) :
    ∃ s', compileFile files e path failure s = (.error f, s') ∧ e.Reaches sources s' := by
  obtain ⟨result, s', hcompile, hcompiled, hreaches⟩ :=
    compiled_compileFile h hapart hpath failure
  cases hcompiled with
  | ok ht => exact absurd hf ht.not_fails
  | error hf' =>
    obtain rfl := hf'.eq hf
    exact ⟨s', hcompile, hreaches⟩

end Compiled

end Stencil.Cli
