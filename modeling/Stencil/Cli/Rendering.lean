import Stencil.Cli.Failure
import Stencil.Engine
import Stencil.Json.Reader
import Stencil.Text.Blank

/-!
# Rendering files

A template file is rendered with the data of a document file and with partial templates, which are
passed unrendered. A partial takes the place of what the data holds under its name. Main statement:
an argument that is accepted for a partial gives a name and a path, neither of them empty
(`Partial.ofArgument_nonempty`).
-/

namespace Stencil.Cli

/-! ## Partials -/

/-- A template that is passed to another one. -/
structure Partial where
  /-- The key under which it is passed. -/
  name : String
  /-- The file that it is in. -/
  path : String
  deriving DecidableEq, Repr

namespace Partial

/-- The partial of an argument: a name, an equals sign and a path, with blanks around them. The
first equals sign counts. -/
def ofArgument (argument : String) : Except Failure Partial :=
  match Text.cutAt '=' argument.toList with
  | none => .error (.invalidPartial argument)
  | some (before, after) =>
    let name := Text.trimChars before
    let path := Text.trimChars after
    if name = [] ∨ path = [] then .error (.invalidPartial argument)
    else .ok ⟨String.ofList name, String.ofList path⟩

/-- An accepted argument has a name and a path. -/
theorem ofArgument_nonempty (argument : String) (p : Partial) (h : ofArgument argument = .ok p) :
    p.name ≠ "" ∧ p.path ≠ "" := by
  unfold ofArgument at h
  split at h
  · cases h
  · dsimp only at h
    split at h
    · cases h
    · rename_i hne
      cases h
      simp_all

end Partial

/-! ## Rendering -/

/-- The source of a template file. -/
def readTemplate (files : Files) (path : String) : Except Failure String :=
  (files.readText path).mapError (.readTemplate path)

/-- The data of a document file. -/
def loadData (files : Files) (path : String) : Except Failure Data :=
  match files.readText path with
  | .error e => .error (.readData path e)
  | .ok text =>
    match Json.read? Json.nestingLimit text with
    | none => .error (.invalidJson path)
    | some document => (Data.ofJson document).mapError .engine

/-- The template of a file; a template that cannot be compiled fails as `failure` says. -/
def compileFile (files : Files) (engine : Engine) (path : String)
    (failure : String → Error → Failure) (s : Session) : Except Failure Template × Session :=
  match readTemplate files path with
  | .error e => (.error e, s)
  | .ok source =>
    let (t, s) := engine.createTemplate source s
    (t.mapError (failure path), s)

/-- The data with some partials. -/
def addPartials (files : Files) (engine : Engine) (data : Data) :
    List Partial → Session → Except Failure Data × Session
  | [], s => (.ok data, s)
  | p :: ps, s =>
    match compileFile files engine p.path .compilePartial s with
    | (.error e, s) => (.error e, s)
    | (.ok t, s) => addPartials files engine (data.insert p.name (.template t)) ps s

/-- The text of a template file with some data and partials. -/
def renderFile (files : Files) (engine : Engine) (template : String) (data : Data)
    (partials : List Partial) (s : Session) : Except Failure String × Session :=
  match addPartials files engine data partials s with
  | (.error e, s) => (.error e, s)
  | (.ok data, s) =>
    match compileFile files engine template .compileTemplate s with
    | (.error e, s) => (.error e, s)
    | (.ok t, s) => ((t.render data).mapError (.renderTemplate template), s)

/-- The text of a template file with the data of a file, if one is named, and with the partials of
some arguments. -/
def renderArguments (files : Files) (engine : Engine) (template : String) (data : Option String)
    (partials : List String) (s : Session) : Except Failure String × Session :=
  let inputs : Except Failure (Data × List Partial) := do
    let data ← match data with
      | some path => loadData files path
      | none => .ok ∅
    let partials ← partials.mapM Partial.ofArgument
    return (data, partials)
  match inputs with
  | .error e => (.error e, s)
  | .ok (data, partials) => renderFile files engine template data partials s

/-- The tree with a text in the file that it was rendered for. -/
def writeOutput (files : Files) (path text : String) : Except Failure Files :=
  (files.writeText path text).mapError (.write path)

end Stencil.Cli
