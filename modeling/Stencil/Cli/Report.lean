import Stencil.Cli.Rendering
import Stencil.Node.Document

/-!
# Reports on templates

A check compiles template files without rendering them and reports on each. A description says what
one template asks for: its keys, whether it needs data, how deep its blocks nest and, on request, its
nodes. Main statements: there is one report for each file, in the order of the files
(`map_path_checkFiles`), and a check fails exactly if a report says so (`isSome_failureOf_iff`).
-/

namespace Stencil.Cli

open Stencil.Node (decimal)

/-! ## Checks -/

/-- What a check found out about a file: how many keys its template reads, or what is wrong. -/
structure Report where
  path : String
  result : Except Failure Nat

namespace Report

/-- Whether the template is valid. -/
def isOk (r : Report) : Bool :=
  match r.result with
  | .ok _ => true
  | .error _ => false

/-- The report in words. -/
def write (r : Report) : String :=
  match r.result with
  | .ok keys => "ok " ++ r.path ++ " (" ++ decimal keys ++ " keys)\n"
  | .error e => "error " ++ r.path ++ "\n" ++ e.line ++ "\n"

end Report

/-- The report on a file. -/
def checkFile (files : Files) (engine : Engine) (path : String) (s : Session) : Report × Session :=
  let (t, s) := compileFile files engine path (fun _ => .engine) s
  (⟨path, t.map fun t => t.keys.size⟩, s)

/-- The reports on some files, in order. -/
def checkFiles (files : Files) (engine : Engine) : List String → Session → List Report × Session
  | [], s => ([], s)
  | path :: paths, s =>
    let (r, s) := checkFile files engine path s
    let (rs, s) := checkFiles files engine paths s
    (r :: rs, s)

/-- The failure of a check with some invalid templates. -/
def failureOf (reports : List Report) : Option Failure :=
  let failed := (reports.filter fun r => !r.isOk).length
  if failed = 0 then none else some (.checksFailed failed reports.length)

/-- There is one report for each file. -/
theorem map_path_checkFiles (files : Files) (engine : Engine) (paths : List String) (s : Session) :
    (checkFiles files engine paths s).1.map Report.path = paths := by
  induction paths generalizing s with
  | nil => rfl
  | cons path paths ih => simp [checkFiles, checkFile, ih]

/-- A check fails exactly if a report says so. -/
theorem isSome_failureOf_iff (reports : List Report) :
    (failureOf reports).isSome = true ↔ ∃ r ∈ reports, r.isOk = false := by
  have hfilter : (reports.filter fun r => !r.isOk).length = 0 ↔ ∀ r ∈ reports, r.isOk = true := by
    simp [List.filter_eq_nil_iff]
  unfold failureOf
  by_cases h : ∀ r ∈ reports, r.isOk = true
  · simp only [if_pos (hfilter.2 h)]
    constructor
    · intro hsome
      cases hsome
    · rintro ⟨r, hr, hfailed⟩
      rw [h r hr] at hfailed
      cases hfailed
  · simp only [if_neg (mt hfilter.1 h), Option.isSome_some, true_iff]
    simpa using h

/-! ## Descriptions -/

/-- The name of a truth value. -/
def truthName (b : Bool) : String :=
  if b then "true" else "false"

/-- The description of a source. -/
def describe (engine : Engine) (source : String) (withNodes : Bool) (s : Session) :
    Except Error String × Session :=
  match engine.parse source with
  | .error e => (.error e, s)
  | .ok nodes =>
    match engine.compileNodes nodes source s with
    | (.error e, s) => (.error e, s)
    | (.ok t, s) =>
      let summary := "keys: " ++ ", ".intercalate t.keys.toList ++
        "\nrequires data: " ++ truthName t.requiresData ++
        "\nnesting depth: " ++ decimal (Node.listDepth nodes) ++ "\n"
      (.ok (if withNodes then summary ++ Node.write nodes ++ "\n" else summary), s)

/-- The description of a template file. -/
def describeFile (files : Files) (engine : Engine) (path : String) (withNodes : Bool)
    (s : Session) : Except Failure String × Session :=
  match readTemplate files path with
  | .error e => (.error e, s)
  | .ok source =>
    let (text, s) := describe engine source withNodes s
    (text.mapError .engine, s)

end Stencil.Cli
