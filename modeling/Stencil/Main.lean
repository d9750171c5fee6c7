import Stencil.Cli.Run

/-!
# The program

The program reads the files that its arguments name, runs the command on them, and prints and writes
what comes of it.
-/

namespace Stencil

open Stencil.Cli (Command Entry Files Invocation Outcome)

/-- The paths that a command reads or writes. -/
def Cli.Command.paths : Command → List String
  | .render template data partials output =>
    template :: data.toList ++ output.toList ++
      partials.filterMap fun argument =>
        match Cli.Partial.ofArgument argument with
        | .ok p => some p.path
        | .error _ => none
  | .check templates => templates
  | .inspect template _ => [template]

/-- The paths that an invocation reads or writes. -/
def Cli.Invocation.paths (i : Invocation) : List String :=
  i.config.getD Cli.defaultSettingsPath :: i.command.paths

/-- The paths up to each slash of a path, and the path itself. -/
def pathsOnTheWay (path : String) : List String :=
  let names := path.splitOn "/"
  (List.range names.length).map fun n => "/".intercalate (names.take (n + 1))

/-- The tree with what is on the disk at a path, if there is something. -/
def addPath (files : Files) (path : String) : IO Files := do
  try
    let place := Files.placeOf path
    if ← (← IO.FS.realPath path).isDir then return files.set place .directory
    return files.set place (.file (← IO.FS.readBinFile path))
  catch _ => return files

/-- The files that an invocation may read or write. -/
def filesOf (i : Invocation) : IO Files :=
  (i.paths.flatMap pathsOnTheWay).foldlM addPath {}

/-- Writes the file that a command leaves behind. -/
def Cli.Outcome.store (outcome : Outcome) : Command → IO Unit
  | .render _ _ _ (some path) => do
    if let .ok content := outcome.files.readBytes path then IO.FS.writeBinFile path content
  | _ => return ()

/-- Prints the outcome of a run. -/
def Cli.Outcome.print (outcome : Outcome) : IO Unit := do
  IO.print outcome.output
  if let some failure := outcome.failure then IO.eprintln failure.report

end Stencil

open Stencil in
/-- Runs the command that the arguments name. -/
def main (arguments : List String) : IO UInt32 := do
  match Cli.Invocation.ofArguments arguments with
  | .error refusal =>
    let outcome := refusal.outcome {}
    if refusal = .usage then IO.eprint Cli.helpText
    outcome.print
    return outcome.status.toUInt32
  | .ok i =>
    let outcome := i.run (← filesOf i)
    if outcome.status = 0 then outcome.store i.command
    outcome.print
    return outcome.status.toUInt32
