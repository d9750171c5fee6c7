import Stencil.Cli.Invocation
import Stencil.Cli.Report
import Stencil.Config.Reader

/-!
# Running commands

What a run of the program prints, how it fails and which files it leaves behind. Main statement: the
run of an invocation ends with status zero exactly when it did not fail
(`Invocation.status_run_eq_zero_iff`).
-/

namespace Stencil.Cli

/-! ## Settings files -/

/-- The settings file that is looked for when none is named. -/
def defaultSettingsPath : String := "sigil.toml"

/-- The settings of a file. -/
def readSettings (files : Files) (path : String) : Except Failure EngineConfig :=
  match files.readText path with
  | .error e => .error (.readConfig path e)
  | .ok text =>
    match EngineConfig.readNested text with
    | .error e => .error (.invalidConfig path e)
    | .ok config => .ok config

/-- The settings of the file that is named, or else of the default file if it is there. -/
def loadSettings (files : Files) : Option String → Except Failure EngineConfig
  | some path => readSettings files path
  | none =>
    if files.contains defaultSettingsPath then readSettings files defaultSettingsPath else .ok {}

/-! ## Outcomes -/

/-- What is left of a run. -/
structure Outcome where
  /-- The status of the program: zero if all went well, two if the arguments do not fit, and one for
  any failure. -/
  status : Nat
  /-- What is printed. -/
  output : String
  failure : Option Failure
  files : Files

namespace Outcome

/-- The outcome of a command that printed something and may have failed. -/
def ofFailure (output : String) (failure : Option Failure) (files : Files) : Outcome :=
  { status := if failure.isSome then 1 else 0, output, failure, files }

/-- The outcome of a text that is to be printed. -/
def ofText (files : Files) : Except Failure String → Outcome
  | .error e => ofFailure "" (some e) files
  | .ok text => ofFailure text none files

/-- The outcome of files that are to be changed. -/
def ofFiles (files : Files) : Except Failure Files → Outcome
  | .error e => ofFailure "" (some e) files
  | .ok changed => ofFailure "" none changed

/-- The status is zero exactly if there is no failure. -/
theorem status_ofFailure_eq_zero_iff (output : String) (failure : Option Failure) (files : Files) :
    (ofFailure output failure files).status = 0 ↔ failure = none := by
  cases failure <;> simp [ofFailure]

/-- The status for a text is zero exactly if there is one to print. -/
theorem status_ofText_eq_zero_iff (files : Files) (r : Except Failure String) :
    (ofText files r).status = 0 ↔ (ofText files r).failure = none := by
  cases r with
  | error e => exact status_ofFailure_eq_zero_iff _ _ _
  | ok text => exact status_ofFailure_eq_zero_iff _ _ _

/-- The status for changed files is zero exactly if they could be changed. -/
theorem status_ofFiles_eq_zero_iff (files : Files) (r : Except Failure Files) :
    (ofFiles files r).status = 0 ↔ (ofFiles files r).failure = none := by
  cases r with
  | error e => exact status_ofFailure_eq_zero_iff _ _ _
  | ok changed => exact status_ofFailure_eq_zero_iff _ _ _

end Outcome

/-! ## Commands -/

/-- What is said about the version. -/
def versionText : String := "sigil 0.1.0\n"

/-- What is said when help is asked for. -/
def helpText : String :=
  "Usage: sigil [--config FILE] [--log-level LEVEL] COMMAND\n\n" ++
  "  render TEMPLATE [-d FILE] [-p NAME=PATH]... [-o FILE]\n" ++
  "  check TEMPLATE...\n" ++
  "  inspect TEMPLATE [--ast]\n"

/-- The outcome of arguments that run no command. -/
def Refusal.outcome (files : Files) : Refusal → Outcome
  | .usage => { status := 2, output := "", failure := none, files }
  | .help => .ofFailure helpText none files
  | .version => .ofFailure versionText none files

/-- The outcome of a command. -/
def Command.run (files : Files) (engine : Engine) (s : Session) : Command → Outcome
  | .render template data partials none =>
    .ofText files (renderArguments files engine template data partials s).1
  | .render template data partials (some path) =>
    .ofFiles files
      ((renderArguments files engine template data partials s).1.bind (writeOutput files path))
  | .check templates =>
    let reports := (checkFiles files engine templates s).1
    .ofFailure (String.join (reports.map Report.write)) (failureOf reports) files
  | .inspect template withNodes =>
    .ofText files (describeFile files engine template withNodes s).1

/-- A command ends with status zero exactly when it did not fail. -/
theorem Command.status_run_eq_zero_iff (files : Files) (engine : Engine) (s : Session)
    (c : Command) :
    (c.run files engine s).status = 0 ↔ (c.run files engine s).failure = none := by
  cases c with
  | render template data partials output =>
    cases output with
    | none => exact Outcome.status_ofText_eq_zero_iff _ _
    | some path => exact Outcome.status_ofFiles_eq_zero_iff _ _
  | check templates => exact Outcome.status_ofFailure_eq_zero_iff _ _ _
  | inspect template withNodes => exact Outcome.status_ofText_eq_zero_iff _ _

/-- The engine that the settings ask for. -/
def makeEngine (files : Files) (config : Option String) (s : Session) :
    Except Failure Engine × Session :=
  match loadSettings files config with
  | .error e => (.error e, s)
  | .ok config =>
    let (engine, s) := Engine.make config s
    (engine.mapError .engine, s)

/-- The outcome of an invocation. -/
def Invocation.run (files : Files) (i : Invocation) : Outcome :=
  match makeEngine files i.config {} with
  | (.error e, _) => .ofFailure "" (some e) files
  | (.ok engine, s) => i.command.run files engine s

/-- An invocation ends with status zero exactly when neither making the engine nor the command
failed. -/
theorem Invocation.status_run_eq_zero_iff (files : Files) (i : Invocation) :
    (i.run files).status = 0 ↔ (i.run files).failure = none := by
  unfold Invocation.run
  split
  · exact Outcome.status_ofFailure_eq_zero_iff _ _ _
  · exact Command.status_run_eq_zero_iff _ _ _ _

/-- The outcome of some arguments. -/
def run (files : Files) (arguments : List String) : Outcome :=
  match Invocation.ofArguments arguments with
  | .error refusal => refusal.outcome files
  | .ok i => i.run files

end Stencil.Cli
