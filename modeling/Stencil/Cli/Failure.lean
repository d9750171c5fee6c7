import Stencil.Cli.Files
import Stencil.Error

/-!
# Failures of commands

A command that fails says what it was doing and why that failed: a chain of messages from the
outermost cause to the innermost one.
-/

namespace Stencil

/-- The messages of an error of the engine: the whole error, and the error inside it if the stage
has errors of its own. -/
def Error.chain (e : Error) : List String :=
  e.message :: e.inner?.toList

namespace Cli

/-- Why a command failed. -/
inductive Failure where
  | readTemplate (path : String) (cause : FileError)
  | readData (path : String) (cause : FileError)
  | readConfig (path : String) (cause : FileError)
  | write (path : String) (cause : FileError)
  /-- A data file is no document. -/
  | invalidJson (path : String)
  /-- A settings file does not give usable settings. -/
  | invalidConfig (path : String) (cause : ConfigError)
  | compilePartial (path : String) (cause : Error)
  | compileTemplate (path : String) (cause : Error)
  | renderTemplate (path : String) (cause : RenderError)
  /-- The engine failed with no file to blame. -/
  | engine (cause : Error)
  /-- An argument does not name a template and its file. -/
  | invalidPartial (argument : String)
  /-- Some of the templates checked are invalid. -/
  | checksFailed (failed total : Nat)
  deriving DecidableEq, Repr

namespace Failure

open Stencil.Node (decimal)

/-- What is said of a text that is no document. -/
def notJson : String := "the text is not a JSON document"

/-- The message of a settings error: that of the engine, unless the text could not be read. -/
def configMessage : ConfigError → String
  | .unreadable => ConfigError.unreadable.message
  | e => (Error.config e).message

/-- What failed, in words. -/
def message : Failure → String
  | .readTemplate path _ => "cannot read template " ++ path
  | .readData path _ => "cannot read data file " ++ path
  | .readConfig path _ => "cannot read config file " ++ path
  | .write path _ => "cannot write " ++ path
  | .invalidJson path => "invalid JSON in " ++ path
  | .invalidConfig path _ => "invalid config file " ++ path
  | .compilePartial path _ => "failed to compile partial " ++ path
  | .compileTemplate path _ => "failed to compile " ++ path
  | .renderTemplate path _ => "failed to render " ++ path
  | .engine cause => cause.message
  | .invalidPartial argument => "invalid partial '" ++ argument ++ "', expected name=path"
  | .checksFailed failed total => decimal failed ++ " of " ++ decimal total ++ " templates failed"

/-- The messages of what caused a failure, outermost first. -/
def causes : Failure → List String
  | .readTemplate _ cause => [cause.message]
  | .readData _ cause => [cause.message]
  | .readConfig _ cause => [cause.message]
  | .write _ cause => [cause.message]
  | .invalidJson _ => [notJson]
  | .invalidConfig _ cause => [configMessage cause]
  | .compilePartial _ cause => cause.chain
  | .compileTemplate _ cause => cause.chain
  | .renderTemplate _ cause => [cause.message]
  | .engine cause => cause.inner?.toList
  | .invalidPartial _ => []
  | .checksFailed _ _ => []

/-- All messages of a failure, outermost first. -/
def chain (f : Failure) : List String :=
  f.message :: f.causes

/-- All messages of a failure in one text. -/
def line (f : Failure) : String :=
  ": ".intercalate f.chain

/-- A cause in a list of causes: its lines set in, the first one behind a mark. -/
def causeRow (mark margin cause : String) : String :=
  "\n" ++ mark ++ ("\n" ++ margin).intercalate (cause.splitOn "\n")

/-- The rows of the causes. Several causes are numbered. -/
def causeRows : List String → String
  | [] => ""
  | [cause] => "\n\nCaused by:" ++ causeRow "    " "    " cause
  | causes => "\n\nCaused by:" ++ String.join (causes.mapIdx fun i cause =>
      causeRow ("    " ++ decimal i ++ ": ") "       " cause)

/-- The failure with its causes below it. -/
def report (f : Failure) : String :=
  "Error: " ++ f.message ++ causeRows f.causes

end Failure

end Cli

end Stencil
