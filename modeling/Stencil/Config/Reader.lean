import Stencil.Config
import Stencil.Toml.Reader

/-!
# Reading engine settings

The settings of an engine as a table of a settings text. Settings that are left out keep their
defaults, and keys that are no settings are ignored.
-/

namespace Stencil.EngineConfig

/-! ## Single settings -/

/-- The names of the ways to validate keys. -/
def validationNames : List (String × KeyValidation) :=
  [("inherited", .inherited), ("local", .isolated)]

/-- The names of the ways to escape. -/
def escapeNames : List (String × EscapePolicy) :=
  [("html", .html), ("raw", .raw)]

/-- A natural number. -/
def natural? : Toml → Option Nat
  | .integer n => if 0 ≤ n then some n.toNat else none
  | _ => none

/-- One of several named values: its name, or a table whose one key is the name and has an empty
value. -/
def choice? {α : Type} (names : List (String × α)) : Toml → Option α
  | .string s => names.lookup s
  | .table [(s, .table [])] => names.lookup s
  | .table [(s, .array [])] => names.lookup s
  | _ => none

/-- A setting, or its default if it is left out. -/
def setting? {α : Type} (read : Toml → Option α) (default : α) : Option Toml → Option α
  | none => some default
  | some v => read v

/-! ## All settings -/

/-- The names of the settings in their order. -/
def settingNames : List String :=
  ["max_depth", "key_validation", "escape", "cache_capacity"]

/-- The settings of a table. -/
def ofEntries? (entries : List (String × Toml)) : Option EngineConfig := do
  let defaults : EngineConfig := {}
  let maxDepth ← setting? natural? defaults.maxDepth (entries.lookup "max_depth")
  let keyValidation ← setting? (choice? validationNames) defaults.keyValidation
    (entries.lookup "key_validation")
  let escape ← setting? (choice? escapeNames) defaults.escape (entries.lookup "escape")
  let cacheCapacity ← setting? (fun v => (natural? v).map some) defaults.cacheCapacity
    (entries.lookup "cache_capacity")
  return { maxDepth, keyValidation, escape, cacheCapacity }

/-- The settings of a value: a table with their names, or an array with the settings in their
order. A date has no settings and leaves them all out. -/
def ofToml? : Toml → Option EngineConfig
  | .table entries => ofEntries? entries
  | .array items => ofEntries? (settingNames.zip items)
  | .datetime => some {}
  | _ => none

/-- The settings, if they are usable. -/
def validated (c : EngineConfig) : Except ConfigError EngineConfig := do
  c.validate
  return c

/-- Settings that have been read, if they could be and are usable. -/
def ofRead : Option EngineConfig → Except ConfigError EngineConfig
  | none => .error .unreadable
  | some c => c.validated

/-- The settings of a text in which they are the entries. -/
def read (text : String) : Except ConfigError EngineConfig :=
  ofRead (Toml.read? text >>= ofEntries?)

/-- The settings of a text in which they are the value of the key `engine`. -/
def readNested (text : String) : Except ConfigError EngineConfig :=
  ofRead (Toml.read? text >>= fun entries => setting? ofToml? {} (entries.lookup "engine"))

end Stencil.EngineConfig
