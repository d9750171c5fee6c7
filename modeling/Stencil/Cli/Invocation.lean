import Stencil.Text.Blank

/-!
# Invocations

The arguments of the program name a command, its operands and its options. An option with a value
has it after an equals sign, in the next argument or, for a single letter, right behind the letter;
after two hyphens all arguments are operands. Arguments are read one after the other, and the first
that does not fit, or that asks for help or the version, ends the reading.
-/

namespace Stencil.Cli

/-! ## Invocations -/

/-- What the program is to do. -/
inductive Command where
  /-- Renders a template with the data of a file and some partials, into a file if one is named. -/
  | render (template : String) (data : Option String) (partials : List String)
      (output : Option String)
  /-- Checks some templates. -/
  | check (templates : List String)
  /-- Describes a template, with its nodes or without. -/
  | inspect (template : String) (withNodes : Bool)
  deriving DecidableEq, Repr

/-- A command, and the settings file that was named. -/
structure Invocation where
  config : Option String
  command : Command
  deriving DecidableEq, Repr

/-- Why no command is run. -/
inductive Refusal where
  /-- The arguments do not fit. -/
  | usage
  /-- Help was asked for. -/
  | help
  /-- The version was asked for. -/
  | version
  deriving DecidableEq, Repr

/-! ## Options -/

/-- The options with a value. -/
inductive Setting where
  | config
  | logLevel
  | data
  | part
  | output
  deriving DecidableEq, Repr

/-- Whether the value is a path, which must not be empty. -/
def Setting.isPath : Setting → Bool
  | .config | .data | .output => true
  | .logLevel | .part => false

/-- Whether the option may be given again. -/
def Setting.isRepeatable : Setting → Bool
  | .part => true
  | _ => false

/-- The options. -/
inductive Flag where
  | setting (s : Setting)
  | withNodes
  | help
  | version
  deriving DecidableEq, Repr

/-- Where the reading of the arguments stands: before the command, or behind one. -/
inductive Level where
  | top
  | render
  | check
  | inspect
  | help
  deriving DecidableEq, Repr

namespace Level

/-- The level behind the name of a command. -/
def ofName? (name : String) : Option Level :=
  [("render", render), ("check", check), ("inspect", inspect), ("help", help)].lookup name

/-- The long options of a level, besides those that every level has. -/
def longFlags : Level → List (String × Flag)
  | top => [("version", .version)]
  | render =>
    [("data", .setting .data), ("partial", .setting .part), ("output", .setting .output)]
  | inspect => [("ast", .withNodes)]
  | check | help => []

/-- The long options that every level has. -/
def commonFlags : List (String × Flag) :=
  [("config", .setting .config), ("log-level", .setting .logLevel), ("help", .help)]

/-- The long option of a name. -/
def long? (l : Level) (name : String) : Option Flag :=
  (commonFlags ++ l.longFlags).lookup name

/-- The options of a level that are single letters, besides the one that every level has. -/
def shortFlags : Level → List (Char × Flag)
  | top => [('V', .version)]
  | render => [('d', .setting .data), ('p', .setting .part), ('o', .setting .output)]
  | check | inspect | help => []

/-- The option of a letter. -/
def short? (l : Level) (letter : Char) : Option Flag :=
  (('h', .help) :: l.shortFlags).lookup letter

end Level

/-! ## Words -/

/-- An argument by its form. -/
inductive Word where
  /-- Two hyphens. -/
  | escape
  | long (name : String) (value : Option String)
  | short (letters : List Char)
  | plain (s : String)
  deriving DecidableEq, Repr

/-- The form of an argument. A single hyphen is no option. -/
def Word.ofString (s : String) : Word :=
  match s.toList with
  | ['-', '-'] => .escape
  | '-' :: '-' :: cs =>
    match Text.cutAt '=' cs with
    | none => .long (String.ofList cs) none
    | some (name, value) => .long (String.ofList name) (some (String.ofList value))
  | '-' :: c :: cs => .short (c :: cs)
  | _ => .plain s

/-- The value right behind the letter of an option, with or without an equals sign. -/
def attached : List Char → Option String
  | [] => none
  | '=' :: cs => some (String.ofList cs)
  | cs => some (String.ofList cs)

/-! ## Reading -/

/-- The arguments read so far. -/
structure Reading where
  level : Level := .top
  /-- The options with their values, and the level on which they stand. -/
  settings : List ((Level × Setting) × String) := []
  withNodes : Bool := false
  operands : List String := []
  /-- The option that the next argument is the value of. -/
  waiting : Option Setting := none
  /-- Whether only operands follow. -/
  onlyOperands : Bool := false

namespace Reading

/-- Gives an option its value. -/
def give (r : Reading) (s : Setting) (value : String) : Except Refusal Reading :=
  if s.isPath && value = "" then .error .usage
  else if !s.isRepeatable && (r.settings.lookup (r.level, s)).isSome then .error .usage
  else .ok { r with settings := r.settings ++ [((r.level, s), value)], waiting := none }

/-- Takes an option, with its value if that is known already. -/
def takeFlag (r : Reading) : Option Flag → Option String → Except Refusal Reading
  | some (.setting s), some value => r.give s value
  | some (.setting s), none => .ok { r with waiting := some s }
  | some .withNodes, none =>
    if r.withNodes then .error .usage else .ok { r with withNodes := true }
  | some .help, none => .error .help
  | some .version, none => .error .version
  | _, _ => .error .usage

/-- Takes options that are single letters: the last one may have a value. -/
def takeLetters (r : Reading) : List Char → Except Refusal Reading
  | [] => .ok r
  | c :: cs =>
    match r.level.short? c with
    | some (.setting s) => r.takeFlag (some (.setting s)) (attached cs)
    | flag => do takeLetters (← r.takeFlag flag none) cs

/-- Takes an operand: a path, which must not be empty. A single file is all that some commands
want. -/
def takeOperand (r : Reading) (s : String) : Except Refusal Reading :=
  match r.level with
  | .top => .error .usage
  | .help => .ok { r with operands := r.operands ++ [s] }
  | .check => if s = "" then .error .usage else .ok { r with operands := r.operands ++ [s] }
  | .render | .inspect =>
    if s = "" ∨ r.operands ≠ [] then .error .usage else .ok { r with operands := [s] }

/-- Takes a word that is no option: the name of a command, if there is none yet. -/
def takePlain (r : Reading) (s : String) : Except Refusal Reading :=
  if r.level = .top then
    match Level.ofName? s with
    | some level => .ok { r with level }
    | none => .error .usage
  else r.takeOperand s

/-- Takes an argument. -/
def take (r : Reading) (argument : String) : Except Refusal Reading :=
  if r.level = .help ∨ r.onlyOperands then r.takeOperand argument
  else
    match r.waiting, Word.ofString argument with
    | some s, .plain value => r.give s value
    | some _, _ => .error .usage
    | none, .escape => .ok { r with onlyOperands := true }
    | none, .long name value => r.takeFlag (r.level.long? name) value
    | none, .short letters => r.takeLetters letters
    | none, .plain s => r.takePlain s

/-- The value of an option behind the command or, failing that, before it. -/
def value? (r : Reading) (s : Setting) : Option String :=
  (r.settings.lookup (r.level, s)).or (r.settings.lookup (.top, s))

/-- The values of an option that was given any number of times. -/
def values (r : Reading) (s : Setting) : List String :=
  r.settings.filterMap fun e => if e.1.2 = s then some e.2 else none

/-- The command that was read. -/
def command (r : Reading) : Except Refusal Command :=
  match r.level, r.operands with
  | .render, [template] =>
    .ok (.render template (r.value? .data) (r.values .part) (r.value? .output))
  | .check, templates => if templates = [] then .error .usage else .ok (.check templates)
  | .inspect, [template] => .ok (.inspect template r.withNodes)
  | .help, [] => .error .help
  | .help, [name] => if (Level.ofName? name).isSome then .error .help else .error .usage
  | _, _ => .error .usage

/-- The invocation that was read. -/
def finish (r : Reading) : Except Refusal Invocation := do
  if r.waiting.isSome then throw .usage
  return { config := r.value? .config, command := ← r.command }

end Reading

/-- The invocation of some arguments. -/
def Invocation.ofArguments (arguments : List String) : Except Refusal Invocation := do
  let r ← arguments.foldlM Reading.take {}
  r.finish

end Stencil.Cli
