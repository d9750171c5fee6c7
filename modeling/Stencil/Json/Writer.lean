import Stencil.Json.Basic

/-!
# Writing documents

The compact form has no space between tokens; the indented form puts every element and entry on a
line of its own, two spaces deeper than its container. Main statement: strings are written
character by character (`escape_append`).
-/

namespace Stencil.Json

/-! ## Strings -/

/-- The text that stands for a character inside a string: a short escape where there is one, and
four hexadecimal digits for the other control characters. -/
def escapeChar (c : Char) : List Char :=
  if c = '"' then ['\\', '"']
  else if c = '\\' then ['\\', '\\']
  else if c = '\x08' then ['\\', 'b']
  else if c = '\x0c' then ['\\', 'f']
  else if c = '\n' then ['\\', 'n']
  else if c = '\r' then ['\\', 'r']
  else if c = '\t' then ['\\', 't']
  else if c.toNat < 0x20 then
    ['\\', 'u', '0', '0', Nat.digitChar (c.toNat / 16), Nat.digitChar (c.toNat % 16)]
  else [c]

/-- The text of a string between its quotes. -/
def escape (cs : List Char) : List Char :=
  cs.flatMap escapeChar

/-- Two texts in a row are escaped one after the other. -/
theorem escape_append (as bs : List Char) : escape (as ++ bs) = escape as ++ escape bs := by
  simp [escape]

/-- A string with its quotes. -/
def writeString (s : String) : List Char :=
  '"' :: escape s.toList ++ ['"']

/-! ## Compact form -/

mutual

/-- The compact form of a document. -/
def writeCompact : Json → List Char
  | .null => ['n', 'u', 'l', 'l']
  | .bool true => ['t', 'r', 'u', 'e']
  | .bool false => ['f', 'a', 'l', 's', 'e']
  | .number n => n.write
  | .string s => writeString s
  | .array items => '[' :: writeItems items ++ [']']
  | .object entries => '\x7b' :: writeEntries entries ++ ['\x7d']

/-- The elements of an array, a comma between any two. -/
def writeItems : List Json → List Char
  | [] => []
  | [v] => writeCompact v
  | v :: vs => writeCompact v ++ ',' :: writeItems vs

/-- The entries of an object, a comma between any two. -/
def writeEntries : List (String × Json) → List Char
  | [] => []
  | [(name, v)] => writeString name ++ ':' :: writeCompact v
  | (name, v) :: es => writeString name ++ ':' :: writeCompact v ++ ',' :: writeEntries es

end

/-- The compact text of a document. -/
def compact (v : Json) : String :=
  String.ofList (writeCompact v)

/-! ## Indented form -/

/-- A new line at a depth of nesting. -/
def newLine (depth : Nat) : List Char :=
  '\n' :: List.replicate (2 * depth) ' '

mutual

/-- The indented form of a document that stands `depth` containers deep. -/
def writeIndented (depth : Nat) : Json → List Char
  | .array [] => ['[', ']']
  | .array items => '[' :: writeItemLines (depth + 1) items ++ newLine depth ++ [']']
  | .object [] => ['\x7b', '\x7d']
  | .object entries =>
    '\x7b' :: writeEntryLines (depth + 1) entries ++ newLine depth ++ ['\x7d']
  | v => writeCompact v

/-- The elements of an array, one a line. -/
def writeItemLines (depth : Nat) : List Json → List Char
  | [] => []
  | [v] => newLine depth ++ writeIndented depth v
  | v :: vs => newLine depth ++ writeIndented depth v ++ ',' :: writeItemLines depth vs

/-- The entries of an object, one a line. -/
def writeEntryLines (depth : Nat) : List (String × Json) → List Char
  | [] => []
  | [(name, v)] => newLine depth ++ writeString name ++ ':' :: ' ' :: writeIndented depth v
  | (name, v) :: es =>
    newLine depth ++ writeString name ++ ':' :: ' ' :: writeIndented depth v ++
      ',' :: writeEntryLines depth es

end

/-- The indented text of a document. -/
def indented (v : Json) : String :=
  String.ofList (writeIndented 0 v)

end Stencil.Json
