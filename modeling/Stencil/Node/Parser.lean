import Stencil.Node.Token
import Stencil.Text.Position

/-!
# Parsing templates

The nodes of a template are built from its tokens in a single pass. What has been built stands in
the list that is being filled and in one level for each block that is still open; each token
changes the innermost list or the levels. A token that fits no way is an error at its place, and so
is a block that is open at the end.
-/

namespace Stencil.Node

open Stencil.Text (Position Snippet)

/-! ## Errors -/

/-- What is wrong with the structure of a template. -/
inductive ParseErrorKind where
  /-- A block is open at the end. -/
  | unclosedBlock (kind : BlockKind)
  /-- A second branch starts where the innermost open block is no conditional. -/
  | danglingElse
  /-- A second branch starts in a second branch. -/
  | duplicateElse
  /-- A block ends that is not the innermost open one. -/
  | danglingEnd (closer : BlockKind) (innermost : Option BlockKind)
  /-- A loop does not name an element and a collection. -/
  | invalidIteration (body : String)
  /-- A block starts inside as many others as may be open at once. -/
  | nestingExceeded (limit : Nat)
  deriving DecidableEq, Repr

/-- The decimal form of a number. -/
def decimal (n : Nat) : String :=
  String.ofList (Nat.toDigits 10 n)

/-- The error in words. -/
def ParseErrorKind.message : ParseErrorKind → String
  | .unclosedBlock kind => "unclosed " ++ kind.opener ++ " block"
  | .danglingElse => "@else without @if"
  | .duplicateElse => "multiple @else for @if"
  | .danglingEnd closer (some innermost) =>
    closer.closer ++ " does not match the open " ++ innermost.opener ++ " block"
  | .danglingEnd closer none => closer.closer ++ " without " ++ closer.opener
  | .invalidIteration body =>
    "invalid @for syntax '" ++ body ++ "', expected @for\x7bitem in items\x7d"
  | .nestingExceeded limit => "maximum nesting depth of " ++ decimal limit ++ " exceeded"

/-- An error in a template, and where it stands. -/
structure ParseError where
  kind : ParseErrorKind
  /-- The offset of the directive at fault, in bytes. -/
  offset : Nat
  position : Position
  snippet : Snippet
  deriving DecidableEq, Repr

/-- The error at a byte offset of a source. -/
def ParseError.ofOffset (kind : ParseErrorKind) (source : List Char) (offset : Nat) : ParseError :=
  let position := Position.ofOffset source offset
  { kind, offset, position, snippet := Snippet.ofSource source position }

/-- The error in words, with its place and the source around it. -/
def ParseError.message (e : ParseError) : String :=
  e.kind.message ++ " at line " ++ decimal e.position.line ++ ", column " ++
    decimal e.position.column ++ "\n" ++ String.ofList e.snippet.write

/-! ## Open blocks -/

/-- The part of a block that is being filled. -/
inductive Branch where
  | whenTrue (key : String)
  | whenFalse (key : String) (first : List Node)
  | body (name collection : String)
  deriving Repr

/-- The kind of block that the part belongs to. -/
def Branch.kind : Branch → BlockKind
  | .whenTrue _ => .conditional
  | .whenFalse _ _ => .conditional
  | .body _ _ => .iteration

/-- The block with its last part filled. -/
def Branch.node (nodes : List Node) : Branch → Node
  | .whenTrue key => .conditional key nodes none
  | .whenFalse key first => .conditional key first (some nodes)
  | .body name collection => .iteration name collection nodes

/-- A block that is open: the part being filled, the offset of its first directive, and the nodes
before it in the list that it stands in, in reverse order. -/
structure Level where
  branch : Branch
  offset : Nat
  before : List Node
  deriving Repr

/-- What has been built: the list being filled, in reverse order, and the open blocks, the
innermost first. -/
structure Progress where
  nodes : List Node
  levels : List Level
  deriving Repr

namespace Progress

/-- Before the first token. -/
def start : Progress := ⟨[], []⟩

/-- One more node at the end of the list being filled. -/
def push (p : Progress) (n : Node) : Progress :=
  { p with nodes := n :: p.nodes }

/-- One more open block. -/
def openBlock (p : Progress) (branch : Branch) (offset : Nat) : Progress :=
  ⟨[], ⟨branch, offset, p.nodes⟩ :: p.levels⟩

/-- The innermost conditional goes on with its second branch. -/
def orElse (p : Progress) : Except ParseErrorKind Progress :=
  match p.levels with
  | ⟨.whenTrue key, offset, before⟩ :: levels =>
    .ok ⟨[], ⟨.whenFalse key p.nodes.reverse, offset, before⟩ :: levels⟩
  | ⟨.whenFalse _ _, _, _⟩ :: _ => .error .duplicateElse
  | _ => .error .danglingElse

/-- The innermost block ends. -/
def close (p : Progress) (kind : BlockKind) : Except ParseErrorKind Progress :=
  match p.levels with
  | [] => .error (.danglingEnd kind none)
  | level :: levels =>
    if level.branch.kind = kind then
      .ok ⟨level.branch.node p.nodes.reverse :: level.before, levels⟩
    else .error (.danglingEnd kind (some level.branch.kind))

/-- What has been built after one more token, where at most `limit` blocks may be open. -/
def step (limit : Nat) (p : Progress) (offset : Nat) : Token → Except ParseErrorKind Progress
  | .literal text => .ok (p.push (.literal text))
  | .placeholder key default => .ok (p.push (.placeholder key default))
  | .openIf key =>
    if limit ≤ p.levels.length then .error (.nestingExceeded limit)
    else .ok (p.openBlock (.whenTrue key) offset)
  | .openFor name collection =>
    if limit ≤ p.levels.length then .error (.nestingExceeded limit)
    else .ok (p.openBlock (.body name collection) offset)
  | .malformedFor body =>
    if limit ≤ p.levels.length then .error (.nestingExceeded limit)
    else .error (.invalidIteration body)
  | .orElse => p.orElse
  | .close kind => p.close kind

/-- What has been built after some pieces of the source, the first of which stands at a byte
offset; or the first error and the offset of its directive. -/
def run (limit : Nat) (p : Progress) (offset : Nat) :
    List Piece → Except (ParseErrorKind × Nat) Progress
  | [] => .ok p
  | piece :: pieces =>
    match p.step limit offset (.ofPiece piece) with
    | .error kind => .error (kind, offset)
    | .ok p => p.run limit (offset + Text.byteLength piece.chars) pieces

/-- The nodes that have been built, if no block is open. -/
def finish (p : Progress) : Except (ParseErrorKind × Nat) (List Node) :=
  match p.levels with
  | [] => .ok p.nodes.reverse
  | level :: _ => .error (.unclosedBlock level.branch.kind, level.offset)

end Progress

/-! ## Parsing -/

/-- How many blocks may be open at once, unless an engine is told otherwise. -/
def defaultMaxDepth : Nat := 50

/-- The nodes of a source, or its first error with a byte offset. -/
def parseChars (limit : Nat) (source : List Char) : Except (ParseErrorKind × Nat) (List Node) :=
  match Progress.start.run limit 0 (scan source) with
  | .error e => .error e
  | .ok p => p.finish

/-- The nodes of a source in which at most `limit` blocks are open at once. -/
def parse (limit : Nat) (source : String) : Except ParseError (List Node) :=
  match parseChars limit source.toList with
  | .error (kind, offset) => .error (.ofOffset kind source.toList offset)
  | .ok nodes => .ok nodes

end Stencil.Node
