import Stencil.Node.Directive
import Stencil.Text.Blank

/-!
# Tokens of a template

What the pieces of a source text say. Blanks around the names in a directive do not count. A
placeholder may give a default after an equals sign, and a loop names its element and its
collection on either side of the word "in", which stands between single spaces. The tokens of a
node tree list it in document order.
-/

namespace Stencil.Node

open Stencil.Text (trimChars cutAt)

/-- A token of a template. -/
inductive Token where
  | literal (text : String)
  | placeholder (key : String) (default : Option String)
  | openIf (key : String)
  | openFor (name collection : String)
  /-- The start of a loop that does not name an element and a collection. -/
  | malformedFor (body : String)
  | orElse
  | close (kind : BlockKind)
  deriving DecidableEq, Repr

/-! ## Tokens of a text -/

/-- The parts of a text between the separators " in ", read from left to right: the first part and
the others. -/
def splitIn : List Char → List Char × List (List Char)
  | [] => ([], [])
  | ' ' :: 'i' :: 'n' :: ' ' :: cs =>
    let (first, others) := splitIn cs
    ([], first :: others)
  | c :: cs =>
    let (first, others) := splitIn cs
    (c :: first, others)

/-- The token of a placeholder's body: the key, and the default after the first equals sign. -/
def Token.ofPlace (body : List Char) : Token :=
  match cutAt '=' body with
  | some (key, default) =>
    .placeholder (String.ofList (trimChars key)) (some (String.ofList (trimChars default)))
  | none => .placeholder (String.ofList (trimChars body)) none

/-- The token of a loop's body: exactly one separator, and a name on either side of it. -/
def Token.ofFor (body : List Char) : Token :=
  let content := trimChars body
  match splitIn content with
  | (left, [right]) =>
    let name := trimChars left
    let collection := trimChars right
    if name = [] ∨ collection = [] then .malformedFor (String.ofList content)
    else .openFor (String.ofList name) (String.ofList collection)
  | _ => .malformedFor (String.ofList content)

/-- The token of a piece of text. -/
def Token.ofPiece : Piece → Token
  | .text cs => .literal (String.ofList cs)
  | .directive (.place body) => .ofPlace body
  | .directive (.openIf body) => .openIf (String.ofList (trimChars body))
  | .directive (.openFor body) => .ofFor body
  | .directive .orElse => .orElse
  | .directive (.close kind) => .close kind

/-! ## Tokens of a tree -/

mutual

/-- The tokens of a node in document order. -/
def tokens : Node → List Token
  | .literal text => [.literal text]
  | .placeholder key default => [.placeholder key default]
  | .conditional key whenTrue none =>
    .openIf key :: listTokens whenTrue ++ [.close .conditional]
  | .conditional key whenTrue (some whenFalse) =>
    .openIf key :: listTokens whenTrue ++ .orElse :: listTokens whenFalse ++ [.close .conditional]
  | .iteration name collection body =>
    .openFor name collection :: listTokens body ++ [.close .iteration]

/-- The tokens of a list of nodes in document order. -/
def listTokens : List Node → List Token
  | [] => []
  | n :: ns => n.tokens ++ listTokens ns

end

/-- The tokens of two lists in a row. -/
theorem listTokens_append (ms ns : List Node) :
    listTokens (ms ++ ns) = listTokens ms ++ listTokens ns := by
  induction ms with
  | nil => simp [listTokens]
  | cons m ms ih => simp [listTokens, ih]

end Stencil.Node
