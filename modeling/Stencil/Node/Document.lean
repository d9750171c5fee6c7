import Stencil.Error
import Stencil.Json.Reader
import Stencil.Json.Writer

/-!
# Node trees as documents

A node is written as an object: first its kind under the name "type", then its fields. What is read
may give the fields in any order and more of them, or be an array of the kind and the fields in
order. A kind that there is not is an error of its own, and of several errors the one that is met
first counts: the kind of an outermost node as soon as it has been read, its fields when the whole
node has been read, and so on for the nodes inside them.
-/

namespace Stencil.Node

/-! ## Kinds and fields -/

/-- The kinds of node. -/
inductive Kind where
  | literal
  | placeholder
  | conditional
  | iteration
  deriving DecidableEq, Repr

/-- What a field holds. -/
inductive FieldType where
  | text
  | optionalText
  | nodes
  | optionalNodes
  deriving DecidableEq, Repr

/-- Whether a field may be left out. -/
def FieldType.isOptional : FieldType → Bool
  | .text => false
  | .optionalText => true
  | .nodes => false
  | .optionalNodes => true

namespace Kind

/-- The name of a kind. -/
def tag : Kind → String
  | .literal => "literal"
  | .placeholder => "placeholder"
  | .conditional => "conditional"
  | .iteration => "iteration"

/-- All kinds, in order. -/
def all : List Kind := [.literal, .placeholder, .conditional, .iteration]

/-- The kind of a name. -/
def ofTag? (s : String) : Option Kind :=
  all.find? fun k => k.tag = s

/-- The fields of a kind, in order. -/
def fields : Kind → List (String × FieldType)
  | .literal => [("value", .text)]
  | .placeholder => [("key", .text), ("default_value", .optionalText)]
  | .conditional =>
    [("condition_key", .text), ("true_branch", .nodes), ("false_branch", .optionalNodes)]
  | .iteration => [("iterator_name", .text), ("collection_key", .text), ("body", .nodes)]

/-- What a field of a kind holds, if the kind has it. -/
def fieldType? (k : Kind) (name : String) : Option FieldType :=
  (k.fields.find? fun f => f.1 = name).map Prod.snd

end Kind

/-! ## Writing -/

mutual

/-- The document of a node. -/
def toJson : Node → Json
  | .literal text =>
    .object [("type", .string "literal"), ("value", .string text)]
  | .placeholder key none =>
    .object [("type", .string "placeholder"), ("key", .string key)]
  | .placeholder key (some default) =>
    .object [("type", .string "placeholder"), ("key", .string key),
      ("default_value", .string default)]
  | .conditional key whenTrue none =>
    .object [("type", .string "conditional"), ("condition_key", .string key),
      ("true_branch", .array (listToJson whenTrue))]
  | .conditional key whenTrue (some whenFalse) =>
    .object [("type", .string "conditional"), ("condition_key", .string key),
      ("true_branch", .array (listToJson whenTrue)),
      ("false_branch", .array (listToJson whenFalse))]
  | .iteration name collection body =>
    .object [("type", .string "iteration"), ("iterator_name", .string name),
      ("collection_key", .string collection), ("body", .array (listToJson body))]

/-- The documents of a list of nodes. -/
def listToJson : List Node → List Json
  | [] => []
  | n :: ns => n.toJson :: listToJson ns

end

/-- The text of a list of nodes: an indented document. -/
def write (nodes : List Node) : String :=
  (Json.array (listToJson nodes)).indented

/-! ## Reading kinds -/

/-- A name up to its first backtick. -/
def upToBacktick (s : String) : String :=
  String.ofList (s.toList.takeWhile fun c => c ≠ '\x60')

/-- The kind that a document names. Inside another node the place of the kind among all kinds may
stand for its name. -/
def readKind (inside : Bool) : Json → Except CompileError Kind
  | .string s =>
    match Kind.ofTag? s with
    | some k => .ok k
    | none => .error (.unknownNodeType (upToBacktick s))
  | .number (.integer n _) =>
    match inside, n with
    | true, .ofNat i =>
      match Kind.all[i]? with
      | some k => .ok k
      | none => .error .invalidNodeTree
    | _, _ => .error .invalidNodeTree
  | _ => .error .invalidNodeTree

/-- The kind that the entries of an object name, exactly once. -/
def findKind (inside : Bool) : List (String × Json) → Except CompileError Kind
  | [] => .error .invalidNodeTree
  | (name, v) :: es =>
    if name = "type" then do
      let k ← readKind inside v
      if es.any fun e => e.1 = "type" then .error .invalidNodeTree else .ok k
    else findKind inside es

/-! ## Reading fields -/

/-- What a field was read as. -/
inductive FieldValue where
  | absent
  | text (s : String)
  | nodes (ns : List Node)

/-- The text of a field. -/
def fieldText? (fields : List (String × FieldValue)) (name : String) : Option String :=
  match fields.lookup name with
  | some (.text s) => some s
  | _ => none

/-- The nodes of a field. -/
def fieldNodes? (fields : List (String × FieldValue)) (name : String) : Option (List Node) :=
  match fields.lookup name with
  | some (.nodes ns) => some ns
  | _ => none

/-- The node of a kind with some fields. -/
def Kind.build? (fields : List (String × FieldValue)) : Kind → Option Node
  | .literal => (fieldText? fields "value").map .literal
  | .placeholder =>
    (fieldText? fields "key").map (.placeholder · (fieldText? fields "default_value"))
  | .conditional => do
    let key ← fieldText? fields "condition_key"
    let whenTrue ← fieldNodes? fields "true_branch"
    return .conditional key whenTrue (fieldNodes? fields "false_branch")
  | .iteration => do
    let name ← fieldText? fields "iterator_name"
    let collection ← fieldText? fields "collection_key"
    let body ← fieldNodes? fields "body"
    return .iteration name collection body

/-- The node of a kind with some fields, of which the required ones must be there. -/
def Kind.build (k : Kind) (fields : List (String × FieldValue)) : Except CompileError Node :=
  match k.build? fields with
  | some n => .ok n
  | none => .error .invalidNodeTree

mutual

/-- The node of a document. -/
def ofJson (inside : Bool) : Json → Except CompileError Node
  | .object entries => do
    let k ← findKind inside entries
    let fields ← readEntries k [] entries
    k.build fields
  | .array (tag :: items) => do
    let k ← readKind inside tag
    let fields ← readItems k.fields items
    k.build fields
  | _ => .error .invalidNodeTree

/-- The fields among the entries of an object, none of them twice. -/
def readEntries (k : Kind) (seen : List String) :
    List (String × Json) → Except CompileError (List (String × FieldValue))
  | [] => .ok []
  | (name, v) :: es =>
    match k.fieldType? name with
    | none => readEntries k seen es
    | some t =>
      if name ∈ seen then .error .invalidNodeTree
      else do
        let x ← readField t v
        let xs ← readEntries k (name :: seen) es
        return (name, x) :: xs

/-- The fields of an array, in order; optional ones may be missing at the end. -/
def readItems : List (String × FieldType) → List Json →
    Except CompileError (List (String × FieldValue))
  | fields, [] =>
    if fields.all fun f => f.2.isOptional then .ok [] else .error .invalidNodeTree
  | [], _ :: _ => .error .invalidNodeTree
  | (name, t) :: fields, v :: vs => do
    let x ← readField t v
    let xs ← readItems fields vs
    return (name, x) :: xs

/-- The value of a field. -/
def readField (t : FieldType) : Json → Except CompileError FieldValue
  | .null => if t.isOptional then .ok .absent else .error .invalidNodeTree
  | .string s =>
    match t with
    | .text | .optionalText => .ok (.text s)
    | .nodes | .optionalNodes => .error .invalidNodeTree
  | .array items =>
    match t with
    | .text | .optionalText => .error .invalidNodeTree
    | .nodes | .optionalNodes => do
      let ns ← listOfJson items
      return .nodes ns
  | _ => .error .invalidNodeTree

/-- The nodes of the elements of an array inside a node. -/
def listOfJson : List Json → Except CompileError (List Node)
  | [] => .ok []
  | v :: vs => do
    let n ← ofJson true v
    let ns ← listOfJson vs
    return n :: ns

end

/-! ## Reading texts -/

/-- The nodes of the elements of the outermost array. -/
def outermostOfJson (items : List Json) : Except CompileError (List Node) :=
  items.mapM (ofJson false)

/-- The error of a node that broke off: its kind counts if it was read. -/
def brokenOffError : Json → CompileError
  | .object entries =>
    match findKind false entries with
    | .error e => e
    | .ok _ => .invalidNodeTree
  | .array (tag :: _) =>
    match readKind false tag with
    | .error e => e
    | .ok _ => .invalidNodeTree
  | _ => .invalidNodeTree

/-- The error of a text that broke off, from the outline of what was read: the nodes before come
first, then the kind of the node that broke off. -/
def unfinishedError : List Json → CompileError
  | .array items :: rest =>
    match outermostOfJson items, rest with
    | .error e, _ => e
    | .ok _, current :: _ => brokenOffError current
    | .ok _, [] => .invalidNodeTree
  | _ => .invalidNodeTree

/-- The nodes of a text. -/
def read (text : String) : Except CompileError (List Node) :=
  match Json.read Json.nestingLimit text with
  | .ok (.array items) => outermostOfJson items
  | .ok _ => .error .invalidNodeTree
  | .error state => .error (unfinishedError state.outline)

end Stencil.Node
