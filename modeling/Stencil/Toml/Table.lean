/-!
# Tables of a settings text

A settings text names its values by paths of keys. Tables come into being in three ways: by a
header of their own, as part of the path in the header of another table, and as part of a dotted
key. A table is defined once: a header may only complete a table that arose from other headers, and
a dotted key may only go through tables that other dotted keys or headers of inner tables left
open.
-/

namespace Stencil

/-- A value of a settings text. Of doubles and dates nothing is kept. -/
inductive Toml where
  | string (s : String)
  | integer (n : Int)
  | float
  | bool (b : Bool)
  | datetime
  | array (items : List Toml)
  | table (entries : List (String × Toml))
  deriving Repr

namespace Toml

/-- How a table came into being. -/
inductive Origin where
  /-- By a header of its own. -/
  | header
  /-- As part of the path of another table's header. -/
  | path
  /-- As part of a dotted key. -/
  | dotted
  deriving DecidableEq, Repr

/-- What a key stands for while the text is read. -/
inductive Item where
  | value (v : Toml)
  | table (origin : Origin) (entries : List (String × Item))
  /-- A table for each of several headers, the last one first. -/
  | tables (last : List (String × Item)) (others : List (List (String × Item)))

/-- The entries of a table while the text is read. -/
abbrev Entries := List (String × Item)

/-! ## Changing tables -/

/-- The entries with another item for a key, which is there already. -/
def replaceItem (key : String) (item : Item) (es : Entries) : Entries :=
  es.map fun e => if e.1 = key then (key, item) else e

/-- Changes the table at a path. Tables missing on the way arise from the path; of several tables
for one key the last one is meant. -/
def modify (change : Entries → Option Entries) : List String → Entries → Option Entries
  | [], es => change es
  | key :: keys, es =>
    match es.lookup key with
    | none => do
      let inner ← modify change keys []
      return es ++ [(key, .table .path inner)]
    | some (.value _) => none
    | some (.table origin inner) => do
      let inner ← modify change keys inner
      return replaceItem key (.table origin inner) es
    | some (.tables last others) => do
      let last ← modify change keys last
      return replaceItem key (.tables last others) es

/-- Puts a new value into a table. -/
def define (key : String) (v : Toml) (es : Entries) : Option Entries :=
  if (es.lookup key).isSome then none else some (es ++ [(key, .value v)])

/-- Puts a new value into the table that a dotted key leads to, where `path` is the key without its
last part. That table must have arisen from dotted keys. -/
def defineDotted (key : String) (v : Toml) : List String → Entries → Option Entries
  | [], es => define key v es
  | part :: path, es =>
    match es.lookup part with
    | none => do
      let inner ← defineDotted key v path []
      return es ++ [(part, .table .dotted inner)]
    | some (.table .dotted inner) => do
      let inner ← defineDotted key v path inner
      return replaceItem part (.table .dotted inner) es
    | some (.table .path inner) =>
      if path = [] then none
      else do
        let inner ← defineDotted key v path inner
        return replaceItem part (.table .path inner) es
    | some (.tables last others) =>
      if path = [] then none
      else do
        let last ← defineDotted key v path last
        return replaceItem part (.tables last others) es
    | some (.table .header _) => none
    | some (.value _) => none

/-- Starts the table of a header. -/
def startTable (key : String) (es : Entries) : Option Entries :=
  match es.lookup key with
  | none => some (es ++ [(key, .table .header [])])
  | some (.table .path inner) => some (replaceItem key (.table .header inner) es)
  | some _ => none

/-- Starts one more of several tables with the same header. -/
def startElement (key : String) (es : Entries) : Option Entries :=
  match es.lookup key with
  | none => some (es ++ [(key, .tables [] [])])
  | some (.tables last others) => some (replaceItem key (.tables [] (last :: others)) es)
  | some _ => none

/-! ## Finished tables -/

mutual

/-- The value that an item has in the end. -/
def Item.finish : Item → Toml
  | .value v => v
  | .table _ entries => .table (finishEntries entries)
  | .tables last others => .array ((.table (finishEntries last) :: finishTables others).reverse)

/-- The entries that a table has in the end. -/
def finishEntries : List (String × Item) → List (String × Toml)
  | [] => []
  | (key, item) :: es => (key, item.finish) :: finishEntries es

/-- The values that some tables have in the end. -/
def finishTables : List (List (String × Item)) → List Toml
  | [] => []
  | entries :: others => .table (finishEntries entries) :: finishTables others

end

/-! ## Statements -/

/-- What a line of a settings text says. -/
inductive Statement where
  /-- The entries that follow belong to the table at a path. -/
  | header (path : List String) (key : String)
  /-- The entries that follow belong to one more table at a path. -/
  | element (path : List String) (key : String)
  /-- A key has a value; `path` is the key without its last part. -/
  | entry (path : List String) (key : String) (v : Toml)

/-- The tables of some statements, where `here` is the path of the table that entries belong to. -/
def statements (here : List String) (root : Entries) : List Statement → Option Entries
  | [] => some root
  | .header path key :: rest => do
    let root ← modify (startTable key) path root
    statements (path ++ [key]) root rest
  | .element path key :: rest => do
    let root ← modify (startElement key) path root
    statements (path ++ [key]) root rest
  | .entry path key v :: rest => do
    let root ← modify (defineDotted key v path) here root
    statements here root rest

end Toml

end Stencil
