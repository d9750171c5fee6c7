import Stencil.KeySet

/-!
# Node trees

A template is a list of nodes: literal text, placeholders for values, and the two kinds of block,
which hold further lists of nodes. A tree reads keys from its data. The name of a loop is bound by
the loop itself, so it is no key of the body; the collection of the loop is read outside of it. Main
statement: the keys of two lists in a row are those of either (`listKeys_append`).
-/

namespace Stencil

/-- The kinds of block. -/
inductive BlockKind where
  | conditional
  | iteration
  deriving DecidableEq, Repr

/-- The name of the directive that opens a block. -/
def BlockKind.opener : BlockKind → String
  | .conditional => "@if"
  | .iteration => "@for"

/-- The name of the directive that closes a block. -/
def BlockKind.closer : BlockKind → String
  | .conditional => "@endif"
  | .iteration => "@endfor"

/-- A node of a template. -/
inductive Node where
  /-- Text that is copied. -/
  | literal (text : String)
  /-- The value of a key, or a default where the key has none. -/
  | placeholder (key : String) (default : Option String)
  /-- One of two branches; the second one may be missing. -/
  | conditional (key : String) (whenTrue : List Node) (whenFalse : Option (List Node))
  /-- A body that is repeated for each element of a collection, under a name of its own. -/
  | iteration (name collection : String) (body : List Node)
  deriving Repr

namespace Node

/-! ## Induction -/

section Induction

variable {P : List Node → Prop} (nil : P [])
  (literal : ∀ text ns, P ns → P (.literal text :: ns))
  (placeholder : ∀ key default ns, P ns → P (.placeholder key default :: ns))
  (conditional : ∀ key whenTrue ns, P whenTrue → P ns → P (.conditional key whenTrue none :: ns))
  (alternative : ∀ key whenTrue whenFalse ns, P whenTrue → P whenFalse → P ns →
    P (.conditional key whenTrue (some whenFalse) :: ns))
  (iteration : ∀ name collection body ns, P body → P ns →
    P (.iteration name collection body :: ns))

include nil literal placeholder conditional alternative iteration

/-- Induction over a list of nodes and the lists inside its blocks. -/
@[elab_as_elim]
theorem listInduction : ∀ nodes, P nodes
  | [] => nil
  | .literal text :: ns => literal text ns (listInduction ns)
  | .placeholder key default :: ns => placeholder key default ns (listInduction ns)
  | .conditional key whenTrue none :: ns =>
    conditional key whenTrue ns (listInduction whenTrue) (listInduction ns)
  | .conditional key whenTrue (some whenFalse) :: ns =>
    alternative key whenTrue whenFalse ns (listInduction whenTrue) (listInduction whenFalse)
      (listInduction ns)
  | .iteration name collection body :: ns =>
    iteration name collection body ns (listInduction body) (listInduction ns)

end Induction

/-! ## Nesting -/

mutual

/-- The number of blocks that stand inside one another in a node. -/
def depth : Node → Nat
  | .literal _ => 0
  | .placeholder _ _ => 0
  | .conditional _ whenTrue none => 1 + listDepth whenTrue
  | .conditional _ whenTrue (some whenFalse) => 1 + max (listDepth whenTrue) (listDepth whenFalse)
  | .iteration _ _ body => 1 + listDepth body

/-- The number of blocks that stand inside one another in a list of nodes. -/
def listDepth : List Node → Nat
  | [] => 0
  | n :: ns => max n.depth (listDepth ns)

end

/-- Two lists in a row nest as deep as the deeper one. -/
theorem listDepth_append (ms ns : List Node) :
    listDepth (ms ++ ns) = max (listDepth ms) (listDepth ns) := by
  induction ms with
  | nil => simp [listDepth]
  | cons m ms ih => simp [listDepth, ih, Nat.max_assoc]

/-! ## Needs -/

mutual

/-- Whether a node asks for data: a placeholder without a default does, and so does any condition;
a loop does if its body does. -/
def requiresData : Node → Bool
  | .literal _ => false
  | .placeholder _ default => default.isNone
  | .conditional _ _ _ => true
  | .iteration _ _ body => listRequiresData body

/-- Whether a list of nodes asks for data. -/
def listRequiresData : List Node → Bool
  | [] => false
  | n :: ns => n.requiresData || listRequiresData ns

end

/-! ## Keys -/

mutual

/-- The keys that a node reads. -/
def keys : Node → KeySet
  | .literal _ => ∅
  | .placeholder key _ => KeySet.empty.insert key
  | .conditional key whenTrue none => (listKeys whenTrue).insert key
  | .conditional key whenTrue (some whenFalse) =>
    (listKeys whenTrue ∪ listKeys whenFalse).insert key
  | .iteration name collection body => ((listKeys body).erase name).insert collection

/-- The keys that a list of nodes reads. -/
def listKeys : List Node → KeySet
  | [] => ∅
  | n :: ns => n.keys ∪ listKeys ns

end

/-- A placeholder reads its key. -/
theorem mem_keys_placeholder {key k : String} {default : Option String} :
    k ∈ (Node.placeholder key default).keys ↔ k = key := by
  rw [keys, KeySet.mem_insert]
  exact ⟨fun h => h.resolve_right KeySet.not_mem_empty, Or.inl⟩

/-- A list reads what its first node reads. -/
theorem keys_subset_listKeys (n : Node) (ns : List Node) : n.keys ⊆ listKeys (n :: ns) :=
  KeySet.subset_union_left n.keys (listKeys ns)

/-- A list reads what the nodes behind its first one read. -/
theorem listKeys_subset_listKeys (n : Node) (ns : List Node) : listKeys ns ⊆ listKeys (n :: ns) :=
  KeySet.subset_union_right n.keys (listKeys ns)

/-- The keys of two lists in a row. -/
theorem mem_listKeys_append {ms ns : List Node} {k : String} :
    k ∈ listKeys (ms ++ ns) ↔ k ∈ listKeys ms ∨ k ∈ listKeys ns := by
  induction ms with
  | nil => simp [listKeys]
  | cons m ms ih => simp [listKeys, ih, or_assoc]

/-- The keys of two lists in a row are those of either. -/
theorem listKeys_append (ms ns : List Node) :
    listKeys (ms ++ ns) = listKeys ms ∪ listKeys ns :=
  KeySet.ext fun k => by simp [mem_listKeys_append]

end Node

end Stencil
