import Stencil.Node.Basic

/-!
# Places in a tree

A place in a tree is the tree without one of its nodes, which may stand at any depth; it is filled
with a node to give the tree. Main statement: every node of a tree has its place (`exists_fill_eq`).
-/

namespace Stencil.Node

/-! ## Places -/

/-- A block without one of its lists of nodes. -/
inductive Gap where
  /-- A conditional without its first branch. -/
  | first (key : String) (whenFalse : Option (List Node))
  /-- A conditional without its second branch. -/
  | second (key : String) (whenTrue : List Node)
  /-- A loop without its body. -/
  | body (name collection : String)

/-- The block with its list of nodes. -/
def Gap.block : Gap → List Node → Node
  | .first key whenFalse, ns => .conditional key ns whenFalse
  | .second key whenTrue, ns => .conditional key whenTrue (some ns)
  | .body name collection, ns => .iteration name collection ns

/-- A list of nodes without one of the nodes in it, at any depth. -/
inductive Place where
  /-- The node stands in the list itself. -/
  | here (before after : List Node)
  /-- The node stands inside a block of the list. -/
  | inside (before : List Node) (gap : Gap) (place : Place) (after : List Node)

/-- The list with a node in the place. -/
def Place.fill (n : Node) : Place → List Node
  | .here before after => before ++ n :: after
  | .inside before gap place after => before ++ gap.block (place.fill n) :: after

/-- The place with one more node in front. -/
def Place.cons (m : Node) : Place → Place
  | .here before after => .here (m :: before) after
  | .inside before gap place after => .inside (m :: before) gap place after

/-- A node in front of a place stands in front of the list. -/
theorem Place.fill_cons (m n : Node) (p : Place) : (p.cons m).fill n = m :: p.fill n := by
  cases p with
  | here before after => rfl
  | inside before gap place after => rfl

mutual

/-- A node and the nodes inside it, at any depth. -/
def subnodes : Node → List Node
  | .literal text => [.literal text]
  | .placeholder key default => [.placeholder key default]
  | .conditional key whenTrue none => .conditional key whenTrue none :: listSubnodes whenTrue
  | .conditional key whenTrue (some whenFalse) =>
    .conditional key whenTrue (some whenFalse) :: (listSubnodes whenTrue ++ listSubnodes whenFalse)
  | .iteration name collection body => .iteration name collection body :: listSubnodes body

/-- The nodes of a list and the nodes inside them, at any depth. -/
def listSubnodes : List Node → List Node
  | [] => []
  | n :: ns => n.subnodes ++ listSubnodes ns

end

/-- Every node of a tree has its place. -/
theorem exists_fill_eq {n : Node} (nodes : List Node) (h : n ∈ listSubnodes nodes) :
    ∃ p : Place, p.fill n = nodes := by
  -- the first node itself is in the place before the others, and the others keep their places
  have hfirst (m : Node) (ns : List Node) : n = m → ∃ p : Place, p.fill n = m :: ns := by
    rintro rfl
    exact ⟨.here [] ns, rfl⟩
  have hinside (gap : Gap) {inner : List Node} (ns : List Node)
      (hinner : ∃ p : Place, p.fill n = inner) : ∃ p : Place, p.fill n = gap.block inner :: ns := by
    obtain ⟨p, hp⟩ := hinner
    exact ⟨.inside [] gap p ns, by rw [Place.fill, hp, List.nil_append]⟩
  have hlater (m : Node) {ns : List Node} (hns : ∃ p : Place, p.fill n = ns) :
      ∃ p : Place, p.fill n = m :: ns := by
    obtain ⟨p, hp⟩ := hns
    exact ⟨p.cons m, by rw [Place.fill_cons, hp]⟩
  induction nodes using listInduction with
  | nil => cases h
  | literal text ns ih =>
    rcases List.mem_append.1 h with h | h
    · exact hfirst _ ns (List.mem_singleton.1 h)
    · exact hlater _ (ih h)
  | placeholder key default ns ih =>
    rcases List.mem_append.1 h with h | h
    · exact hfirst _ ns (List.mem_singleton.1 h)
    · exact hlater _ (ih h)
  | conditional key whenTrue ns htrue ih =>
    rcases List.mem_append.1 h with h | h
    · rcases List.mem_cons.1 h with h | h
      · exact hfirst _ ns h
      · exact hinside (.first key none) ns (htrue h)
    · exact hlater _ (ih h)
  | alternative key whenTrue whenFalse ns htrue hfalse ih =>
    rcases List.mem_append.1 h with h | h
    · rcases List.mem_cons.1 h with h | h
      · exact hfirst _ ns h
      · rcases List.mem_append.1 h with h | h
        · exact hinside (.first key (some whenFalse)) ns (htrue h)
        · exact hinside (.second key whenTrue) ns (hfalse h)
    · exact hlater _ (ih h)
  | iteration name collection body ns hbody ih =>
    rcases List.mem_append.1 h with h | h
    · rcases List.mem_cons.1 h with h | h
      · exact hfirst _ ns h
      · exact hinside (.body name collection) ns (hbody h)
    · exact hlater _ (ih h)

end Stencil.Node
