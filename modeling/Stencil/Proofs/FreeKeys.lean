import Stencil.Node.Basic
import Stencil.Node.Place

/-!
# Free keys

The keys of a template, said by places instead of by recursion. A key occurs where a node reads it:
as the key of a placeholder or of a condition, or as the collection of a loop. A loop binds its name
in its body and nowhere else; in particular its own collection stands outside of the body. An
occurrence is free if it is in no body of a loop with its name, whatever else is bound there. Main
statement: the keys of a tree are those that occur free in it (`mem_listKeys_iff_occursFree`).
-/

namespace Stencil.Node

/-! ## Occurrences -/

/-- The key that a node reads by itself, apart from the nodes inside it. -/
def ownKey? : Node → Option String
  | .literal _ => none
  | .placeholder key _ => some key
  | .conditional key _ _ => some key
  | .iteration _ collection _ => some collection

/-- The names that a block binds for the nodes in its gap. -/
def Gap.binders : Gap → List String
  | .first _ _ => []
  | .second _ _ => []
  | .body name _ => [name]

/-- The names of the loops that a place is in the body of, the outermost first. -/
def Place.binders : Place → List String
  | .here _ _ => []
  | .inside _ gap place _ => gap.binders ++ place.binders

/-- Some node of the tree reads the key, at a place that is in no body of a loop with that name. -/
def OccursFree (k : String) (nodes : List Node) : Prop :=
  ∃ (p : Place) (n : Node), p.fill n = nodes ∧ n.ownKey? = some k ∧ k ∉ p.binders

namespace OccursFree

variable {k : String} {ns : List Node}

/-- A key that the first node reads occurs free. -/
theorem first {n : Node} (h : n.ownKey? = some k) (ns : List Node) : OccursFree k (n :: ns) :=
  ⟨.here [] ns, n, rfl, h, List.not_mem_nil⟩

/-- A key goes on to occur free behind another node. -/
theorem later (m : Node) (h : OccursFree k ns) : OccursFree k (m :: ns) := by
  obtain ⟨p, n, hfill, hn, hk⟩ := h
  refine ⟨p.cons m, n, ?_, hn, ?_⟩
  · rw [Place.fill_cons, hfill]
  · cases p with
    | here before after => exact hk
    | inside before gap place after => exact hk

/-- A key goes on to occur free in a block that does not bind it. -/
theorem inside (gap : Gap) {inner : List Node} (h : OccursFree k inner) (hk : k ∉ gap.binders)
    (ns : List Node) : OccursFree k (gap.block inner :: ns) := by
  obtain ⟨p, n, hfill, hn, hp⟩ := h
  refine ⟨.inside [] gap p ns, n, ?_, hn, ?_⟩
  · rw [Place.fill, hfill, List.nil_append]
  · rw [Place.binders, List.mem_append]
    exact fun hmem => hmem.elim hk hp

end OccursFree

/-! ## Keys occur free -/

/-- A key of a tree occurs free in it. -/
theorem occursFree_of_mem_listKeys {k : String} (nodes : List Node) (h : k ∈ listKeys nodes) :
    OccursFree k nodes := by
  -- the first node reads the key itself, or a block in it does; otherwise a later node reads it
  induction nodes using listInduction with
  | nil => exact absurd h KeySet.not_mem_empty
  | literal text ns ih =>
    rcases KeySet.mem_union.1 h with h | h
    · exact absurd h KeySet.not_mem_empty
    · exact (ih h).later _
  | placeholder key default ns ih =>
    rcases KeySet.mem_union.1 h with h | h
    · obtain rfl := mem_keys_placeholder.1 h
      exact .first rfl ns
    · exact (ih h).later _
  | conditional key whenTrue ns htrue ih =>
    rcases KeySet.mem_union.1 h with h | h
    · rw [keys, KeySet.mem_insert] at h
      rcases h with rfl | h
      · exact .first rfl ns
      · exact (htrue h).inside (.first key none) List.not_mem_nil ns
    · exact (ih h).later _
  | alternative key whenTrue whenFalse ns htrue hfalse ih =>
    rcases KeySet.mem_union.1 h with h | h
    · rw [keys, KeySet.mem_insert, KeySet.mem_union] at h
      rcases h with rfl | h | h
      · exact .first rfl ns
      · exact (htrue h).inside (.first key (some whenFalse)) List.not_mem_nil ns
      · exact (hfalse h).inside (.second key whenTrue) List.not_mem_nil ns
    · exact (ih h).later _
  | iteration name collection body ns hbody ih =>
    rcases KeySet.mem_union.1 h with h | h
    · rw [keys, KeySet.mem_insert, KeySet.mem_erase] at h
      rcases h with rfl | ⟨h, hname⟩
      · exact .first rfl ns
      · exact (hbody h).inside (.body name collection)
          (fun hmem => hname (List.mem_singleton.1 hmem)) ns
    · exact (ih h).later _

/-! ## What occurs free is a key -/

/-- A node has the key that it reads by itself. -/
theorem mem_keys_of_ownKey? {n : Node} {k : String} (h : n.ownKey? = some k) : k ∈ n.keys := by
  cases n with
  | literal text => cases h
  | placeholder key default =>
    cases h
    exact mem_keys_placeholder.2 rfl
  | conditional key whenTrue whenFalse =>
    cases h
    cases whenFalse with
    | none => exact KeySet.mem_insert.2 (Or.inl rfl)
    | some whenFalse => exact KeySet.mem_insert.2 (Or.inl rfl)
  | iteration name collection body =>
    cases h
    exact KeySet.mem_insert.2 (Or.inl rfl)

/-- A block has the keys of the nodes in its gap, except those that it binds. -/
theorem Gap.mem_keys_block {gap : Gap} {ns : List Node} {k : String} (h : k ∈ listKeys ns)
    (hk : k ∉ gap.binders) : k ∈ (gap.block ns).keys := by
  cases gap with
  | first key whenFalse =>
    cases whenFalse with
    | none => exact KeySet.mem_insert.2 (Or.inr h)
    | some whenFalse => exact KeySet.mem_insert.2 (Or.inr (KeySet.mem_union.2 (Or.inl h)))
  | second key whenTrue => exact KeySet.mem_insert.2 (Or.inr (KeySet.mem_union.2 (Or.inr h)))
  | body name collection =>
    have hname : k ≠ name := fun heq => hk (List.mem_singleton.2 heq)
    exact KeySet.mem_insert.2 (Or.inr (KeySet.mem_erase.2 ⟨h, hname⟩))

/-- A tree has the keys of a node in it, except those that are bound at the place of the node. -/
theorem Place.mem_listKeys_fill {k : String} {n : Node} (hn : k ∈ n.keys) (p : Place)
    (hk : k ∉ p.binders) : k ∈ listKeys (p.fill n) := by
  induction p with
  | here before after =>
    rw [fill, mem_listKeys_append]
    exact Or.inr (keys_subset_listKeys n after k hn)
  | inside before gap place after ih =>
    rw [binders, List.mem_append, not_or] at hk
    have hblock : k ∈ (gap.block (place.fill n)).keys := gap.mem_keys_block (ih hk.2) hk.1
    rw [fill, mem_listKeys_append]
    exact Or.inr (keys_subset_listKeys _ after k hblock)

/-- What occurs free in a tree is a key of it. -/
theorem mem_listKeys_of_occursFree {k : String} {nodes : List Node} (h : OccursFree k nodes) :
    k ∈ listKeys nodes := by
  obtain ⟨p, n, rfl, hn, hk⟩ := h
  exact p.mem_listKeys_fill (mem_keys_of_ownKey? hn) hk

/-! ## The main statement -/

/-- **The keys of a tree are its free keys.** A key belongs to a tree exactly if some node in it, at
any depth, reads that key, and the node is in no body of a loop with that name: places decide, and a
name that is bound in one of them may be free in another one. So the keys of two trees in a row are
those of either, whatever their loops bind. -/
theorem mem_listKeys_iff_occursFree (nodes : List Node) :
    (∀ k, k ∈ listKeys nodes ↔
      ∃ (p : Place) (n : Node), p.fill n = nodes ∧ n.ownKey? = some k ∧ k ∉ p.binders) ∧
    ∀ others, listKeys (nodes ++ others) = listKeys nodes ∪ listKeys others := by
  refine ⟨fun k => ⟨?_, ?_⟩, fun others => ?_⟩
  · exact occursFree_of_mem_listKeys nodes
  · exact mem_listKeys_of_occursFree
  · exact listKeys_append nodes others

/-- A loop over what a loop around it is named after: the name is bound for the inner collection,
and free as the collection of the outer loop. -/
example : (listKeys [.iteration "x" "x" [.iteration "y" "x" [.placeholder "y" none]]]).toList =
    ["x"] := by decide

/-- A name that is bound in a loop and read behind it. -/
example : (listKeys [.iteration "n" "nums" [.placeholder "n" none], .placeholder "n" none]).toList =
    ["n", "nums"] := by decide

end Stencil.Node
