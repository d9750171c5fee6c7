import Stencil.Proofs.Copying

/-!
# What a template depends on

The keys that a template reads are all that it depends on: a name that a loop binds hides what the
data holds under it, and whatever else the data holds is looked at by the checks alone, which see no
values. Main statement: two renderings are the same if the data agree on the keys that are read and
the checks cannot tell them apart (`run_eq_run_of_agreeOn`).
-/

namespace Stencil

/-! ## Data that agree -/

/-- Each key of the set has the same value in both data, or in neither of them any. -/
def AgreeOn (s : KeySet) (d e : Data) : Prop :=
  ∀ k ∈ s, d.get? k = e.get? k

/-- Data that agree on some keys agree on fewer of them. -/
theorem AgreeOn.mono {s t : KeySet} {d e : Data} (h : AgreeOn t d e) (hst : s ⊆ t) :
    AgreeOn s d e := by
  intro k hk
  exact h k (hst k hk)

/-- A name that is bound to one value in both data need not have agreed before. -/
theorem AgreeOn.insert {s : KeySet} {d e : Data} {name : String} (h : AgreeOn (s.erase name) d e)
    (v : Value) : AgreeOn s (d.insert name v) (e.insert name v) := by
  intro k hk
  rw [KeyMap.get?_insert, KeyMap.get?_insert]
  by_cases hname : k = name
  · rw [if_pos hname, if_pos hname]
  · rw [if_neg hname, if_neg hname]
    exact h k (KeySet.mem_erase.2 ⟨hk, hname⟩)

/-- An insertion of a key outside of the set is not seen by the set. -/
theorem agreeOn_insert {s : KeySet} {k : String} (hk : k ∉ s) (d : Data) (v : Value) :
    AgreeOn s (d.insert k v) d := by
  intro x hx
  have hne : x ≠ k := fun heq => hk (heq ▸ hx)
  rw [KeyMap.get?_insert, if_neg hne]

/-- Data with the same keys list them in the same order. -/
theorem keys_eq_of_mem_iff {d e : Data} (h : ∀ k, k ∈ d.keys ↔ k ∈ e.keys) : d.keys = e.keys :=
  eq_of_pairwise_of_mem (pairwise_keys d) (pairwise_keys e) h

/-- A value in place of another one leaves the keys as they are. -/
theorem keys_insert_of_mem {d : Data} {k : String} (hk : k ∈ d.keys) (v : Value) :
    (d.insert k v).keys = d.keys := by
  refine keys_eq_of_mem_iff fun x => ?_
  rw [KeyMap.mem_keys_insert]
  refine ⟨?_, Or.inr⟩
  rintro (rfl | hx)
  · exact hk
  · exact hx

namespace Copying

/-! ## Checks that come out alike -/

/-- Two walks, each in a block that was given some keys and accepts some, on data of its own, and
the checks of the blocks inside come out alike in both. -/
inductive CheckedAlike (mode : KeyValidation) :
    KeySet → KeySet → Data → KeySet → KeySet → Data → Prop
  /-- The blocks do not differ, and neither do the keys of the data. -/
  | sameKeys {base accepted : KeySet} {d e : Data} (h : d.keys = e.keys) :
    CheckedAlike mode base accepted d base accepted e
  /-- Both blocks accept all keys of their data, and so do the blocks inside. -/
  | allAccepted {base accepted base' accepted' : KeySet} {d e : Data} (hmode : mode = .inherited)
    (hd : ∀ k ∈ d.keys, k ∈ accepted) (he : ∀ k ∈ e.keys, k ∈ accepted') :
    CheckedAlike mode base accepted d base' accepted' e

section Alike

variable {mode : KeyValidation} {base accepted base' accepted' : KeySet} {d e : Data}

/-- The checks of the two blocks come out alike. -/
theorem CheckedAlike.check (h : CheckedAlike mode base accepted d base' accepted' e) :
    accepted.check d.keys = accepted'.check e.keys := by
  cases h with
  | sameKeys h => rw [h]
  | allAccepted _ hd he =>
    rw [(KeySet.check_eq_ok_iff _ _).2 hd, (KeySet.check_eq_ok_iff _ _).2 he]

/-- The checks come out alike in a branch of both blocks. -/
theorem CheckedAlike.branch (h : CheckedAlike mode base accepted d base' accepted' e)
    (key : String) (nodes : List Node) :
    CheckedAlike mode (branchBase mode base accepted key)
      (branchBase mode base accepted key ∪ Node.listKeys nodes) d
      (branchBase mode base' accepted' key)
      (branchBase mode base' accepted' key ∪ Node.listKeys nodes) e := by
  cases h with
  | sameKeys h => exact .sameKeys h
  | allAccepted hmode hd he =>
    subst hmode
    refine .allAccepted rfl (fun k hk => ?_) (fun k hk => ?_)
    · exact KeySet.subset_union_left accepted _ k (hd k hk)
    · exact KeySet.subset_union_left accepted' _ k (he k hk)

/-- The checks come out alike in the body of a loop that binds the same element in both blocks. -/
theorem CheckedAlike.body (h : CheckedAlike mode base accepted d base' accepted' e)
    (name collection : String) (v : Value) (nodes : List Node) :
    CheckedAlike mode (bodyBase mode base accepted name collection)
      (bodyBase mode base accepted name collection ∪ Node.listKeys nodes) (d.insert name v)
      (bodyBase mode base' accepted' name collection)
      (bodyBase mode base' accepted' name collection ∪ Node.listKeys nodes)
      (e.insert name v) := by
  cases h with
  | sameKeys h =>
    refine .sameKeys (keys_eq_of_mem_iff fun k => ?_)
    rw [KeyMap.mem_keys_insert, KeyMap.mem_keys_insert, h]
  | allAccepted hmode hd he =>
    subst hmode
    have hbound : ∀ (acc : KeySet) (data : Data), (∀ k ∈ data.keys, k ∈ acc) →
        ∀ k ∈ (data.insert name v).keys, k ∈ acc.insert name ∪ Node.listKeys nodes := by
      intro acc data hdata k hk
      rw [KeySet.mem_union, KeySet.mem_insert]
      exact Or.inl ((KeyMap.mem_keys_insert.1 hk).imp_right (hdata k))
    exact .allAccepted rfl (hbound accepted d hd) (hbound accepted' e he)

end Alike

/-! ## Walks on data that agree -/

section Walks

variable {mode : KeyValidation} {escape : String → String}

/-- A placeholder looks at its own key alone. -/
theorem place_congr {d e : Data} {key : String} (h : d.get? key = e.get? key)
    (default : Option String) : place escape d key default = place escape e key default := by
  unfold place
  rw [h]

/-- A condition looks at its own key alone. -/
theorem holds_congr {d e : Data} {key : String} (h : d.get? key = e.get? key) :
    holds d key = holds e key := by
  unfold holds
  rw [h]

/-- A loop looks for its elements at its collection alone. -/
theorem collection_congr {d e : Data} {key : String} (h : d.get? key = e.get? key) :
    (Scope.root d).collection key = (Scope.root e).collection key := by
  unfold Scope.collection Scope.lookup
  rw [h]

/-- Two blocks do the same if their nodes do and their checks come out alike. -/
theorem block_congr {base base' : KeySet} {d e : Data} {nodes : List Node}
    (h : CheckedAlike mode base (base ∪ Node.listKeys nodes) d base' (base' ∪ Node.listKeys nodes) e)
    (hnodes : walkAll mode escape base (base ∪ Node.listKeys nodes) d nodes =
      walkAll mode escape base' (base' ∪ Node.listKeys nodes) e nodes) :
    block mode escape base d nodes = block mode escape base' e nodes := by
  rw [block, block, guarded, guarded, h.check, hnodes]

/-- **Walks depend on what is read.** Two walks over some nodes do the same on data that agree on
the keys that the nodes read, if the checks come out alike. -/
theorem walkAll_congr (nodes : List Node) {base accepted base' accepted' : KeySet} {d e : Data}
    (h : CheckedAlike mode base accepted d base' accepted' e)
    (hagree : AgreeOn (Node.listKeys nodes) d e) :
    walkAll mode escape base accepted d nodes = walkAll mode escape base' accepted' e nodes := by
  -- the data vary, since a loop binds its name in both; agreement on the body's other keys is enough
  induction nodes using Node.listInduction generalizing base accepted base' accepted' d e with
  | nil => rfl
  | literal text ns ih =>
    have hns := hagree.mono (Node.listKeys_subset_listKeys _ ns)
    rw [walkAll_cons, walkAll_cons, ih h hns]
    rfl
  | placeholder key default ns ih =>
    have hns := hagree.mono (Node.listKeys_subset_listKeys _ ns)
    have hn := hagree.mono (Node.keys_subset_listKeys _ ns)
    have hkey := hn key (Node.mem_keys_placeholder.2 rfl)
    rw [walkAll_cons, walkAll_cons, ih h hns, walk, walk, place_congr hkey]
  | conditional key whenTrue ns iht ih =>
    have hns := hagree.mono (Node.listKeys_subset_listKeys _ ns)
    have hn := hagree.mono (Node.keys_subset_listKeys _ ns)
    have hkey := hn key (by simp [Node.keys])
    have hagreet : AgreeOn (Node.listKeys whenTrue) d e := hn.mono fun k hk => by
      simp [Node.keys, hk]
    have ht := h.branch key whenTrue
    rw [walkAll_cons, walkAll_cons, ih h hns, walk_conditional, walk_conditional, holds_congr hkey,
      block_congr ht (iht ht hagreet)]
  | alternative key whenTrue whenFalse ns iht ihf ih =>
    have hns := hagree.mono (Node.listKeys_subset_listKeys _ ns)
    have hn := hagree.mono (Node.keys_subset_listKeys _ ns)
    have hkey := hn key (by simp [Node.keys])
    have hagreet : AgreeOn (Node.listKeys whenTrue) d e := hn.mono fun k hk => by
      simp [Node.keys, hk]
    have hagreef : AgreeOn (Node.listKeys whenFalse) d e := hn.mono fun k hk => by
      simp [Node.keys, hk]
    have ht := h.branch key whenTrue
    have hf := h.branch key whenFalse
    rw [walkAll_cons, walkAll_cons, ih h hns, walk_alternative, walk_alternative, holds_congr hkey,
      block_congr ht (iht ht hagreet), block_congr hf (ihf hf hagreef)]
  | iteration name collection body ns ihb ih =>
    have hns := hagree.mono (Node.listKeys_subset_listKeys _ ns)
    have hn := hagree.mono (Node.keys_subset_listKeys _ ns)
    have hcollection := hn collection (by simp [Node.keys])
    have houter : AgreeOn ((Node.listKeys body).erase name) d e := hn.mono fun k hk => by
      rw [Node.keys, KeySet.mem_insert]
      exact Or.inr hk
    have hb : ∀ v, block mode escape (bodyBase mode base accepted name collection)
          (d.insert name v) body =
        block mode escape (bodyBase mode base' accepted' name collection)
          (e.insert name v) body := by
      intro v
      have hv := h.body name collection v body
      exact block_congr hv (ihb hv (houter.insert v))
    rw [walkAll_cons, walkAll_cons, ih h hns, walk_iteration, walk_iteration, collection_congr hcollection]
    simp only [hb]

/-- A template does the same on data that agree on the keys that it reads, if the checks come out
alike. -/
theorem block_eq_of_agreeOn {base base' : KeySet} {d e : Data} {nodes : List Node}
    (h : CheckedAlike mode base (base ∪ Node.listKeys nodes) d base' (base' ∪ Node.listKeys nodes) e)
    (hagree : AgreeOn (Node.listKeys nodes) d e) :
    block mode escape base d nodes = block mode escape base' e nodes :=
  block_congr h (walkAll_congr nodes h hagree)

end Walks

end Copying

/-! ## The main statement -/

/-- **A template depends on the keys that it reads.** A tree within the ceiling is compiled with
either kind of blocks. If two data agree on the keys that the tree reads, then both renderings are
the same: with blocks that accept what is accepted around them if the tree accepts all keys of the
data, and with isolated blocks if the data have the same keys. So a value of a key that is not read
may be replaced by any other one, and no rendering changes. -/
theorem run_eq_run_of_agreeOn (maxDepth : Nat) (inherited : KeySet) (nodes : List Node)
    (h : Node.listDepth nodes ≤ maxDepth) :
    ∃ nested isolated, Block.compile maxDepth .inherited inherited nodes = .ok nested ∧
      Block.compile maxDepth .isolated inherited nodes = .ok isolated ∧
      ∀ (escape : String → String) (d : Data),
        (∀ e, AgreeOn (Node.listKeys nodes) d e →
          ((∀ k, k ∈ d.keys ∨ k ∈ e.keys → k ∈ inherited ∪ Node.listKeys nodes) →
            nested.run escape d = nested.run escape e) ∧
          ((∀ k, k ∈ d.keys ↔ k ∈ e.keys) → isolated.run escape d = isolated.run escape e)) ∧
        ∀ k ∈ d.keys, k ∉ Node.listKeys nodes → ∀ v,
          nested.run escape (d.insert k v) = nested.run escape d ∧
            isolated.run escape (d.insert k v) = isolated.run escape d := by
  refine ⟨_, _, Block.compile_eq_ok h .inherited inherited,
    Block.compile_eq_ok h .isolated inherited, fun escape d => ⟨fun e hagree => ⟨?_, ?_⟩, ?_⟩⟩
  · intro hkeys
    rw [Copying.run_ofNodes_eq_block, Copying.run_ofNodes_eq_block]
    exact Copying.block_eq_of_agreeOn (.allAccepted rfl (fun k hk => hkeys k (Or.inl hk))
      fun k hk => hkeys k (Or.inr hk)) hagree
  · intro hkeys
    rw [Copying.run_ofNodes_eq_block, Copying.run_ofNodes_eq_block]
    exact Copying.block_eq_of_agreeOn (.sameKeys (keys_eq_of_mem_iff hkeys)) hagree
  · intro k hk hread v
    have hkeys := keys_insert_of_mem hk v
    have hagree := agreeOn_insert hread d v
    simp only [Copying.run_ofNodes_eq_block]
    exact ⟨Copying.block_eq_of_agreeOn (.sameKeys hkeys) hagree,
      Copying.block_eq_of_agreeOn (.sameKeys hkeys) hagree⟩

/-- A key that the data hold under the name of a loop, and one that is inherited only: neither value
is looked at, and with blocks that accept what is accepted around them neither key need be there. -/
theorem run_eq_run_of_agreeOn_hidden :
    Node.listDepth [.iteration "x" "xs" [.placeholder "x" none]] ≤ 1 ∧
    ∃ nested isolated,
      Block.compile 1 .inherited (KeySet.ofList ["i", "x"])
        [.iteration "x" "xs" [.placeholder "x" none]] = .ok nested ∧
      Block.compile 1 .isolated (KeySet.ofList ["i", "x"])
        [.iteration "x" "xs" [.placeholder "x" none]] = .ok isolated ∧
      nested.run id (KeyMap.ofList [("xs", .array [.bool true]), ("x", .string "a")]) =
        nested.run id (KeyMap.ofList [("xs", .array [.bool true]), ("i", .null)]) ∧
      isolated.run id (KeyMap.ofList [("xs", .array [.bool true]), ("x", .string "a")]) =
        isolated.run id (KeyMap.ofList [("xs", .array [.bool true]), ("x", .safe "b")]) ∧
      nested.run id ((KeyMap.ofList [("xs", .array [.bool true]), ("x", .string "a")]).insert "x"
          (.array [])) =
        nested.run id (KeyMap.ofList [("xs", .array [.bool true]), ("x", .string "a")]) := by
  have hdepth : Node.listDepth [.iteration "x" "xs" [.placeholder "x" none]] ≤ 1 := by decide
  refine ⟨hdepth, ?_⟩
  obtain ⟨nested, isolated, hnested, hisolated, hrun⟩ :=
    run_eq_run_of_agreeOn 1 (KeySet.ofList ["i", "x"]) _ hdepth
  refine ⟨nested, isolated, hnested, hisolated, ((hrun id _).1 _ ?_).1 ?_, ((hrun id _).1 _ ?_).2 ?_,
    ((hrun id _).2 "x" (by decide) (by decide) _).1⟩
  · intro k hk
    obtain rfl : k = "xs" := List.mem_singleton.1 hk
    rfl
  · rintro k (hk | hk)
    · revert k
      decide
    · revert k
      decide
  · intro k hk
    obtain rfl : k = "xs" := List.mem_singleton.1 hk
    rfl
  · intro k
    rfl

end Stencil
