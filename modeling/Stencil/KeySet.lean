/-!
# Sets of keys

A set of keys is a list in increasing order, so that equal sets are equal lists and "the first key"
means the least one. Main statements: each operation says what its members are (`mem_insert`,
`mem_erase`, `mem_union`, `mem_ofList`), and a set is determined by its members (`ext`).
-/

namespace Stencil

/-! ## Order of keys -/

/-- Of two different keys one comes first. -/
theorem key_lt_of_not_lt_of_ne {a b : String} (h : ¬a < b) (hne : a ≠ b) : b < a := by
  rcases String.le_total a b with hab | hba
  · exact absurd (String.le_antisymm hab (String.not_lt.1 h)) hne
  · exact String.not_le.1 fun hab => hne (String.le_antisymm hab hba)

/-- A key with its place in increasing order. -/
def insertKey (k : String) : List String → List String
  | [] => [k]
  | x :: xs => if k < x then k :: x :: xs else if k = x then x :: xs else x :: insertKey k xs

/-- The members after an insertion. -/
theorem mem_insertKey {k x : String} {xs : List String} : x ∈ insertKey k xs ↔ x = k ∨ x ∈ xs := by
  induction xs with
  | nil => simp [insertKey]
  | cons y ys ih =>
    rw [insertKey]
    split
    · simp
    · split
      · next h => subst h; simp
      · simp only [List.mem_cons, ih]
        constructor <;> (intro h; rcases h with h | h | h <;> simp [h])

/-- An insertion keeps the order. -/
theorem pairwise_insertKey {k : String} {xs : List String} (h : xs.Pairwise (· < ·)) :
    (insertKey k xs).Pairwise (· < ·) := by
  induction h with
  | nil => simp [insertKey]
  | @cons x xs hx _ ih =>
    rw [insertKey]
    split
    · next hk =>
      refine .cons (fun y hy => ?_) (.cons hx ‹_›)
      rcases List.mem_cons.1 hy with rfl | hy
      · exact hk
      · exact String.lt_trans hk (hx y hy)
    · split
      · exact .cons hx ‹_›
      · next hk hne =>
        refine .cons (fun y hy => ?_) ih
        rcases mem_insertKey.1 hy with rfl | hy
        · exact key_lt_of_not_lt_of_ne hk hne
        · exact hx y hy

/-- Two lists in increasing order with the same members are the same list. -/
theorem eq_of_pairwise_of_mem {xs ys : List String} (hx : xs.Pairwise (· < ·))
    (hy : ys.Pairwise (· < ·)) (h : ∀ k, k ∈ xs ↔ k ∈ ys) : xs = ys := by
  induction hx generalizing ys with
  | nil =>
    cases ys with
    | nil => rfl
    | cons y ys => exact absurd ((h y).2 (by simp)) (by simp)
  | @cons x xs hx' hxs ih =>
    cases hy with
    | nil => exact absurd ((h x).1 (by simp)) (by simp)
    | @cons y ys hy' hys =>
      have hxy : x = y := by
        rcases List.mem_cons.1 ((h x).1 (by simp)) with e | hm
        · exact e
        · rcases List.mem_cons.1 ((h y).2 (by simp)) with e | hm'
          · exact e.symm
          · exact absurd (String.lt_trans (hy' x hm) (hx' y hm')) (String.lt_irrefl y)
      subst hxy
      congr 1
      refine ih hys fun k => ?_
      constructor
      · intro hk
        rcases List.mem_cons.1 ((h k).1 (by simp [hk])) with e | hm
        · exact absurd (e ▸ hx' k hk) (String.lt_irrefl _)
        · exact hm
      · intro hk
        rcases List.mem_cons.1 ((h k).2 (by simp [hk])) with e | hm
        · exact absurd (e ▸ hy' k hk) (String.lt_irrefl _)
        · exact hm

/-! ## Sets -/

/-- A finite set of keys. -/
structure KeySet where
  /-- The members in increasing order. -/
  toList : List String
  sorted : toList.Pairwise (· < ·)
  deriving DecidableEq

namespace KeySet

instance : Membership String KeySet := ⟨fun s k => k ∈ s.toList⟩

instance (k : String) (s : KeySet) : Decidable (k ∈ s) := inferInstanceAs (Decidable (k ∈ s.toList))

/-- A member of the list is a member of the set. -/
@[simp] theorem mem_toList {k : String} {s : KeySet} : k ∈ s.toList ↔ k ∈ s := Iff.rfl

/-- Sets with the same members are equal. -/
theorem ext {s t : KeySet} (h : ∀ k, k ∈ s ↔ k ∈ t) : s = t := by
  cases s; cases t
  simp only [mk.injEq]
  exact eq_of_pairwise_of_mem ‹_› ‹_› h

/-- The empty set. -/
def empty : KeySet := ⟨[], .nil⟩

instance : EmptyCollection KeySet := ⟨empty⟩

instance : Inhabited KeySet := ⟨empty⟩

/-- The set with one more member. -/
def insert (s : KeySet) (k : String) : KeySet :=
  ⟨insertKey k s.toList, pairwise_insertKey s.sorted⟩

/-- The set without a member. -/
def erase (s : KeySet) (k : String) : KeySet :=
  ⟨s.toList.filter (· ≠ k), s.sorted.filter _⟩

/-- The members of either set. -/
def union (s t : KeySet) : KeySet :=
  t.toList.foldl insert s

instance : Union KeySet := ⟨union⟩

instance : HasSubset KeySet := ⟨fun s t => ∀ k ∈ s, k ∈ t⟩

/-- The set of the keys of a list. -/
def ofList (ks : List String) : KeySet :=
  ks.foldl insert empty

/-- The number of members. -/
def size (s : KeySet) : Nat :=
  s.toList.length

/-- The empty set has no members. -/
@[simp] theorem not_mem_empty {k : String} : ¬k ∈ (∅ : KeySet) := by
  change ¬k ∈ ([] : List String)
  simp

/-- The members after an insertion. -/
@[simp] theorem mem_insert {s : KeySet} {k x : String} : x ∈ s.insert k ↔ x = k ∨ x ∈ s :=
  mem_insertKey

/-- The members after a removal. -/
@[simp] theorem mem_erase {s : KeySet} {k x : String} : x ∈ s.erase k ↔ x ∈ s ∧ x ≠ k := by
  change x ∈ s.toList.filter (· ≠ k) ↔ _
  simp

/-- The members after several insertions. -/
theorem mem_foldl_insert {ks : List String} {s : KeySet} {x : String} :
    x ∈ ks.foldl insert s ↔ x ∈ s ∨ x ∈ ks := by
  induction ks generalizing s with
  | nil => simp
  | cons k ks ih =>
    rw [List.foldl_cons, ih, mem_insert, List.mem_cons, or_assoc, or_left_comm]

/-- The members of a union. -/
@[simp] theorem mem_union {s t : KeySet} {x : String} : x ∈ s ∪ t ↔ x ∈ s ∨ x ∈ t :=
  mem_foldl_insert

/-- The members of the set of a list. -/
@[simp] theorem mem_ofList {ks : List String} {x : String} : x ∈ ofList ks ↔ x ∈ ks := by
  rw [ofList, mem_foldl_insert]
  exact ⟨fun h => h.resolve_left not_mem_empty, Or.inr⟩

/-- A part of a part of a set is a part of it. -/
theorem subset_trans {s t u : KeySet} (hst : s ⊆ t) (htu : t ⊆ u) : s ⊆ u := by
  intro k hk
  exact htu k (hst k hk)

/-- A set is part of its union with another one. -/
theorem subset_union_left (s t : KeySet) : s ⊆ s ∪ t := by
  intro k hk
  exact mem_union.2 (Or.inl hk)

/-- A set is part of the union of another one with it. -/
theorem subset_union_right (s t : KeySet) : t ⊆ s ∪ t := by
  intro k hk
  exact mem_union.2 (Or.inr hk)

/-- A union grows with its first set. -/
theorem union_subset_union_left {s t : KeySet} (h : s ⊆ t) (u : KeySet) : s ∪ u ⊆ t ∪ u := by
  intro k hk
  rw [mem_union] at hk ⊢
  exact hk.imp_left (h k)

/-- A set grows with what an insertion is made into. -/
theorem insert_subset_insert {s t : KeySet} (h : s ⊆ t) (x : String) : s.insert x ⊆ t.insert x := by
  intro k hk
  rw [mem_insert] at hk ⊢
  exact hk.imp_right (h k)

end KeySet

end Stencil
