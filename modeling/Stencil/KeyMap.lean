import Stencil.KeySet

/-!
# Maps from keys

A map from keys is a list of entries in increasing order of their keys, without two for one key.
Main statements: a look-up after each operation (`get?_insert`, `get?_erase`, `get?_restrict`,
`get?_extend`), and a map is determined by its look-ups (`ext`).
-/

namespace Stencil

universe u

variable {α : Type u}

/-! ## Lists of entries -/

/-- The value of the first entry of a key. -/
def lookupEntry (k : String) : List (String × α) → Option α
  | [] => none
  | (x, v) :: es => if k = x then some v else lookupEntry k es

/-- An entry with its place in increasing order; it replaces the entry of the same key. -/
def insertEntry (k : String) (v : α) : List (String × α) → List (String × α)
  | [] => [(k, v)]
  | (x, w) :: es =>
    if k < x then (k, v) :: (x, w) :: es
    else if k = x then (k, v) :: es
    else (x, w) :: insertEntry k v es

/-- Entries in increasing order of their keys. -/
def InKeyOrder (es : List (String × α)) : Prop :=
  es.Pairwise fun a b => a.1 < b.1

/-- The order of entries is that of their keys alone. -/
theorem InKeyOrder.of_keys {es fs : List (String × α)} (h : InKeyOrder es)
    (hkeys : es.map Prod.fst = fs.map Prod.fst) : InKeyOrder fs := by
  have horder : (es.map Prod.fst).Pairwise (· < ·) := List.pairwise_map.2 h
  rw [hkeys] at horder
  exact List.pairwise_map.1 horder

/-- An insertion adds nothing but its entry. -/
theorem mem_of_mem_insertEntry {k : String} {v : α} {es : List (String × α)} {e : String × α}
    (h : e ∈ insertEntry k v es) : e = (k, v) ∨ e ∈ es := by
  induction es with
  | nil => simpa [insertEntry] using h
  | cons a es ih =>
    rw [insertEntry] at h
    split at h
    · simpa using h
    · split at h
      · rcases List.mem_cons.1 h with h | h <;> simp [h]
      · rcases List.mem_cons.1 h with h | h
        · simp [h]
        · rcases ih h with h | h <;> simp [h]

/-- A key behind all others is inserted at the end. -/
theorem insertEntry_of_forall_lt {k : String} {v : α} {es : List (String × α)}
    (h : ∀ e ∈ es, e.1 < k) : insertEntry k v es = es ++ [(k, v)] := by
  induction es with
  | nil => rfl
  | cons a es ih =>
    have ha : a.1 < k := h a List.mem_cons_self
    have hlt : ¬k < a.1 := fun hk => String.lt_irrefl k (String.lt_trans hk ha)
    have hne : k ≠ a.1 := fun hk => String.lt_irrefl k (by rw [hk] at ha ⊢; exact ha)
    rw [insertEntry, if_neg hlt, if_neg hne, ih fun e he => h e (List.mem_cons_of_mem a he)]
    rfl

/-- An insertion keeps the order. -/
theorem InKeyOrder.insertEntry {k : String} {v : α} {es : List (String × α)} (h : InKeyOrder es) :
    InKeyOrder (insertEntry k v es) := by
  induction es with
  | nil => simp [Stencil.insertEntry, InKeyOrder]
  | cons a es ih =>
    obtain ⟨ha, hes⟩ := List.pairwise_cons.1 h
    rw [Stencil.insertEntry]
    split
    · next hk =>
      refine List.pairwise_cons.2 ⟨fun e he => ?_, h⟩
      rcases List.mem_cons.1 he with rfl | he
      · exact hk
      · exact String.lt_trans hk (ha e he)
    · split
      · next hk =>
        refine List.pairwise_cons.2 ⟨fun e he => ?_, hes⟩
        exact hk ▸ ha e he
      · next hk hne =>
        refine List.pairwise_cons.2 ⟨fun e he => ?_, ih hes⟩
        rcases mem_of_mem_insertEntry he with rfl | he
        · exact key_lt_of_not_lt_of_ne hk hne
        · exact ha e he

/-- A look-up after an insertion. -/
theorem lookupEntry_insertEntry (k x : String) (v : α) (es : List (String × α)) :
    lookupEntry x (insertEntry k v es) = if x = k then some v else lookupEntry x es := by
  induction es with
  | nil => simp [insertEntry, lookupEntry]
  | cons a es ih =>
    rw [insertEntry]
    split
    · simp [lookupEntry]
    · split
      · next hk => subst hk; by_cases hx : x = a.1 <;> simp [lookupEntry, hx]
      · next hne =>
        simp only [lookupEntry, ih]
        by_cases hx : x = a.1
        · have : ¬x = k := fun h => hne (h ▸ hx)
          simp [hx, Ne.symm hne]
        · simp [hx]

/-- A key that comes before all entries has none. -/
theorem lookupEntry_eq_none {k : String} {es : List (String × α)} (h : ∀ e ∈ es, k < e.1) :
    lookupEntry k es = none := by
  induction es with
  | nil => rfl
  | cons a es ih =>
    have hne : k ≠ a.1 := fun e => String.lt_irrefl k (by simpa [← e] using h a (by simp))
    rw [lookupEntry, if_neg hne, ih fun e he => h e (by simp [he])]

/-- A value that is found belongs to an entry of the key. -/
theorem mem_of_lookupEntry {k : String} {v : α} {es : List (String × α)}
    (h : lookupEntry k es = some v) : (k, v) ∈ es := by
  induction es with
  | nil => cases h
  | cons a es ih =>
    rw [lookupEntry] at h
    split at h
    · next hk =>
      cases h
      rw [hk]
      exact List.mem_cons_self
    · exact List.mem_cons_of_mem a (ih h)

/-- In order, an entry is what is found under its key. -/
theorem lookupEntry_of_mem {es : List (String × α)} (h : InKeyOrder es) {k : String} {v : α}
    (hmem : (k, v) ∈ es) : lookupEntry k es = some v := by
  induction es with
  | nil => cases hmem
  | cons a es ih =>
    obtain ⟨ha, hes⟩ := List.pairwise_cons.1 h
    rcases List.mem_cons.1 hmem with rfl | hmem
    · rw [lookupEntry, if_pos rfl]
    · have hne : k ≠ a.1 := fun e => String.lt_irrefl k (by simpa [← e] using ha _ hmem)
      rw [lookupEntry, if_neg hne, ih hes hmem]

/-- A key has an entry exactly if a value is found for it. -/
theorem mem_map_fst_iff (k : String) (es : List (String × α)) :
    k ∈ es.map Prod.fst ↔ (lookupEntry k es).isSome = true := by
  induction es with
  | nil => simp [lookupEntry]
  | cons a es ih =>
    by_cases hk : k = a.1
    · simp [lookupEntry, hk]
    · simp [lookupEntry, hk, ih]

/-- A look-up among the entries of some keys only. -/
theorem lookupEntry_filter (p : String → Bool) (k : String) (es : List (String × α)) :
    lookupEntry k (es.filter fun e => p e.1) = if p k then lookupEntry k es else none := by
  induction es with
  | nil => simp [lookupEntry]
  | cons a es ih =>
    by_cases ha : p a.1
    · rw [List.filter_cons_of_pos (by simp [ha]), lookupEntry, lookupEntry, ih]
      by_cases hk : k = a.1 <;> simp [hk, ha]
    · rw [List.filter_cons_of_neg (by simp [ha]), lookupEntry, ih]
      by_cases hk : k = a.1 <;> simp [hk, ha]

/-- Ordered lists of entries with the same look-ups are equal. -/
theorem InKeyOrder.ext {es fs : List (String × α)} (he : InKeyOrder es) (hf : InKeyOrder fs)
    (h : ∀ k, lookupEntry k es = lookupEntry k fs) : es = fs := by
  induction es generalizing fs with
  | nil =>
    cases fs with
    | nil => rfl
    | cons b fs => simpa [lookupEntry] using h b.1
  | cons a es ih =>
    cases fs with
    | nil => simpa [lookupEntry] using h a.1
    | cons b fs =>
      obtain ⟨ha, hes⟩ := List.pairwise_cons.1 he
      obtain ⟨hb, hfs⟩ := List.pairwise_cons.1 hf
      have hab : a.1 = b.1 := by
        by_cases hlt : a.1 < b.1
        · have := h a.1
          rw [lookupEntry, if_pos rfl, lookupEntry_eq_none] at this
          · simp at this
          · intro e hm
            rcases List.mem_cons.1 hm with rfl | hm
            · exact hlt
            · exact String.lt_trans hlt (hb e hm)
        · apply Classical.byContradiction
          intro hne
          have hlt := key_lt_of_not_lt_of_ne hlt hne
          have := h b.1
          rw [lookupEntry_eq_none, lookupEntry, if_pos rfl] at this
          · simp at this
          · intro e hm
            rcases List.mem_cons.1 hm with rfl | hm
            · exact hlt
            · exact String.lt_trans hlt (ha e hm)
      have hval : a.2 = b.2 := by
        have := h a.1
        simpa [lookupEntry, hab] using this
      have heq : a = b := Prod.ext hab hval
      subst heq
      congr 1
      refine ih hes hfs fun k => ?_
      by_cases hk : k = a.1
      · subst hk
        rw [lookupEntry_eq_none ha, lookupEntry_eq_none hb]
      · simpa [lookupEntry, hk] using h k

/-! ## Maps -/

/-- A finite map from keys. -/
structure KeyMap (α : Type u) where
  /-- The entries in increasing order of their keys. -/
  toList : List (String × α)
  sorted : InKeyOrder toList

namespace KeyMap

/-- The empty map. -/
def empty : KeyMap α := ⟨[], .nil⟩

instance : EmptyCollection (KeyMap α) := ⟨empty⟩

instance : Inhabited (KeyMap α) := ⟨empty⟩

/-- The value of a key. -/
def get? (m : KeyMap α) (k : String) : Option α :=
  lookupEntry k m.toList

/-- Whether a key has a value. -/
def contains (m : KeyMap α) (k : String) : Bool :=
  (m.get? k).isSome

/-- The map with a value for a key, which replaces the one before. -/
def insert (m : KeyMap α) (k : String) (v : α) : KeyMap α :=
  ⟨insertEntry k v m.toList, m.sorted.insertEntry⟩

/-- The map without a key. -/
def erase (m : KeyMap α) (k : String) : KeyMap α :=
  ⟨m.toList.filter (·.1 ≠ k), m.sorted.filter _⟩

/-- The map without the keys outside of a set. -/
def restrict (m : KeyMap α) (s : KeySet) : KeyMap α :=
  ⟨m.toList.filter (·.1 ∈ s), m.sorted.filter _⟩

/-- The keys in increasing order. -/
def keys (m : KeyMap α) : List String :=
  m.toList.map Prod.fst

/-- The number of entries. -/
def size (m : KeyMap α) : Nat :=
  m.toList.length

/-- The map of a list of entries, of which the last one of a key counts. -/
def ofList (es : List (String × α)) : KeyMap α :=
  es.foldl (fun m e => m.insert e.1 e.2) empty

/-- The map with all entries of another one put into it. -/
def extend (m n : KeyMap α) : KeyMap α :=
  n.toList.foldl (fun m e => m.insert e.1 e.2) m

/-- Maps with the same look-ups are equal. -/
theorem ext {m n : KeyMap α} (h : ∀ k, m.get? k = n.get? k) : m = n := by
  cases m; cases n
  simp only [mk.injEq]
  exact InKeyOrder.ext ‹_› ‹_› h

/-- A map is its list of entries. -/
theorem toList_injective : Function.Injective (toList (α := α)) := by
  intro m n h
  cases m; cases n
  simp only [mk.injEq]
  exact h

/-- A look-up after an insertion. -/
@[simp] theorem get?_insert (m : KeyMap α) (k x : String) (v : α) :
    (m.insert k v).get? x = if x = k then some v else m.get? x :=
  lookupEntry_insertEntry k x v m.toList

/-- A binding keeps a property of all values that its own value has. -/
theorem forall_get?_insert {P : α → Prop} {m : KeyMap α} (h : ∀ k v, m.get? k = some v → P v)
    (name : String) {v : α} (hv : P v) : ∀ k w, (m.insert name v).get? k = some w → P w := by
  intro k w hw
  rw [get?_insert] at hw
  by_cases hk : k = name
  · rw [if_pos hk] at hw
    exact Option.some.inj hw ▸ hv
  · rw [if_neg hk] at hw
    exact h k w hw

/-- A look-up after a removal. -/
@[simp] theorem get?_erase (m : KeyMap α) (k x : String) :
    (m.erase k).get? x = if x = k then none else m.get? x := by
  refine (lookupEntry_filter (fun y => decide (y ≠ k)) x m.toList).trans ?_
  by_cases hx : x = k <;> simp [hx, get?]

/-- A look-up after a restriction. -/
@[simp] theorem get?_restrict (m : KeyMap α) (s : KeySet) (x : String) :
    (m.restrict s).get? x = if x ∈ s then m.get? x else none := by
  refine (lookupEntry_filter (fun y => decide (y ∈ s)) x m.toList).trans ?_
  by_cases hx : x ∈ s <;> simp [hx, get?]

/-- An entry of the map is what is found under its key. -/
theorem mem_toList_iff {m : KeyMap α} {k : String} {v : α} :
    (k, v) ∈ m.toList ↔ m.get? k = some v := by
  constructor
  · exact lookupEntry_of_mem m.sorted
  · exact mem_of_lookupEntry

/-- A look-up after some entries have been put into a map. -/
theorem get?_foldl_insert {es : List (String × α)} (h : InKeyOrder es) (m : KeyMap α) (x : String) :
    (es.foldl (fun m e => m.insert e.1 e.2) m).get? x = (lookupEntry x es).or (m.get? x) := by
  induction es generalizing m with
  | nil => rfl
  | cons a es ih =>
    obtain ⟨ha, hes⟩ := List.pairwise_cons.1 h
    rw [List.foldl_cons, ih hes, get?_insert, lookupEntry]
    by_cases hx : x = a.1
    · rw [if_pos hx, if_pos hx, hx, lookupEntry_eq_none ha]
      rfl
    · rw [if_neg hx, if_neg hx]

/-- A look-up after all entries of another map have been put into a map. -/
@[simp] theorem get?_extend (m n : KeyMap α) (x : String) :
    (m.extend n).get? x = (n.get? x).or (m.get? x) :=
  get?_foldl_insert n.sorted m x

/-- A key has a value exactly when it is one of the keys. -/
theorem mem_keys_iff (m : KeyMap α) (k : String) : k ∈ m.keys ↔ (m.get? k).isSome = true :=
  mem_map_fst_iff k m.toList

/-- The keys after an insertion. -/
theorem mem_keys_insert {m : KeyMap α} {k x : String} {v : α} :
    x ∈ (m.insert k v).keys ↔ x = k ∨ x ∈ m.keys := by
  rw [mem_keys_iff, mem_keys_iff, get?_insert]
  by_cases hx : x = k <;> simp [hx]

/-- The keys after a restriction. -/
theorem mem_keys_restrict {m : KeyMap α} {s : KeySet} {x : String} :
    x ∈ (m.restrict s).keys ↔ x ∈ s ∧ x ∈ m.keys := by
  rw [mem_keys_iff, mem_keys_iff, get?_restrict]
  by_cases hx : x ∈ s <;> simp [hx]

end KeyMap

end Stencil
