import Stencil.KeyMap

/-!
# Stores that forget the least recently used

A store holds a bounded number of entries, the one used last in front. Reading an entry and storing
one make it the one used last; storing into a full store drops the entry at the end. Main
statements: no key has two entries and no store holds more than its capacity, both by its type; a
stored value is read back (`peek?_put_self`).
-/

namespace Stencil

universe u

variable {α : Type u}

/-- A bounded store. -/
structure Lru (α : Type u) where
  /-- How many entries fit. -/
  capacity : Nat
  /-- The entries, the one used last in front. -/
  entries : List (String × α)
  capacity_pos : 0 < capacity
  length_le : entries.length ≤ capacity
  nodup : (entries.map Prod.fst).Nodup

namespace Lru

/-- The store without entries. -/
def empty (capacity : Nat) (h : 0 < capacity) : Lru α :=
  ⟨capacity, [], h, Nat.zero_le _, .nil⟩

/-- The number of entries. -/
def size (l : Lru α) : Nat :=
  l.entries.length

/-- The keys, the one used last in front. -/
def keys (l : Lru α) : List String :=
  l.entries.map Prod.fst

/-- The value of a key, without using it. -/
def peek? (l : Lru α) (k : String) : Option α :=
  lookupEntry k l.entries

/-- Whether a key has an entry; it is not used by this. -/
def contains (l : Lru α) (k : String) : Bool :=
  (l.peek? k).isSome

/-- The entries of the other keys. -/
def others (k : String) (es : List (String × α)) : List (String × α) :=
  es.filter fun e => e.1 ≠ k

/-- The other keys are those that differ. -/
theorem not_mem_others (k : String) (es : List (String × α)) :
    k ∉ (others k es).map Prod.fst := by
  simp [others]

/-- The store with a value for a key, which is the one used last now. -/
def put (l : Lru α) (k : String) (v : α) : Lru α where
  capacity := l.capacity
  entries := (k, v) :: (others k l.entries).take (l.capacity - 1)
  capacity_pos := l.capacity_pos
  length_le := by
    have := l.capacity_pos
    simp only [List.length_cons, List.length_take]
    omega
  nodup := by
    rw [List.map_cons, List.nodup_cons, List.map_take]
    refine ⟨fun h => not_mem_others k l.entries (List.mem_of_mem_take h), ?_⟩
    exact ((l.nodup.sublist (List.filter_sublist.map _)).sublist (List.take_sublist _ _))

/-- The value of a key, and the store in which that entry is the one used last. -/
def get (l : Lru α) (k : String) : Option α × Lru α :=
  match l.peek? k with
  | some v => (some v, l.put k v)
  | none => (none, l)

/-- The store without a key. -/
def erase (l : Lru α) (k : String) : Lru α where
  capacity := l.capacity
  entries := others k l.entries
  capacity_pos := l.capacity_pos
  length_le := Nat.le_trans (List.length_filter_le _ _) l.length_le
  nodup := l.nodup.sublist (List.filter_sublist.map _)

/-- The store without its entries. -/
def clear (l : Lru α) : Lru α :=
  empty l.capacity l.capacity_pos

/-- A stored value is read back. -/
@[simp] theorem peek?_put_self (l : Lru α) (k : String) (v : α) : (l.put k v).peek? k = some v := by
  simp [peek?, put, lookupEntry]

/-- A value that is found belongs to an entry. -/
theorem mem_of_peek? {l : Lru α} {k : String} {v : α} (h : l.peek? k = some v) :
    (k, v) ∈ l.entries :=
  mem_of_lookupEntry h

/-- Storing brings in one entry; all others were there before. -/
theorem mem_of_mem_put {l : Lru α} {k : String} {v : α} {entry : String × α}
    (h : entry ∈ (l.put k v).entries) : entry = (k, v) ∨ entry ∈ l.entries := by
  rcases List.mem_cons.1 h with h | h
  · exact Or.inl h
  · exact Or.inr (List.mem_filter.1 (List.mem_of_mem_take h)).1

/-- Every key has a value. -/
theorem exists_peek?_of_mem_keys {l : Lru α} {k : String} (h : k ∈ l.keys) :
    ∃ v, l.peek? k = some v :=
  Option.isSome_iff_exists.1 ((mem_map_fst_iff k l.entries).1 h)

/-- A key that is found is one of the keys. -/
theorem mem_keys_of_peek? {l : Lru α} {k : String} {v : α} (h : l.peek? k = some v) : k ∈ l.keys :=
  List.mem_map_of_mem (mem_of_peek? h)

/-- The keys other than one. -/
theorem map_fst_others (k : String) (es : List (String × α)) :
    (others k es).map Prod.fst = (es.map Prod.fst).filter fun x => x ≠ k := by
  rw [List.filter_map]
  rfl

/-- The key that is stored comes first, and then as many of the others as there is room for. -/
theorem keys_put (l : Lru α) (k : String) (v : α) :
    (l.put k v).keys = k :: (l.keys.filter fun x => x ≠ k).take (l.capacity - 1) := by
  show k :: ((others k l.entries).take (l.capacity - 1)).map Prod.fst = _
  rw [List.map_take, map_fst_others]
  rfl

/-- The other keys stay in their order when one is removed. -/
theorem keys_erase (l : Lru α) (k : String) :
    (l.erase k).keys = l.keys.filter fun x => x ≠ k :=
  map_fst_others k l.entries

end Lru

end Stencil
