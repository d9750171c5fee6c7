import Stencil.Render

/-!
# Keys in sight

Which keys a block sees, and which of them it refuses first. A scope shows its bound names from the
inside out and then the keys of the data in order; as one map it shows all of them in order. Main
statements: a validation checks the keys in sight (`validate_eq_check`), on data it refuses the
first key outside (`check_keys_eq_unexpectedKey_iff`), and where all bound names are accepted it
refuses what a check of the one map refuses (`validate_eq_check_flat`).
-/

namespace Stencil

/-! ## Checking keys -/

namespace KeySet

/-- Refuses the first of some keys that is not in the set. -/
def check (s : KeySet) (keys : List String) : Except RenderError Unit :=
  match keys.find? fun k => k ∉ s with
  | some key => .error (.unexpectedKey key)
  | none => .ok ()

/-- A check goes from key to key. -/
theorem check_cons (s : KeySet) (k : String) (ks : List String) :
    s.check (k :: ks) = if k ∈ s then s.check ks else .error (.unexpectedKey k) := by
  unfold check
  by_cases hk : k ∈ s
  · rw [if_pos hk, List.find?_cons_of_neg (by simp [hk])]
  · rw [if_neg hk, List.find?_cons_of_pos (by simp [hk])]

/-- A check passes exactly when all keys are in the set. -/
theorem check_eq_ok_iff (s : KeySet) (ks : List String) :
    s.check ks = .ok () ↔ ∀ k ∈ ks, k ∈ s := by
  induction ks with
  | nil => simp [check]
  | cons k ks ih =>
    rw [check_cons, List.forall_mem_cons]
    by_cases hk : k ∈ s
    · rw [if_pos hk, ih]
      simp [hk]
    · simp [hk]

end KeySet

/-- A check that does not pass refuses a key. -/
theorem exists_check_eq_unexpectedKey (s : KeySet) (ks : List String) (h : s.check ks ≠ .ok ()) :
    ∃ k, s.check ks = .error (.unexpectedKey k) := by
  revert h
  rw [KeySet.check]
  split
  · next k _ => exact fun _ => ⟨k, rfl⟩
  · exact fun h => absurd rfl h

/-! ## First keys -/

/-- The first key of the data, in order, that is not in the set. -/
structure FirstOutside (s : KeySet) (d : Data) (k : String) : Prop where
  mem : k ∈ d.keys
  not_mem : k ∉ s
  le : ∀ j ∈ d.keys, j ∉ s → k ≤ j

/-- The keys of the data increase. -/
theorem pairwise_keys (d : Data) : d.keys.Pairwise (· < ·) :=
  List.pairwise_map.2 d.sorted

/-- A check of increasing keys refuses the least one that is not in the set. -/
theorem check_eq_unexpectedKey_iff (s : KeySet) (k : String) (ks : List String)
    (hks : ks.Pairwise (· < ·)) :
    s.check ks = .error (.unexpectedKey k) ↔ k ∈ ks ∧ k ∉ s ∧ ∀ j ∈ ks, j ∉ s → k ≤ j := by
  induction hks with
  | nil => simp [KeySet.check]
  | @cons x xs hx _ ih =>
    -- `x` is the least key, so it decides unless it is in the set
    rw [KeySet.check_cons]
    by_cases hxs : x ∈ s
    · rw [if_pos hxs, ih]
      constructor
      · rintro ⟨hk, hks, hle⟩
        refine ⟨List.mem_cons_of_mem x hk, hks, fun j hj hjs => ?_⟩
        rcases List.mem_cons.1 hj with rfl | hj
        · exact absurd hxs hjs
        · exact hle j hj hjs
      · rintro ⟨hk, hks, hle⟩
        rcases List.mem_cons.1 hk with rfl | hk
        · exact absurd hxs hks
        · exact ⟨hk, hks, fun j hj => hle j (List.mem_cons_of_mem x hj)⟩
    · rw [if_neg hxs]
      constructor
      · intro h
        obtain rfl : x = k := by simpa using h
        refine ⟨by simp, hxs, fun j hj _ => ?_⟩
        rcases List.mem_cons.1 hj with rfl | hj
        · exact String.le_refl j
        · exact String.not_lt.1 (String.lt_asymm (hx j hj))
      · rintro ⟨hk, _, hle⟩
        rcases List.mem_cons.1 hk with rfl | hk
        · rfl
        · exact absurd (hle x (by simp) hxs) (String.not_le.2 (hx k hk))

/-- A check of the keys of the data refuses the first one outside of the set. -/
theorem check_keys_eq_unexpectedKey_iff (s : KeySet) (d : Data) (k : String) :
    s.check d.keys = .error (.unexpectedKey k) ↔ FirstOutside s d k := by
  rw [check_eq_unexpectedKey_iff s k d.keys (pairwise_keys d)]
  constructor
  · rintro ⟨hk, hks, hle⟩
    exact ⟨hk, hks, hle⟩
  · rintro ⟨hk, hks, hle⟩
    exact ⟨hk, hks, hle⟩

/-! ## What a scope shows -/

namespace Scope

/-- The keys in sight: bound names from the inside out, and then the keys of the data. -/
def visible : Scope → List String
  | .root data => data.keys
  | .bound name _ outer => name :: outer.visible

/-- A validation checks the keys in sight. -/
theorem validate_eq_check (accepted : KeySet) (s : Scope) :
    s.validate accepted = accepted.check s.visible := by
  induction s with
  | root data => rfl
  | bound name value outer ih => rw [validate, visible, KeySet.check_cons, ih]

/-- The bound names from the inside out. -/
def names : Scope → List String
  | .root _ => []
  | .bound name _ outer => name :: outer.names

/-- The scope as one map: each binding is put into a copy of what stands around it. -/
def flat : Scope → Data
  | .root data => data
  | .bound name value outer => outer.flat.insert name value

/-- A key has the same value in a scope as in its map. -/
theorem lookup_eq_get? (key : String) (s : Scope) : s.lookup key = s.flat.get? key := by
  induction s with
  | root data => rfl
  | bound name value outer ih =>
    rw [lookup_bound, flat, KeyMap.get?_insert, ih]
    by_cases h : name = key
    · rw [if_pos h, if_pos h.symm]
    · rw [if_neg h, if_neg (Ne.symm h)]

end Scope

/-- An insertion of a key of the set does not change what a check refuses. -/
theorem check_keys_insert (s : KeySet) (d : Data) (k : String) (v : Value) (hk : k ∈ s) :
    s.check (d.insert k v).keys = s.check d.keys := by
  -- the induction needs a list of entries that is not known to be in order
  suffices h : ∀ es : List (String × Value),
      s.check ((insertEntry k v es).map Prod.fst) = s.check (es.map Prod.fst) from h d.toList
  intro es
  induction es with
  | nil => rw [insertEntry, List.map_cons, KeySet.check_cons, if_pos hk]
  | cons e es ih =>
    rw [insertEntry]
    split
    · rw [List.map_cons, KeySet.check_cons, if_pos hk]
    · split
      · next heq => rw [List.map_cons, List.map_cons, heq]
      · rw [List.map_cons, List.map_cons, KeySet.check_cons, KeySet.check_cons, ih]

/-- The order of the bound names does not matter where all of them are accepted: a validation
refuses what a check of the scope's map refuses. -/
theorem validate_eq_check_flat (accepted : KeySet) (s : Scope)
    (h : ∀ n ∈ s.names, n ∈ accepted) :
    s.validate accepted = accepted.check s.flat.keys := by
  induction s with
  | root data => rfl
  | bound name value outer ih =>
    obtain ⟨hname, houter⟩ := List.forall_mem_cons.1 h
    rw [Scope.validate, if_pos hname, ih houter, Scope.flat, check_keys_insert _ _ _ _ hname]

end Stencil
