import Stencil.Component.Store

/-!
# The changes that a patch makes

What a patch does to a store and what it reports of that. Whether a field changes is decided by the
equality of values, under which the two zeros are equal and a template equals only its own copies,
while the store keeps the very values that it was given. Main statement: the changes that are
reported lead from the state before to the state after, and back (`overlay_exactDiff`).
-/

namespace Stencil

/-! ## Equal data -/

/-- Entries under the same keys with equal values are equal. -/
theorem Value.entriesEq_of_rel {es fs : List (String × Value)} (hes : InKeyOrder es)
    (hfs : InKeyOrder fs) (hkeys : es.map Prod.fst = fs.map Prod.fst)
    (h : ∀ k, Option.Rel (fun v w => v.valueEq w = true) (lookupEntry k es) (lookupEntry k fs)) :
    Value.entriesEq es fs = true := by
  induction es generalizing fs with
  | nil =>
    obtain rfl := List.map_eq_nil_iff.1 hkeys.symm
    rfl
  | cons a es ih =>
    cases fs with
    | nil => cases hkeys
    | cons b fs =>
      obtain ⟨ha, hes⟩ := List.pairwise_cons.1 hes
      obtain ⟨hb, hfs⟩ := List.pairwise_cons.1 hfs
      obtain ⟨hab, hkeys⟩ := List.cons.inj hkeys
      have hvalues := h a.1
      rw [lookupEntry, lookupEntry, if_pos rfl, if_pos hab, Option.rel_some_some] at hvalues
      -- behind the first entries neither list has their key any more
      have hrest : Value.entriesEq es fs = true := by
        refine ih hes hfs hkeys ?_
        intro k
        by_cases hk : k = a.1
        · rw [hk, lookupEntry_eq_none ha, hab, lookupEntry_eq_none hb]
          exact .none
        · have hk' := h k
          rw [lookupEntry, lookupEntry, if_neg hk, if_neg (hab ▸ hk)] at hk'
          exact hk'
      rw [Value.entriesEq, Bool.and_eq_true, Bool.and_eq_true, beq_iff_eq]
      exact ⟨⟨hab, hvalues⟩, hrest⟩

/-- Data with equal values under the same keys are equal. -/
theorem Data.dataEq_of_rel {d e : Data}
    (h : ∀ k, Option.Rel (fun v w => v.valueEq w = true) (d.get? k) (e.get? k)) :
    d.dataEq e = true := by
  have hkeys : d.keys = e.keys := by
    refine eq_of_pairwise_of_mem (List.pairwise_map.2 d.sorted) (List.pairwise_map.2 e.sorted) ?_
    intro k
    show k ∈ d.keys ↔ k ∈ e.keys
    have hk := h k
    rw [KeyMap.mem_keys_iff, KeyMap.mem_keys_iff]
    generalize d.get? k = v, e.get? k = w at hk
    cases hk with
    | some => simp
    | none => simp
  exact Value.entriesEq_of_rel d.sorted e.sorted hkeys h

namespace Store

/-! ## Going through changes -/

/-- The state with a value for the field of each change; no value takes the field away. -/
def assign (value : Change → Option Value) (state : Data) (changes : List Change) : Data :=
  changes.foldl (fun d c =>
    match value c with
    | some v => d.insert c.key v
    | none => d.erase c.key) state

/-- The state with the new values of some changes. -/
def redo (state : Data) (changes : List Change) : Data :=
  assign (fun c => some c.new) state changes

/-- The state with the values from before some changes, without the fields that were not there. -/
def undo (state : Data) (changes : List Change) : Data :=
  assign Change.old state changes

section Assign

variable (value : Change → Option Value)

/-- A look-up after the first of some changes. -/
theorem get?_assign_singleton (state : Data) (c : Change) (k : String) :
    (assign value state [c]).get? k = if k = c.key then value c else state.get? k := by
  unfold assign
  rw [List.foldl_cons, List.foldl_nil]
  cases value c with
  | some v => exact KeyMap.get?_insert state c.key k v
  | none => exact KeyMap.get?_erase state c.key k

/-- Changes are gone through one after the other. -/
theorem assign_cons (state : Data) (c : Change) (changes : List Change) :
    assign value state (c :: changes) = assign value (assign value state [c]) changes := rfl

/-- Fields without a change stay. -/
theorem get?_assign_of_ne (state : Data) {changes : List Change} {k : String}
    (h : ∀ c ∈ changes, c.key ≠ k) : (assign value state changes).get? k = state.get? k := by
  induction changes generalizing state with
  | nil => rfl
  | cons c changes ih =>
    obtain ⟨hc, hchanges⟩ := List.forall_mem_cons.1 h
    rw [assign_cons, ih _ hchanges, get?_assign_singleton, if_neg (Ne.symm hc)]

/-- The field of a change has the value of the change, if no other change is of the same field. -/
theorem get?_assign_of_mem (state : Data) {changes : List Change}
    (hchanges : changes.Pairwise fun a b => a.key < b.key) {c : Change} (hc : c ∈ changes) :
    (assign value state changes).get? c.key = value c := by
  induction changes generalizing state with
  | nil => cases hc
  | cons a changes ih =>
    obtain ⟨ha, hrest⟩ := List.pairwise_cons.1 hchanges
    rw [assign_cons]
    rcases List.mem_cons.1 hc with rfl | hc
    · have hothers : ∀ b ∈ changes, b.key ≠ c.key :=
        fun b hb heq => String.lt_irrefl c.key (heq ▸ ha b hb)
      rw [get?_assign_of_ne value _ hothers, get?_assign_singleton, if_pos rfl]
    · exact ih _ hrest hc

end Assign

/-! ## The state after a patch -/

/-- A field does not have a value if its own value, should it have one, is another one. -/
theorem holds_eq_false_iff {state : Data} {k : String} {v : Value} :
    holds state k v = false ↔ ∀ w, state.get? k = some w → w.valueEq v = false := by
  unfold holds
  cases state.get? k with
  | none => simp
  | some w => simp

/-- A field has a value if its own value is equal to it. -/
theorem holds_eq_true_iff {state : Data} {k : String} {v : Value} :
    holds state k v = true ↔ ∃ w, state.get? k = some w ∧ w.valueEq v = true := by
  unfold holds
  cases state.get? k with
  | none => simp
  | some w => simp

/-- The changes of a patch, one by one. -/
theorem mem_diff_iff {state patch : Data} {c : Change} :
    c ∈ diff state patch ↔
      patch.get? c.key = some c.new ∧ c.old = state.get? c.key ∧
        holds state c.key c.new = false := by
  unfold diff
  rw [List.mem_map]
  constructor
  · rintro ⟨⟨k, v⟩, hmem, rfl⟩
    obtain ⟨hentry, hheld⟩ := List.mem_filter.1 hmem
    exact ⟨KeyMap.mem_toList_iff.1 hentry, rfl, by simpa using hheld⟩
  · rintro ⟨hentry, hold, hheld⟩
    refine ⟨(c.key, c.new), List.mem_filter.2 ⟨KeyMap.mem_toList_iff.2 hentry, by simp [hheld]⟩, ?_⟩
    show (⟨c.key, state.get? c.key, c.new⟩ : Change) = c
    rw [← hold]

/-- The state after some entries is the one that their changes lead to. -/
theorem overlayEntries_state (state : Data) (es : List (String × Value)) :
    (overlayEntries state es).2 = redo state (overlayEntries state es).1 := by
  induction es generalizing state with
  | nil => rfl
  | cons e es ih =>
    rw [overlayEntries]
    split
    · exact ih state
    · exact ih (state.insert e.1 e.2)

/-- The state after a patch is the one that its changes lead to. -/
theorem overlay_state (s : Store) (patch : Data) :
    (s.overlay patch).2.state = redo s.state (diff s.state patch) := by
  rw [← overlay_changes]
  exact overlayEntries_state s.state patch.toList

/-- A field that the patch does not name stays. -/
theorem get?_overlay_of_none {s : Store} {patch : Data} {k : String} (h : patch.get? k = none) :
    (s.overlay patch).2.state.get? k = s.state.get? k := by
  rw [overlay_state]
  refine get?_assign_of_ne _ _ ?_
  rintro c hc rfl
  rw [(mem_diff_iff.1 hc).1] at h
  cases h

/-- A field that has the value of the patch already keeps its own. -/
theorem get?_overlay_of_holds {s : Store} {patch : Data} {k : String} {v : Value}
    (h : patch.get? k = some v) (hheld : holds s.state k v = true) :
    (s.overlay patch).2.state.get? k = s.state.get? k := by
  rw [overlay_state]
  refine get?_assign_of_ne _ _ ?_
  rintro c hc rfl
  obtain ⟨hentry, _, hnot⟩ := mem_diff_iff.1 hc
  obtain rfl := Option.some.inj (h.symm.trans hentry)
  rw [hheld] at hnot
  cases hnot

/-- Any other field that the patch names gets the value of the patch. -/
theorem get?_overlay_of_not_holds {s : Store} {patch : Data} {k : String} {v : Value}
    (h : patch.get? k = some v) (hheld : holds s.state k v = false) :
    (s.overlay patch).2.state.get? k = some v := by
  have hc : ⟨k, s.state.get? k, v⟩ ∈ diff s.state patch := mem_diff_iff.2 ⟨h, rfl, hheld⟩
  rw [overlay_state]
  exact get?_assign_of_mem _ _ (pairwise_diff s.state patch) hc

/-- After a patch each field that it names has a value equal to that of the patch. -/
theorem holds_overlay {s : Store} {patch : Data} {k : String} {v : Value}
    (h : patch.get? k = some v) : holds (s.overlay patch).2.state k v = true := by
  cases hheld : holds s.state k v with
  | true =>
    unfold holds at hheld ⊢
    rw [get?_overlay_of_holds h hheld]
    exact hheld
  | false =>
    rw [holds_eq_true_iff]
    exact ⟨v, get?_overlay_of_not_holds h hheld, Value.valueEq_refl v⟩

/-- Going back through the changes of a patch leads to the state before it. -/
theorem undo_overlay (s : Store) (patch : Data) :
    undo (s.overlay patch).2.state (diff s.state patch) = s.state := by
  apply KeyMap.ext
  intro k
  by_cases hk : ∃ c ∈ diff s.state patch, c.key = k
  · obtain ⟨c, hc, rfl⟩ := hk
    rw [undo, get?_assign_of_mem _ _ (pairwise_diff s.state patch) hc]
    exact (mem_diff_iff.1 hc).2.1
  · have hnone : ∀ c ∈ diff s.state patch, c.key ≠ k := fun c hc heq => hk ⟨c, hc, heq⟩
    rw [undo, get?_assign_of_ne _ _ hnone, overlay_state, redo, get?_assign_of_ne _ _ hnone]

/-- A patch changes nothing where it has been laid over already. -/
theorem overlay_again (s : Store) (patch : Data) :
    (s.overlay patch).2.overlay patch = ([], (s.overlay patch).2) := by
  apply overlay_of_diff_eq_nil
  rw [List.eq_nil_iff_forall_not_mem]
  intro c hc
  obtain ⟨hentry, _, hnot⟩ := mem_diff_iff.1 hc
  rw [holds_overlay hentry] at hnot
  cases hnot

/-! ## Two patches in a row -/

/-- Values that are equal to one value are equal to each other. -/
theorem rel_of_holds {d e : Data} {k : String} {v : Value} (hd : holds d k v = true)
    (he : holds e k v = true) :
    Option.Rel (fun v w => v.valueEq w = true) (d.get? k) (e.get? k) := by
  obtain ⟨w, hw, hwv⟩ := holds_eq_true_iff.1 hd
  obtain ⟨u, hu, huv⟩ := holds_eq_true_iff.1 he
  rw [hw, hu, Option.rel_some_some]
  exact Value.valueEq_trans w v u hwv (Value.valueEq_symm u v huv)

/-- What a field holds equals itself. -/
theorem rel_refl (o : Option Value) : Option.Rel (fun v w => v.valueEq w = true) o o := by
  cases o with
  | none => exact .none
  | some v => exact .some (Value.valueEq_refl v)

/-- Two patches in a row lead to a state equal to that after the first one extended by the second
one. -/
theorem overlay_overlay_dataEq (s : Store) (patch later : Data) :
    ((s.overlay patch).2.overlay later).2.state.dataEq
      (s.overlay (patch.extend later)).2.state = true := by
  apply Data.dataEq_of_rel
  intro k
  have hboth : (patch.extend later).get? k = (later.get? k).or (patch.get? k) :=
    KeyMap.get?_extend patch later k
  cases hlater : later.get? k with
  | some v =>
    -- both states end with a value that is equal to that of the second patch
    rw [hlater, Option.some_or] at hboth
    exact rel_of_holds (holds_overlay hlater) (holds_overlay hboth)
  | none =>
    rw [hlater, Option.none_or] at hboth
    rw [get?_overlay_of_none hlater]
    cases hpatch : patch.get? k with
    | some v => exact rel_of_holds (holds_overlay hpatch) (holds_overlay (hboth.trans hpatch))
    | none =>
      rw [get?_overlay_of_none hpatch, get?_overlay_of_none (hboth.trans hpatch)]
      exact rel_refl _

/-! ## The main statement -/

/-- The changes that a patch is reported to make, and the store after it, as they should be. -/
structure ExactDiff (s : Store) (patch : Data) (changes : List Change) (after : Store) : Prop where
  /-- Fields that the patch does not name stay. -/
  untouched : ∀ k, patch.get? k = none → after.state.get? k = s.state.get? k
  /-- A change is reported exactly for each field that the patch names and that was not there or had
  a value that differs, with the value before and the value of the patch. -/
  reported : ∀ c, c ∈ changes ↔ patch.get? c.key = some c.new ∧ c.old = s.state.get? c.key ∧
    ∀ v, c.old = some v → v.valueEq c.new = false
  /-- The changes come in the order of their keys, one for a key. -/
  inOrder : changes.Pairwise fun a b => a.key < b.key
  /-- The state after the patch is the state before it with the new values. -/
  redone : after.state = redo s.state changes
  /-- The values before, put back, give back the store. -/
  undone : { after with state := undo after.state changes } = s
  /-- Each field that the patch names ends with a value equal to that of the patch. -/
  stored : ∀ k v, patch.get? k = some v → ∃ w, after.state.get? k = some w ∧ w.valueEq v = true
  /-- The same patch once more changes nothing. -/
  settled : after.overlay patch = ([], after)
  /-- A second patch leads to the state, up to equality, that the first one extended by it does. -/
  merged : ∀ later, (after.overlay later).2.state.dataEq
    (s.overlay (patch.extend later)).2.state = true

/-- **The changes of a patch are an exact diff.** They tell what differs between the states before
and after the patch, and nothing else. -/
theorem overlay_exactDiff (s : Store) (patch : Data) :
    ExactDiff s patch (s.overlay patch).1 (s.overlay patch).2 where
  untouched := by
    intro k hk
    exact get?_overlay_of_none hk
  reported := by
    intro c
    rw [overlay_changes, mem_diff_iff, holds_eq_false_iff]
    constructor
    · rintro ⟨hentry, hold, hdiffers⟩
      exact ⟨hentry, hold, hold ▸ hdiffers⟩
    · rintro ⟨hentry, hold, hdiffers⟩
      exact ⟨hentry, hold, hold ▸ hdiffers⟩
  inOrder := by
    rw [overlay_changes]
    exact pairwise_diff s.state patch
  redone := by
    rw [overlay_changes]
    exact overlay_state s patch
  undone := by
    rw [overlay_changes, undo_overlay]
    rfl
  stored := by
    intro k v hk
    exact holds_eq_true_iff.1 (holds_overlay hk)
  settled := overlay_again s patch
  merged := overlay_overlay_dataEq s patch

/-- A zero of the other sign is no change, and the state keeps its own zero. -/
example :
    let zero : Data := KeyMap.ofList [("x", .number (.float Decimal.Double.zero))]
    let patch : Data := KeyMap.ofList [("x", .number (.float Decimal.Double.zero.neg))]
    overlay { state := zero } patch = ([], { state := zero }) := rfl

end Store

end Stencil
