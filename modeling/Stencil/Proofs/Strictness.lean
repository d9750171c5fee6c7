import Stencil.Proofs.Copying

/-!
# Stricter validation

Isolated blocks are stricter than blocks that accept what is accepted around them, and fewer
inherited keys are stricter than more of them. Main statement: a stricter template does what a laxer
one does, unless it refuses a key of the data instead (`run_eq_or_refuses_of_stricter`).
-/

namespace Stencil

/-- Isolated blocks are the stricter ones. -/
instance : LE KeyValidation := ⟨fun mode mode' => mode = .isolated ∨ mode' = .inherited⟩

/-! ## Renderings that may refuse a key instead -/

/-- The first rendering is the second one, unless it refuses a key of the data. -/
def Narrows {α : Type} (data : Data) (r r' : Except RenderError α) : Prop :=
  r = r' ∨ ∃ k ∈ data.keys, r = .error (.unexpectedKey k)

/-- A rendering narrows itself. -/
theorem Narrows.refl {α : Type} (data : Data) (r : Except RenderError α) : Narrows data r r :=
  Or.inl rfl

/-- Narrowing goes through renderings in a row: what the first one refuses ends both of them. -/
theorem Narrows.bind {α β : Type} {data : Data} {r r' : Except RenderError α}
    {f f' : α → Except RenderError β} (hr : Narrows data r r')
    (hf : ∀ x, Narrows data (f x) (f' x)) : Narrows data (r >>= f) (r' >>= f') := by
  rcases hr with rfl | ⟨k, hk, rfl⟩
  · cases r with
    | error e => exact Or.inl rfl
    | ok x => exact hf x
  · exact Or.inr ⟨k, hk, rfl⟩

/-- Narrowing goes through two outputs in a row. -/
theorem Narrows.followedBy {data : Data} {r r' s s' : Except RenderError String}
    (hr : Narrows data r r') (hs : Narrows data s s') :
    Narrows data (Copying.followedBy r s) (Copying.followedBy r' s') :=
  hr.bind fun _ => hs.bind fun _ => .refl data _

/-- Narrowing goes through the texts of some elements. -/
theorem Narrows.concatMapText {α : Type} {data : Data} {f f' : α → Except RenderError String}
    (hf : ∀ x, Narrows data (f x) (f' x)) (xs : List α) :
    Narrows data (concatMapText f xs) (concatMapText f' xs) := by
  induction xs with
  | nil => exact .refl data _
  | cons x xs ih => exact (hf x).followedBy ih

/-- Narrowing goes through a choice that both renderings make alike. -/
theorem Narrows.ite {α : Type} {data : Data} {r r' s s' : Except RenderError α} (c : Prop)
    [Decidable c] (hr : Narrows data r r') (hs : Narrows data s s') :
    Narrows data (if c then r else s) (if c then r' else s') := by
  by_cases hc : c
  · rw [if_pos hc, if_pos hc]
    exact hr
  · rw [if_neg hc, if_neg hc]
    exact hs

/-! ## What nested blocks are given -/

namespace Copying

section Given

variable {mode mode' : KeyValidation} (hmode : mode ≤ mode') {base base' : KeySet}
  (hbase : base ⊆ base') (read : KeySet)

include hmode hbase

/-- A branch of a stricter block is given no more than that of a laxer one, as the laxer block reads
the key of the condition. -/
theorem branchBase_subset {key : String} (hkey : key ∈ read) :
    branchBase mode base (base ∪ read) key ⊆ branchBase mode' base' (base' ∪ read) key := by
  cases mode with
  | inherited =>
    have hmode' : mode' = .inherited := by simpa [LE.le] using hmode
    subst hmode'
    exact KeySet.union_subset_union_left hbase read
  | isolated =>
    cases mode' with
    | inherited =>
      intro k hk
      rw [branchBase, KeySet.mem_insert] at hk
      rw [branchBase, KeySet.mem_union]
      rcases hk with rfl | hk
      · exact Or.inr hkey
      · exact Or.inl (hbase k hk)
    | isolated => exact KeySet.insert_subset_insert hbase key

/-- A loop body of a stricter block is given no more than that of a laxer one, as the laxer block
reads the collection. -/
theorem bodyBase_subset (name : String) {collection : String} (hcollection : collection ∈ read) :
    bodyBase mode base (base ∪ read) name collection ⊆
      bodyBase mode' base' (base' ∪ read) name collection := by
  cases mode with
  | inherited =>
    have hmode' : mode' = .inherited := by simpa [LE.le] using hmode
    subst hmode'
    exact KeySet.insert_subset_insert (KeySet.union_subset_union_left hbase read) name
  | isolated =>
    cases mode' with
    | inherited =>
      refine KeySet.insert_subset_insert (fun k hk => ?_) name
      rw [KeySet.mem_insert] at hk
      rw [KeySet.mem_union]
      rcases hk with rfl | hk
      · exact Or.inr hcollection
      · exact Or.inl (hbase k hk)
    | isolated =>
      exact KeySet.insert_subset_insert (KeySet.insert_subset_insert hbase collection) name

end Given

/-! ## Keys of the data at the top -/

/-- Every key of the data, bindings included, is given to the block or stands in the data at the
top. -/
def Rooted (root : Data) (base : KeySet) (data : Data) : Prop :=
  ∀ k ∈ data.keys, k ∈ base ∨ k ∈ root.keys

/-- A branch is given what its block was given. -/
theorem Rooted.branch {root data : Data} {base : KeySet} (h : Rooted root base data)
    (mode : KeyValidation) (read : KeySet) (key : String) :
    Rooted root (branchBase mode base (base ∪ read) key) data := by
  intro k hk
  refine (h k hk).imp_left fun hbase => ?_
  cases mode <;> simp [branchBase, hbase]

/-- A loop body is given what its block was given, and the name that it binds. -/
theorem Rooted.body {root data : Data} {base : KeySet} (h : Rooted root base data)
    (mode : KeyValidation) (read : KeySet) (name collection : String) (v : Value) :
    Rooted root (bodyBase mode base (base ∪ read) name collection) (data.insert name v) := by
  intro k hk
  rcases KeyMap.mem_keys_insert.1 hk with rfl | hk
  · left
    cases mode <;> simp [bodyBase]
  · refine (h k hk).imp_left fun hbase => ?_
    cases mode <;> simp [bodyBase, hbase]

/-! ## Blocks -/

/-- A check against fewer keys narrows one against more of them, and the key that it refuses stands
in the data at the top. -/
theorem narrows_check {root data : Data} {base base' : KeySet} (h : Rooted root base data)
    (hbase : base ⊆ base') (read : KeySet) :
    Narrows root ((base ∪ read).check data.keys) ((base' ∪ read).check data.keys) := by
  by_cases hok : (base ∪ read).check data.keys = .ok ()
  · have hall := (KeySet.check_eq_ok_iff _ _).1 hok
    have hok' : (base' ∪ read).check data.keys = .ok () := by
      rw [KeySet.check_eq_ok_iff]
      exact fun k hk => KeySet.union_subset_union_left hbase read k (hall k hk)
    exact Or.inl (hok.trans hok'.symm)
  · obtain ⟨k, hk⟩ := exists_check_eq_unexpectedKey _ _ hok
    have hfirst := (check_keys_eq_unexpectedKey_iff _ data k).1 hk
    have hroot : k ∈ root.keys := by
      refine (h k hfirst.mem).resolve_left fun hmem => hfirst.not_mem ?_
      exact KeySet.subset_union_left base read k hmem
    exact Or.inr ⟨k, hroot, hk⟩

section Blocks

variable {mode mode' : KeyValidation} {escape : String → String} {root : Data}

/-- A block that is given fewer keys narrows one that is given more, if its nodes do. -/
theorem narrows_block {base base' : KeySet} {data : Data} {nodes : List Node}
    (h : Rooted root base data) (hbase : base ⊆ base')
    (hnodes : Narrows root
      (walkAll mode escape base (base ∪ Node.listKeys nodes) data nodes)
      (walkAll mode' escape base' (base' ∪ Node.listKeys nodes) data nodes)) :
    Narrows root (block mode escape base data nodes) (block mode' escape base' data nodes) :=
  (narrows_check h hbase (Node.listKeys nodes)).bind fun _ => hnodes

/-- **Stricter walks.** The nodes of a stricter block narrow those of a laxer one, where both blocks
read at least what these nodes read. -/
theorem narrows_walkAll (hmode : mode ≤ mode') (nodes : List Node) (base base' read : KeySet)
    (data : Data) (hread : Node.listKeys nodes ⊆ read) (hbase : base ⊆ base')
    (h : Rooted root base data) :
    Narrows root (walkAll mode escape base (base ∪ read) data nodes)
      (walkAll mode' escape base' (base' ∪ read) data nodes) := by
  -- what the blocks are given grows along the way inside, on both sides, and stays in the same order
  induction nodes using Node.listInduction generalizing base base' read data with
  | nil => exact .refl root _
  | literal text ns ih =>
    have hns := KeySet.subset_trans (Node.listKeys_subset_listKeys _ ns) hread
    exact (Narrows.refl root _).followedBy (ih _ _ _ _ hns hbase h)
  | placeholder key default ns ih =>
    have hns := KeySet.subset_trans (Node.listKeys_subset_listKeys _ ns) hread
    exact (Narrows.refl root _).followedBy (ih _ _ _ _ hns hbase h)
  | conditional key whenTrue ns iht ih =>
    have hns := KeySet.subset_trans (Node.listKeys_subset_listKeys _ ns) hread
    have hkey : key ∈ read := hread key (Node.keys_subset_listKeys _ ns key (by simp [Node.keys]))
    have hinner := branchBase_subset hmode hbase read hkey
    have hrooted := h.branch mode read key
    have ht := narrows_block hrooted hinner
      (iht _ _ _ _ (fun _ hk => hk) hinner hrooted)
    rw [walkAll_cons, walkAll_cons, walk_conditional, walk_conditional]
    exact (Narrows.ite _ ht (.refl root _)).followedBy (ih _ _ _ _ hns hbase h)
  | alternative key whenTrue whenFalse ns iht ihf ih =>
    have hns := KeySet.subset_trans (Node.listKeys_subset_listKeys _ ns) hread
    have hkey : key ∈ read := hread key (Node.keys_subset_listKeys _ ns key (by simp [Node.keys]))
    have hinner := branchBase_subset hmode hbase read hkey
    have hrooted := h.branch mode read key
    have ht := narrows_block hrooted hinner
      (iht _ _ _ _ (fun _ hk => hk) hinner hrooted)
    have hf := narrows_block hrooted hinner
      (ihf _ _ _ _ (fun _ hk => hk) hinner hrooted)
    rw [walkAll_cons, walkAll_cons, walk_alternative, walk_alternative]
    exact (Narrows.ite _ ht hf).followedBy (ih _ _ _ _ hns hbase h)
  | iteration name collection body ns ihb ih =>
    have hns := KeySet.subset_trans (Node.listKeys_subset_listKeys _ ns) hread
    have hcollection : collection ∈ read :=
      hread collection (Node.keys_subset_listKeys _ ns collection (by simp [Node.keys]))
    have hinner := bodyBase_subset hmode hbase read name hcollection
    have hb : ∀ v, Narrows root
        (block mode escape (bodyBase mode base (base ∪ read) name collection)
          (data.insert name v) body)
        (block mode' escape (bodyBase mode' base' (base' ∪ read) name collection)
          (data.insert name v) body) := by
      intro v
      have hrooted := h.body mode read name collection v
      exact narrows_block hrooted hinner (ihb _ _ _ _ (fun _ hk => hk) hinner hrooted)
    rw [walkAll_cons, walkAll_cons, walk_iteration, walk_iteration]
    have hloop := (Narrows.refl root ((Scope.root data).collection collection)).bind
      (Narrows.concatMapText hb)
    exact hloop.followedBy (ih _ _ _ _ hns hbase h)

end Blocks

end Copying

/-! ## The main statement -/

/-- **Stricter validation only refuses more.** A tree within the ceiling is compiled twice, the
second time with validation and inherited keys that are no stricter than the first time. With any
data the first template does what the second one does, or it refuses a key of the data. So what the
first one puts out the second one puts out too, and any other error of the first one is that of the
second. -/
theorem run_eq_or_refuses_of_stricter (maxDepth : Nat) (mode mode' : KeyValidation)
    (inherited inherited' : KeySet) (hmode : mode ≤ mode') (hkeys : inherited ⊆ inherited')
    (nodes : List Node) (h : Node.listDepth nodes ≤ maxDepth) :
    ∃ strict lax, Block.compile maxDepth mode inherited nodes = .ok strict ∧
      Block.compile maxDepth mode' inherited' nodes = .ok lax ∧
      ∀ (escape : String → String) (data : Data),
        (strict.run escape data = lax.run escape data ∨
          ∃ k ∈ data.keys, strict.run escape data = .error (.unexpectedKey k)) ∧
        (∀ out, strict.run escape data = .ok out → lax.run escape data = .ok out) ∧
        ∀ e, (∀ k, e ≠ .unexpectedKey k) → strict.run escape data = .error e →
          lax.run escape data = .error e := by
  refine ⟨_, _, Block.compile_eq_ok h mode inherited, Block.compile_eq_ok h mode' inherited', ?_⟩
  intro escape data
  rw [Copying.run_ofNodes_eq_block, Copying.run_ofNodes_eq_block]
  have hrooted : Copying.Rooted data inherited data := fun k hk => Or.inr hk
  have hnarrows : Narrows data (Copying.block mode escape inherited data nodes)
      (Copying.block mode' escape inherited' data nodes) :=
    Copying.narrows_block hrooted hkeys
      (Copying.narrows_walkAll hmode nodes _ _ _ data (fun _ hk => hk) hkeys hrooted)
  refine ⟨hnarrows, ?_, ?_⟩
  · intro out hout
    rcases hnarrows with heq | ⟨k, _, hk⟩
    · rw [← heq, hout]
    · rw [hk] at hout
      cases hout
  · intro e he herror
    rcases hnarrows with heq | ⟨k, _, hk⟩
    · rw [← heq, herror]
    · rw [hk] at herror
      exact absurd (Except.error.inj herror).symm (he k)

/-- A branch that is not taken refuses nothing, and a key without a value is missed before a branch
is reached: the laxer template does the same. -/
theorem run_eq_or_refuses_of_stricter_branch :
    KeyValidation.isolated ≤ .inherited ∧ (∅ : KeySet) ⊆ KeySet.ofList ["i"] ∧
    Node.listDepth [.placeholder "title" none,
      .conditional "show" [.placeholder "name" none] none] ≤ 1 ∧
    ∃ lax, Block.compile 1 .inherited (KeySet.ofList ["i"]) [.placeholder "title" none,
        .conditional "show" [.placeholder "name" none] none] = .ok lax ∧
      lax.run id (KeyMap.ofList [("title", .string "T"), ("show", .bool false)]) = .ok "T" ∧
      lax.run id (KeyMap.ofList [("show", .bool true)]) = .error (.missingKey "title") := by
  have hmode : KeyValidation.isolated ≤ .inherited := Or.inl rfl
  have hkeys : (∅ : KeySet) ⊆ KeySet.ofList ["i"] := fun k hk => absurd hk KeySet.not_mem_empty
  have hdepth : Node.listDepth [.placeholder "title" none,
      .conditional "show" [.placeholder "name" none] none] ≤ 1 := by decide
  refine ⟨hmode, hkeys, hdepth, ?_⟩
  obtain ⟨strict, lax, hstrict, hlax, hrun⟩ :=
    run_eq_or_refuses_of_stricter 1 .isolated .inherited ∅ _ hmode hkeys _ hdepth
  obtain rfl := Except.ok.inj ((Block.compile_eq_ok hdepth .isolated ∅).symm.trans hstrict)
  refine ⟨lax, hlax, (hrun id _).2.1 "T" rfl, (hrun id _).2.2 _ ?_ rfl⟩
  intro k hk
  cases hk

end Stencil
