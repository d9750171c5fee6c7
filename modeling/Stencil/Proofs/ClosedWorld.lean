import Stencil.Proofs.Visible

/-!
# The closed world

Data may hold no key but those that a template accepts. Where nested blocks accept all that the
blocks around them accept, this is settled before anything is put out: every nested block accepts
all keys in its sight. Main statement: such a template refuses a key exactly if the data holds one
outside, and then the first one (`run_eq_unexpectedKey_iff`).
-/

namespace Stencil

/-! ## Renderings that refuse no key -/

/-- The rendering does not end because of a key that is not accepted. -/
def RefusesNoKey {α : Type} (r : Except RenderError α) : Prop :=
  ∀ k, r ≠ .error (.unexpectedKey k)

/-- What succeeds refuses no key. -/
theorem refusesNoKey_ok {α : Type} (x : α) : RefusesNoKey (.ok x) := by
  intro k h
  cases h

/-- Two renderings in a row refuse no key if neither does. -/
theorem RefusesNoKey.bind {α β : Type} {r : Except RenderError α} {f : α → Except RenderError β}
    (hr : RefusesNoKey r) (hf : ∀ x, RefusesNoKey (f x)) : RefusesNoKey (r >>= f) := by
  cases r with
  | error e =>
    intro k h
    have he : e = .unexpectedKey k := Except.error.inj h
    exact hr k (congrArg Except.error he)
  | ok x => exact hf x

/-- The texts of some elements refuse no key if none of them does. -/
theorem refusesNoKey_concatMapText {α : Type} (f : α → Except RenderError String) (xs : List α)
    (hf : ∀ x, RefusesNoKey (f x)) : RefusesNoKey (concatMapText f xs) := by
  induction xs with
  | nil => exact refusesNoKey_ok ""
  | cons x xs ih => exact (hf x).bind fun first => ih.bind fun others => refusesNoKey_ok _

/-- Nothing is refused where no key has a value. -/
theorem refusesNoKey_renderAllEmpty (escape : String → String) (steps : List Step) :
    RefusesNoKey (Step.renderAllEmpty escape steps) := by
  induction steps using Step.listInduction with
  | nil => exact refusesNoKey_ok ""
  | text t ss ih =>
    rw [Step.renderAllEmpty, Step.renderEmpty]
    exact (refusesNoKey_ok t).bind fun _ => ih.bind fun _ => refusesNoKey_ok _
  | place key default ss ih =>
    rw [Step.renderAllEmpty]
    cases default with
    | none =>
      intro k h
      cases h
    | some text => exact (refusesNoKey_ok _).bind fun _ => ih.bind fun _ => refusesNoKey_ok _
  | choose key accepted whenTrue ss _ ih =>
    rw [Step.renderAllEmpty, Step.renderEmpty]
    exact (refusesNoKey_ok "").bind fun _ => ih.bind fun _ => refusesNoKey_ok _
  | alternative key accepted whenTrue accepted' whenFalse ss _ ihf ih =>
    rw [Step.renderAllEmpty, Step.renderEmpty, Block.renderEmpty]
    exact ihf.bind fun _ => ih.bind fun _ => refusesNoKey_ok _
  | each name collection accepted body ss _ _ =>
    rw [Step.renderAllEmpty, Step.renderEmpty]
    intro k h
    cases h

/-- No value refuses a key, a template least of all, whatever made it. -/
theorem refusesNoKey_emit (escape : String → String) (key : String) (v : Value) :
    RefusesNoKey (v.emit escape key) := by
  cases v with
  | template t =>
    rw [Value.emit]
    split
    · intro k h
      cases h
    · rw [Template.renderEmpty]
      cases t.block with
      | mk accepted steps => exact refusesNoKey_renderAllEmpty t.escaper.escape steps
  | _ => exact refusesNoKey_ok _

/-- No placeholder refuses a key. -/
theorem refusesNoKey_place (escape : String → String) (key : String) (default : Option String)
    (s : Scope) : RefusesNoKey (s.place escape key default) := by
  unfold Scope.place
  split
  · exact refusesNoKey_emit escape key _
  · exact refusesNoKey_ok _
  · intro k h
    cases h

/-- No search for the elements of a loop refuses a key. -/
theorem refusesNoKey_collection (key : String) (s : Scope) : RefusesNoKey (s.collection key) := by
  unfold Scope.collection
  split
  · exact refusesNoKey_ok _
  · intro k h
    cases h
  · intro k h
    cases h

/-! ## Nested blocks -/

/-- All keys in sight are in the set. -/
def Sees (s : Scope) (accepted : KeySet) : Prop :=
  ∀ k ∈ s.visible, k ∈ accepted

/-- More keys may be accepted. -/
theorem Sees.union {s : Scope} {accepted : KeySet} (h : Sees s accepted) (more : KeySet) :
    Sees s (accepted ∪ more) := by
  intro k hk
  rw [KeySet.mem_union]
  exact Or.inl (h k hk)

/-- The name of a loop comes into sight where it is accepted. -/
theorem Sees.bound {s : Scope} {accepted : KeySet} (h : Sees s accepted) (name : String)
    (v : Value) : Sees (.bound name v s) (accepted.insert name) := by
  intro k hk
  rw [KeySet.mem_insert]
  rcases List.mem_cons.1 hk with rfl | hk
  · exact Or.inl rfl
  · exact Or.inr (h k hk)

/-- A block refuses no key if it accepts those in sight and its steps refuse none. -/
theorem refusesNoKey_render_mk (escape : String → String) (s : Scope) (accepted : KeySet)
    (steps : List Step) (h : Sees s accepted)
    (hsteps : RefusesNoKey (Step.renderAll escape s steps)) :
    RefusesNoKey (Block.render escape s (.mk accepted steps)) := by
  have hvalid : s.validate accepted = .ok () := by
    rw [Scope.validate_eq_check, KeySet.check_eq_ok_iff]
    exact h
  rw [Block.render, hvalid]
  exact hsteps

/-- **Nothing is refused inside.** Where all keys in sight are accepted, the steps of nested blocks
that accept what is accepted around them refuse none. -/
theorem refusesNoKey_renderAll (escape : String → String) (nodes : List Node)
    (accepted exempt : KeySet) (s : Scope) (h : Sees s accepted) :
    RefusesNoKey (Step.renderAll escape s
      (Block.compileNodes .inherited accepted exempt nodes)) := by
  -- what is accepted grows along the way inside, and comes into sight only where it is accepted
  induction nodes using Node.listInduction generalizing accepted exempt s with
  | nil => exact refusesNoKey_ok ""
  | literal text ns ih =>
    rw [Block.compileNodes, Step.renderAll]
    exact (refusesNoKey_ok text).bind fun _ => (ih _ _ s h).bind fun _ => refusesNoKey_ok _
  | placeholder key default ns ih =>
    rw [Block.compileNodes, Step.renderAll]
    exact (refusesNoKey_place escape key default s).bind fun _ =>
      (ih _ _ s h).bind fun _ => refusesNoKey_ok _
  | conditional key whenTrue ns iht ih =>
    rw [Block.compileNodes, Step.renderAll, Block.compileNode, Step.render]
    refine RefusesNoKey.bind ?_ fun _ => (ih _ _ s h).bind fun _ => refusesNoKey_ok _
    split
    · exact refusesNoKey_render_mk escape s _ _ (h.union _) (iht _ _ s (h.union _))
    · exact refusesNoKey_ok ""
  | alternative key whenTrue whenFalse ns iht ihf ih =>
    rw [Block.compileNodes, Step.renderAll, Block.compileNode, Step.render]
    refine RefusesNoKey.bind ?_ fun _ => (ih _ _ s h).bind fun _ => refusesNoKey_ok _
    split
    · exact refusesNoKey_render_mk escape s _ _ (h.union _) (iht _ _ s (h.union _))
    · exact refusesNoKey_render_mk escape s _ _ (h.union _) (ihf _ _ s (h.union _))
  | iteration name collection body ns ihb ih =>
    rw [Block.compileNodes, Step.renderAll, Block.compileNode, Step.render]
    refine RefusesNoKey.bind ?_ fun _ => (ih _ _ s h).bind fun _ => refusesNoKey_ok _
    refine (refusesNoKey_collection collection s).bind fun items => ?_
    refine refusesNoKey_concatMapText _ items fun v => ?_
    have hv := (h.bound name v).union (Node.listKeys body)
    exact refusesNoKey_render_mk escape _ _ _ hv (ihb _ _ _ hv)

/-! ## The main statement -/

/-- A template refuses what the check at its top refuses. -/
theorem run_ofNodes_eq_unexpectedKey_iff (escape : String → String) (inherited : KeySet)
    (nodes : List Node) (data : Data) (k : String) :
    (Block.ofNodes .inherited inherited inherited nodes).run escape data =
        .error (.unexpectedKey k) ↔
      (inherited ∪ Node.listKeys nodes).check data.keys = .error (.unexpectedKey k) := by
  rw [Block.run, Block.ofNodes, Block.render]
  show (Scope.validate (inherited ∪ Node.listKeys nodes) (.root data) >>= fun _ =>
    Step.renderAll escape (.root data)
      (Block.compileNodes .inherited (inherited ∪ Node.listKeys nodes) inherited nodes)) = _ ↔ _
  rw [Scope.validate_eq_check, Scope.visible]
  by_cases hok : (inherited ∪ Node.listKeys nodes).check data.keys = .ok ()
  · -- the check passes, and nothing inside refuses a key
    have hsees : Sees (.root data) (inherited ∪ Node.listKeys nodes) :=
      (KeySet.check_eq_ok_iff _ _).1 hok
    rw [hok]
    constructor
    · intro h
      exact absurd h (refusesNoKey_renderAll escape nodes _ inherited _ hsees k)
    · intro h
      cases h
  · -- the check fails, and nothing inside is reached
    obtain ⟨j, hj⟩ := exists_check_eq_unexpectedKey _ _ hok
    rw [hj]
    constructor
    · intro h
      exact congrArg Except.error (Except.error.inj h)
    · intro h
      exact congrArg Except.error (Except.error.inj h)

/-- **The closed world is settled at the top.** A tree within the ceiling, whose nested blocks
accept all that is accepted around them, is compiled into a block that ends because of a key exactly
if the data holds one that is neither inherited nor read by the tree; and the key is the first such
one, whatever the values are and whatever else would go wrong. -/
theorem run_eq_unexpectedKey_iff (maxDepth : Nat) (inherited : KeySet) (nodes : List Node)
    (h : Node.listDepth nodes ≤ maxDepth) :
    ∃ b, Block.compile maxDepth .inherited inherited nodes = .ok b ∧
      ∀ (escape : String → String) (data : Data),
        ((∃ k, b.run escape data = .error (.unexpectedKey k)) ↔
          ∃ j ∈ data.keys, j ∉ inherited ∪ Node.listKeys nodes) ∧
        ∀ k, b.run escape data = .error (.unexpectedKey k) ↔
          FirstOutside (inherited ∪ Node.listKeys nodes) data k := by
  refine ⟨Block.ofNodes .inherited inherited inherited nodes,
    Block.compile_eq_ok h .inherited inherited, fun escape data => ⟨?_, ?_⟩⟩
  · simp only [run_ofNodes_eq_unexpectedKey_iff]
    constructor
    · rintro ⟨k, hk⟩
      have hfirst := (check_keys_eq_unexpectedKey_iff _ data k).1 hk
      exact ⟨k, hfirst.mem, hfirst.not_mem⟩
    · rintro ⟨j, hj, hout⟩
      refine exists_check_eq_unexpectedKey _ _ fun hok => hout ?_
      exact (KeySet.check_eq_ok_iff _ _).1 hok j hj
  · intro k
    rw [run_ofNodes_eq_unexpectedKey_iff, check_keys_eq_unexpectedKey_iff]

/-- A loop named like its own collection, after a placeholder that finds no value: the data holds two
keys outside, of which the first one is refused. -/
theorem run_eq_unexpectedKey_before_missingKey :
    Node.listDepth [.placeholder "a" none, .iteration "x" "x" [.placeholder "x" none]] ≤ 1 ∧
    ∃ b, Block.compile 1 .inherited (KeySet.ofList ["i"])
        [.placeholder "a" none, .iteration "x" "x" [.placeholder "x" none]] = .ok b ∧
      b.run id (KeyMap.ofList [("z", .null), ("x", .array [.bool true]), ("i", .null),
        ("q", .safe "")]) = .error (.unexpectedKey "q") := by
  refine ⟨by decide, ?_⟩
  obtain ⟨b, hb, hrun⟩ := run_eq_unexpectedKey_iff 1 (KeySet.ofList ["i"])
    [.placeholder "a" none, .iteration "x" "x" [.placeholder "x" none]] (by decide)
  refine ⟨b, hb, ((hrun id _).2 "q").2 ⟨?_, ?_, ?_⟩⟩
  · decide
  · decide
  · decide

end Stencil
