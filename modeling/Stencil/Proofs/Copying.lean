import Stencil.Proofs.Visible

/-!
# Rendering on copies

A second way to render a node tree, without blocks compiled in advance and without scopes: the tree
itself is walked, and a loop walks its body once for each element, on a copy of the data in which
the loop's name stands for the element. Main statement: the compiled block of a tree puts out what
this walk does, with any data (`run_compile_eq_copying`).
-/

namespace Stencil

namespace Copying

/-! ## The walk -/

/-- What a value puts out. A template is rendered with empty data. -/
def emit (escape : String → String) (key : String) : Value → Except RenderError String
  | .safe s => .ok s
  | .template t => if t.requiresData then .error (.nestedTemplateNeedsData key) else t.render ∅
  | .string s => .ok (escape s)
  | v => .ok (escape v.text)

/-- What a placeholder puts out. Null counts as no value. -/
def place (escape : String → String) (data : Data) (key : String) (default : Option String) :
    Except RenderError String :=
  match data.get? key, default with
  | none, none => .error (.missingKey key)
  | none, some text => .ok (escape text)
  | some .null, none => .error (.missingKey key)
  | some .null, some text => .ok (escape text)
  | some v, _ => emit escape key v

/-- Whether a condition on a key holds. -/
def holds (data : Data) (key : String) : Bool :=
  match data.get? key with
  | some v => v.isTruthy
  | none => false

/-- What a branch accepts besides the keys that it reads: all that the block around it accepts, or
what that block was given, with the key of the condition. -/
def branchBase (mode : KeyValidation) (base accepted : KeySet) (key : String) : KeySet :=
  match mode with
  | .inherited => accepted
  | .isolated => base.insert key

/-- What a loop body accepts besides the keys that it reads: all that the block around it accepts,
with the name of the loop, or what that block was given, with both names of the loop. -/
def bodyBase (mode : KeyValidation) (base accepted : KeySet) (name collection : String) : KeySet :=
  match mode with
  | .inherited => accepted.insert name
  | .isolated => (base.insert collection).insert name

/-- Goes on only if all keys of the data are accepted. -/
def guarded (accepted : KeySet) (data : Data) (output : Except RenderError String) :
    Except RenderError String := do
  accepted.check data.keys
  output

mutual

/-- What a node puts out in a block that was given `base` and accepts `accepted`. -/
def walk (mode : KeyValidation) (escape : String → String) (base accepted : KeySet) (data : Data) :
    Node → Except RenderError String
  | .literal text => .ok text
  | .placeholder key default => place escape data key default
  | .conditional key whenTrue none =>
    let inner := branchBase mode base accepted key
    if holds data key then
      guarded (inner ∪ Node.listKeys whenTrue) data
        (walkAll mode escape inner (inner ∪ Node.listKeys whenTrue) data whenTrue)
    else .ok ""
  | .conditional key whenTrue (some whenFalse) =>
    let inner := branchBase mode base accepted key
    if holds data key then
      guarded (inner ∪ Node.listKeys whenTrue) data
        (walkAll mode escape inner (inner ∪ Node.listKeys whenTrue) data whenTrue)
    else
      guarded (inner ∪ Node.listKeys whenFalse) data
        (walkAll mode escape inner (inner ∪ Node.listKeys whenFalse) data whenFalse)
  | .iteration name collection body =>
    let inner := bodyBase mode base accepted name collection
    match data.get? collection with
    | some (.array items) =>
      concatMapText
        (fun v =>
          guarded (inner ∪ Node.listKeys body) (data.insert name v)
            (walkAll mode escape inner (inner ∪ Node.listKeys body) (data.insert name v) body))
        items
    | some v => .error (.notIterable collection v.typeName)
    | none => .error (.notIterable collection undefinedName)

/-- What some nodes put out, one after the other. -/
def walkAll (mode : KeyValidation) (escape : String → String) (base accepted : KeySet)
    (data : Data) : List Node → Except RenderError String
  | [] => .ok ""
  | n :: ns => do
    let first ← walk mode escape base accepted data n
    let others ← walkAll mode escape base accepted data ns
    return first ++ others

end

/-- What a block of nodes puts out that was given `base`. -/
def block (mode : KeyValidation) (escape : String → String) (base : KeySet) (data : Data)
    (nodes : List Node) : Except RenderError String :=
  guarded (base ∪ Node.listKeys nodes) data
    (walkAll mode escape base (base ∪ Node.listKeys nodes) data nodes)

/-! ## Outputs in a row -/

/-- Two outputs in a row. -/
def followedBy (r s : Except RenderError String) : Except RenderError String := do
  let first ← r
  let others ← s
  return first ++ others

/-- An output behind the empty one. -/
theorem ok_empty_followedBy (r : Except RenderError String) : followedBy (.ok "") r = r := by
  cases r with
  | error e => rfl
  | ok text => exact congrArg Except.ok String.empty_append

/-- An output in front of the empty one. -/
theorem followedBy_ok_empty (r : Except RenderError String) : followedBy r (.ok "") = r := by
  cases r with
  | error e => rfl
  | ok text => exact congrArg Except.ok String.append_empty

/-- Three outputs in a row. -/
theorem followedBy_assoc (r s t : Except RenderError String) :
    followedBy (followedBy r s) t = followedBy r (followedBy s t) := by
  cases r with
  | error e => rfl
  | ok first =>
    cases s with
    | error e => rfl
    | ok second =>
      cases t with
      | error e => rfl
      | ok third => exact congrArg Except.ok String.append_assoc

/-- Two outputs in a row are a text exactly if both are texts. -/
theorem followedBy_eq_ok_iff {r s : Except RenderError String} {out : String} :
    followedBy r s = .ok out ↔ ∃ first others, r = .ok first ∧ s = .ok others ∧
      first ++ others = out := by
  constructor
  · intro h
    cases r with
    | error e => cases h
    | ok first =>
      cases s with
      | error e => cases h
      | ok others => exact ⟨first, others, rfl, rfl, Except.ok.inj h⟩
  · rintro ⟨first, others, rfl, rfl, rfl⟩
    rfl

/-! ## The walk block by block -/

section Blocks

variable (mode : KeyValidation) (escape : String → String) (base accepted : KeySet) (data : Data)

/-- The first node of a list is walked first. -/
theorem walkAll_cons (n : Node) (ns : List Node) :
    walkAll mode escape base accepted data (n :: ns) =
      followedBy (walk mode escape base accepted data n)
        (walkAll mode escape base accepted data ns) := rfl

/-- Two lists in a row are walked one after the other. -/
theorem walkAll_append (ms ns : List Node) :
    walkAll mode escape base accepted data (ms ++ ns) =
      followedBy (walkAll mode escape base accepted data ms)
        (walkAll mode escape base accepted data ns) := by
  induction ms with
  | nil => rw [List.nil_append, walkAll, ok_empty_followedBy]
  | cons m ms ih => rw [List.cons_append, walkAll_cons, walkAll_cons, ih, followedBy_assoc]

/-- A condition walks the block of its branch if it holds. -/
theorem walk_conditional (key : String) (whenTrue : List Node) :
    walk mode escape base accepted data (.conditional key whenTrue none) =
      if holds data key then
        block mode escape (branchBase mode base accepted key) data whenTrue
      else .ok "" := rfl

/-- A condition with an alternative walks the block of one of its branches. -/
theorem walk_alternative (key : String) (whenTrue whenFalse : List Node) :
    walk mode escape base accepted data (.conditional key whenTrue (some whenFalse)) =
      if holds data key then
        block mode escape (branchBase mode base accepted key) data whenTrue
      else block mode escape (branchBase mode base accepted key) data whenFalse := rfl

/-- A loop walks the block of its body for each element. -/
theorem walk_iteration (name collection : String) (body : List Node) :
    walk mode escape base accepted data (.iteration name collection body) =
      (Scope.root data).collection collection >>= concatMapText fun v =>
        block mode escape (bodyBase mode base accepted name collection) (data.insert name v)
          body := by
  rw [walk, Scope.collection, Scope.lookup]
  cases data.get? collection with
  | none => rfl
  | some v => cases v <;> rfl

end Blocks

/-! ## Values and keys -/

/-- A value puts out the same text either way. -/
theorem emit_eq (escape : String → String) (key : String) (v : Value) :
    v.emit escape key = emit escape key v := by
  cases v with
  | template t => rw [Value.emit, emit, renderEmpty_eq_render]
  | _ => rfl

/-- A placeholder puts out the same text in a scope and on the scope's map. -/
theorem place_eq (escape : String → String) (key : String) (default : Option String) (s : Scope) :
    s.place escape key default = place escape s.flat key default := by
  unfold Scope.place Scope.lookupPresent place
  rw [Scope.lookup_eq_get?]
  cases s.flat.get? key with
  | none => cases default <;> rfl
  | some v =>
    cases v with
    | null => cases default <;> rfl
    | _ => exact emit_eq escape key _

/-- A condition holds in a scope exactly if it does on the scope's map. -/
theorem holds_eq (key : String) (s : Scope) :
    ((s.lookup key).map Value.isTruthy).getD false = holds s.flat key := by
  rw [Scope.lookup_eq_get?, holds]
  cases s.flat.get? key <;> rfl

/-! ## Blocks -/

/-- What a compiled block is given: what the block around it accepts, or what is exempt. -/
def given (mode : KeyValidation) (enclosing exempt : KeySet) : KeySet :=
  match mode with
  | .inherited => enclosing
  | .isolated => exempt

/-- A compiled block accepts what it is given and the keys that its nodes read. -/
theorem acceptedKeys_eq (mode : KeyValidation) (enclosing exempt : KeySet) (nodes : List Node) :
    Block.acceptedKeys mode enclosing exempt nodes =
      given mode enclosing exempt ∪ Node.listKeys nodes := by
  cases mode <;> rfl

/-- A compiled branch is given what the walk gives it. -/
theorem branchBase_given (mode : KeyValidation) (enclosing accepted exempt : KeySet)
    (key : String) :
    branchBase mode (given mode enclosing exempt) accepted key =
      given mode accepted (exempt.insert key) := by
  cases mode <;> rfl

/-- A compiled loop body is given what the walk gives it. -/
theorem bodyBase_given (mode : KeyValidation) (enclosing accepted exempt : KeySet)
    (name collection : String) :
    bodyBase mode (given mode enclosing exempt) accepted name collection =
      given mode (accepted.insert name) ((exempt.insert collection).insert name) := by
  cases mode <;> rfl

/-- The bound names of the scope are accepted around a block and exempt in it. -/
def Bound (s : Scope) (enclosing exempt : KeySet) : Prop :=
  ∀ n ∈ s.names, n ∈ enclosing ∧ n ∈ exempt

/-- A block accepts the bound names, in either mode. -/
theorem Bound.mem_accepted {s : Scope} {enclosing exempt : KeySet} (h : Bound s enclosing exempt)
    (mode : KeyValidation) (nodes : List Node) :
    ∀ n ∈ s.names, n ∈ given mode enclosing exempt ∪ Node.listKeys nodes := by
  intro n hn
  rw [KeySet.mem_union]
  left
  cases mode with
  | inherited => exact (h n hn).1
  | isolated => exact (h n hn).2

/-- One more exempt key does no harm to the bound names. -/
theorem Bound.insert_exempt {s : Scope} {enclosing exempt : KeySet} (h : Bound s enclosing exempt)
    (key : String) : Bound s enclosing (exempt.insert key) := by
  intro n hn
  rw [KeySet.mem_insert]
  exact ⟨(h n hn).1, Or.inr (h n hn).2⟩

/-- The name of a loop may be bound in its body. -/
theorem Bound.bound {s : Scope} {enclosing exempt : KeySet} (h : Bound s enclosing exempt)
    (name collection : String) (v : Value) :
    Bound (.bound name v s) (enclosing.insert name)
      ((exempt.insert collection).insert name) := by
  intro n hn
  simp only [KeySet.mem_insert]
  rcases List.mem_cons.1 hn with rfl | hn
  · exact ⟨Or.inl rfl, Or.inl rfl⟩
  · exact ⟨Or.inr (h n hn).1, Or.inr (Or.inr (h n hn).2)⟩

/-- The nodes inside a compiled block find the bound names accepted. -/
theorem Bound.inner {s : Scope} {enclosing exempt : KeySet} (h : Bound s enclosing exempt)
    (mode : KeyValidation) (nodes : List Node) :
    Bound s (given mode enclosing exempt ∪ Node.listKeys nodes) exempt :=
  fun n hn => ⟨h.mem_accepted mode nodes n hn, (h n hn).2⟩

/-- A compiled block does what a guarded walk does, if its steps do what the walk does. -/
theorem render_mk_eq_guarded (mode : KeyValidation) (escape : String → String)
    (enclosing exempt : KeySet) (nodes : List Node) (s : Scope) (h : Bound s enclosing exempt)
    (hsteps : ∀ accepted, Bound s accepted exempt →
      Step.renderAll escape s (Block.compileNodes mode accepted exempt nodes) =
        walkAll mode escape (given mode enclosing exempt) accepted s.flat nodes) :
    Block.render escape s (.mk (Block.acceptedKeys mode enclosing exempt nodes)
        (Block.compileNodes mode (Block.acceptedKeys mode enclosing exempt nodes) exempt nodes)) =
      block mode escape (given mode enclosing exempt) s.flat nodes := by
  rw [Block.render, acceptedKeys_eq, block, guarded,
    validate_eq_check_flat _ s (h.mem_accepted mode nodes), hsteps _ (h.inner mode nodes)]

/-- **Steps against the walk.** The steps of some nodes put out in a scope what the walk over the
nodes puts out on the scope's map, if the bound names are accepted and exempt. -/
theorem renderAll_compileNodes (mode : KeyValidation) (escape : String → String)
    (nodes : List Node) (enclosing accepted exempt : KeySet) (s : Scope)
    (h : Bound s accepted exempt) :
    Step.renderAll escape s (Block.compileNodes mode accepted exempt nodes) =
      walkAll mode escape (given mode enclosing exempt) accepted s.flat nodes := by
  -- the sets and the scope vary, since every block inside has its own; the bound names stay in both
  induction nodes using Node.listInduction generalizing enclosing accepted exempt s with
  | nil => rfl
  | literal text ns ih =>
    rw [Block.compileNodes, Step.renderAll, walkAll, ih enclosing accepted exempt s h]
    rfl
  | placeholder key default ns ih =>
    rw [Block.compileNodes, Step.renderAll, walkAll, ih enclosing accepted exempt s h,
      Block.compileNode, Step.render, walk, place_eq]
  | conditional key whenTrue ns iht ih =>
    have ht := render_mk_eq_guarded mode escape accepted (exempt.insert key) whenTrue s
      (h.insert_exempt key) fun acc hacc => iht accepted acc _ s hacc
    rw [Block.compileNodes, Step.renderAll, walkAll, ih enclosing accepted exempt s h,
      Block.compileNode, Step.render, walk, holds_eq, ht, branchBase_given]
    rfl
  | alternative key whenTrue whenFalse ns iht ihf ih =>
    have ht := render_mk_eq_guarded mode escape accepted (exempt.insert key) whenTrue s
      (h.insert_exempt key) fun acc hacc => iht accepted acc _ s hacc
    have hf := render_mk_eq_guarded mode escape accepted (exempt.insert key) whenFalse s
      (h.insert_exempt key) fun acc hacc => ihf accepted acc _ s hacc
    rw [Block.compileNodes, Step.renderAll, walkAll, ih enclosing accepted exempt s h,
      Block.compileNode, Step.render, walk, holds_eq, ht, hf, branchBase_given]
    rfl
  | iteration name collection body ns ihb ih =>
    -- each element is bound in a scope of its own, whose map is the copy that the walk goes on with
    have hb : ∀ v, Block.render escape (.bound name v s)
        (.mk (Block.acceptedKeys mode (accepted.insert name)
            ((exempt.insert collection).insert name) body)
          (Block.compileNodes mode (Block.acceptedKeys mode (accepted.insert name)
            ((exempt.insert collection).insert name) body)
            ((exempt.insert collection).insert name) body)) =
        block mode escape (bodyBase mode (given mode enclosing exempt) accepted name collection)
          (s.flat.insert name v) body := by
      intro v
      rw [bodyBase_given]
      exact render_mk_eq_guarded mode escape _ _ body (.bound name v s) (h.bound name collection v)
        fun acc hacc => ihb (accepted.insert name) acc _ _ hacc
    rw [Block.compileNodes, Step.renderAll, walkAll, ih enclosing accepted exempt s h,
      Block.compileNode, Step.render, walk, Scope.collection, Scope.lookup_eq_get?]
    congr 1
    cases s.flat.get? collection with
    | none => rfl
    | some v =>
      cases v with
      | array items =>
        show concatMapText _ items = concatMapText _ items
        congr 1
        funext v
        exact hb v
      | _ => rfl

/-- A block of nodes puts out in a scope what the walk puts out on the scope's map. -/
theorem render_ofNodes_eq_block (mode : KeyValidation) (escape : String → String)
    (enclosing exempt : KeySet) (nodes : List Node) (s : Scope) (h : Bound s enclosing exempt) :
    (Block.ofNodes mode enclosing exempt nodes).render escape s =
      block mode escape (given mode enclosing exempt) s.flat nodes :=
  render_mk_eq_guarded mode escape enclosing exempt nodes s h
    fun acc hacc => renderAll_compileNodes mode escape nodes enclosing acc exempt s hacc

/-- The block of a template puts out with some data what the walk puts out on it. -/
theorem run_ofNodes_eq_block (mode : KeyValidation) (escape : String → String)
    (inherited : KeySet) (nodes : List Node) (data : Data) :
    (Block.ofNodes mode inherited inherited nodes).run escape data =
      block mode escape inherited data nodes := by
  have hbound : Bound (.root data) inherited inherited := fun n hn => absurd hn List.not_mem_nil
  have hgiven : given mode inherited inherited = inherited := by cases mode <;> rfl
  rw [Block.run, render_ofNodes_eq_block mode escape inherited inherited nodes _ hbound, hgiven]
  rfl

end Copying

/-! ## The main statement -/

/-- **A compiled template against the walk on copies.** A tree within the ceiling is compiled, and
its block puts out with any data, under any escaping, what the walk puts out: the same text or the
same error. -/
theorem run_compile_eq_copying (maxDepth : Nat) (mode : KeyValidation) (inherited : KeySet)
    (nodes : List Node) (h : Node.listDepth nodes ≤ maxDepth) :
    ∃ b, Block.compile maxDepth mode inherited nodes = .ok b ∧
      ∀ (escape : String → String) (data : Data),
        b.run escape data = Copying.block mode escape inherited data nodes :=
  ⟨Block.ofNodes mode inherited inherited nodes, Block.compile_eq_ok h mode inherited,
    fun escape data => Copying.run_ofNodes_eq_block mode escape inherited nodes data⟩

/-- A loop over the elements that the loop around it has bound to its own name, which is a key of
the data too. -/
theorem run_compile_eq_copying_rebound :
    Node.listDepth [.placeholder "x" none, .iteration "x" "xs" [.iteration "x" "x"
      [.placeholder "x" none], .literal ";"], .placeholder "x" none] ≤ 2 ∧
    ∃ b, Block.compile 2 .isolated ∅ [.placeholder "x" none, .iteration "x" "xs"
        [.iteration "x" "x" [.placeholder "x" none], .literal ";"], .placeholder "x" none] = .ok b ∧
      b.run id (KeyMap.ofList [("x", .string "o"), ("xs", .array [.array [.string "a", .string "b"],
        .array [.string "c"]])]) = .ok "oab;c;o" := by
  refine ⟨by decide, ?_⟩
  obtain ⟨b, hb, hrun⟩ := run_compile_eq_copying 2 .isolated ∅ [.placeholder "x" none,
    .iteration "x" "xs" [.iteration "x" "x" [.placeholder "x" none], .literal ";"],
    .placeholder "x" none] (by decide)
  exact ⟨b, hb, (hrun id _).trans rfl⟩

end Stencil
