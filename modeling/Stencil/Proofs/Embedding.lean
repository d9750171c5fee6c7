import Stencil.Proofs.Dependence

/-!
# Templates as values

A template that asks for no data may stand among the data of another one, where it is rendered on
the spot with the escaper that it was compiled with. Whatever looks at such a value, a placeholder,
a condition, a loop or a check of keys, finds in it what it would find in the text that the template
puts out, given as safe text; only the name of what a loop cannot run over tells the two apart. Main
statement: a rendering in which the template stands under a key is the rendering in which its text
stands there (`run_template_alike_run_safe`).
-/

namespace Stencil

namespace Copying

section Embedded

variable {k s : String} {t : Template}

/-! ## Alike data -/

/-- Two data that hold the same under each key, except that the first may hold a template under `k`
where the second one holds a safe text. -/
def Embeds (k s : String) (t : Template) (d e : Data) : Prop :=
  ∀ x, d.get? x = e.get? x ∨ x = k ∧ d.get? x = some (.template t) ∧ e.get? x = some (.safe s)

/-- The template under the key, and its text under the key. -/
theorem embeds_insert (data : Data) :
    Embeds k s t (data.insert k (.template t)) (data.insert k (.safe s)) := by
  intro x
  rw [KeyMap.get?_insert, KeyMap.get?_insert]
  by_cases hx : x = k
  · right
    rw [if_pos hx, if_pos hx]
    exact ⟨hx, rfl, rfl⟩
  · left
    rw [if_neg hx, if_neg hx]

/-- A loop may bind its name in both data, also the name of the key. -/
theorem Embeds.insert {d e : Data} (h : Embeds k s t d e) (name : String) (v : Value) :
    Embeds k s t (d.insert name v) (e.insert name v) := by
  intro x
  rw [KeyMap.get?_insert, KeyMap.get?_insert]
  by_cases hx : x = name
  · left
    rw [if_pos hx, if_pos hx]
  · rw [if_neg hx, if_neg hx]
    exact h x

/-- Both data have the same keys. -/
theorem Embeds.keys_eq {d e : Data} (h : Embeds k s t d e) : d.keys = e.keys := by
  apply keys_eq_of_mem_iff
  intro x
  rw [KeyMap.mem_keys_iff, KeyMap.mem_keys_iff]
  rcases h x with heq | ⟨_, hd, he⟩
  · rw [heq]
  · rw [hd, he]
    exact Iff.rfl

/-! ## Alike outputs -/

/-- Two outputs that are the same, unless a loop was to run over the value under `k`. -/
inductive Alike (k : String) : Except RenderError String → Except RenderError String → Prop
  | same (r : Except RenderError String) : Alike k r r
  | looped : Alike k (.error (.notIterable k "template")) (.error (.notIterable k "safe string"))

/-- What is alike is alike in a row. -/
theorem Alike.followedBy {r r' o o' : Except RenderError String} (hr : Alike k r r')
    (ho : Alike k o o') : Alike k (followedBy r o) (followedBy r' o') := by
  cases hr with
  | same =>
    cases r with
    | error err => exact .same _
    | ok text =>
      cases ho with
      | same => exact .same _
      | looped => exact .looped
  | looped => exact .looped

/-- What is alike for each element is alike for all of them. -/
theorem Alike.concatMapText {f f' : Value → Except RenderError String}
    (hf : ∀ v, Alike k (f v) (f' v)) (vs : List Value) :
    Alike k (concatMapText f vs) (concatMapText f' vs) := by
  induction vs with
  | nil => exact .same _
  | cons v vs ih => exact (hf v).followedBy ih

/-- The check of a block comes out the same on both data, so its nodes decide. -/
theorem Alike.guarded {d e : Data} {r r' : Except RenderError String} (h : Embeds k s t d e)
    (hr : Alike k r r') (accepted : KeySet) :
    Alike k (guarded accepted d r) (guarded accepted e r') := by
  unfold Copying.guarded
  rw [h.keys_eq]
  cases accepted.check e.keys with
  | error err => exact .same _
  | ok _ => exact hr

/-! ## Alike walks -/

/-- A condition on the key holds either way. -/
theorem Embeds.holds_eq {d e : Data} (h : Embeds k s t d e) (key : String) :
    holds d key = holds e key := by
  rcases h key with heq | ⟨_, hd, he⟩
  · exact holds_congr heq
  · unfold holds
    rw [hd, he]
    rfl

/-- A placeholder puts out the text that the template does. -/
theorem Embeds.place_eq {d e : Data} (h : Embeds k s t d e) (hneeds : t.requiresData = false)
    (htext : t.renderEmpty = .ok s) (escape : String → String) (key : String)
    (default : Option String) : place escape d key default = place escape e key default := by
  rcases h key with heq | ⟨_, hd, he⟩
  · exact place_congr heq default
  · have hrender : t.render ∅ = .ok s := by
      rw [← renderEmpty_eq_render]
      exact htext
    unfold place
    rw [hd, he]
    show emit escape key (.template t) = emit escape key (.safe s)
    rw [emit, emit, hneeds, hrender]
    rfl

/-- A loop has the same elements on both data, or it names what it found under the key. -/
theorem Embeds.collection {d e : Data} (h : Embeds k s t d e) (key : String)
    {f f' : Value → Except RenderError String} (hf : ∀ v, Alike k (f v) (f' v)) :
    Alike k ((Scope.root d).collection key >>= Stencil.concatMapText f)
      ((Scope.root e).collection key >>= Stencil.concatMapText f') := by
  rcases h key with heq | ⟨rfl, hd, he⟩
  · rw [collection_congr heq]
    cases (Scope.root e).collection key with
    | error err => exact .same _
    | ok vs => exact Alike.concatMapText hf vs
  · unfold Scope.collection Scope.lookup
    rw [hd, he]
    exact .looped

/-- **Walks over a template and over its text.** They put out the same, unless a loop runs into the
value, and then they differ in the name of what the loop found. -/
theorem walkAll_alike (hneeds : t.requiresData = false) (htext : t.renderEmpty = .ok s)
    (mode : KeyValidation) (escape : String → String) (nodes : List Node) (base accepted : KeySet)
    {d e : Data} (h : Embeds k s t d e) :
    Alike k (walkAll mode escape base accepted d nodes)
      (walkAll mode escape base accepted e nodes) := by
  -- a loop binds its name in both data, which stay alike by that even if it is the key
  induction nodes using Node.listInduction generalizing base accepted d e with
  | nil => exact .same _
  | literal text ns ih => exact (Alike.same _).followedBy (ih _ _ h)
  | placeholder key default ns ih =>
    rw [walkAll_cons, walkAll_cons, walk, walk, h.place_eq hneeds htext]
    exact (Alike.same _).followedBy (ih _ _ h)
  | conditional key whenTrue ns iht ih =>
    rw [walkAll_cons, walkAll_cons, walk_conditional, walk_conditional, h.holds_eq]
    refine Alike.followedBy ?_ (ih _ _ h)
    split
    · exact (iht _ _ h).guarded h _
    · exact .same _
  | alternative key whenTrue whenFalse ns iht ihf ih =>
    rw [walkAll_cons, walkAll_cons, walk_alternative, walk_alternative, h.holds_eq]
    refine Alike.followedBy ?_ (ih _ _ h)
    split
    · exact (iht _ _ h).guarded h _
    · exact (ihf _ _ h).guarded h _
  | iteration name collection body ns ihb ih =>
    rw [walkAll_cons, walkAll_cons, walk_iteration, walk_iteration]
    refine Alike.followedBy ?_ (ih _ _ h)
    apply h.collection
    intro v
    have hbound := h.insert name v
    exact (ihb _ _ hbound).guarded hbound _

end Embedded

end Copying

/-! ## The main statement -/

/-- **A template as a value behaves like its own output.** A tree within the ceiling is compiled, and
rendered with data that hold a template under some key, one that asks for no data and puts out `s`
by itself; and again with `s` as safe text under that key. Both renderings succeed with the same
output, or both fail with the same error, or both fail as a loop was to run over that value, and
name it a template and a safe text. The template puts out `s` by the escaper that it carries, which
need not be that of the rendering. -/
theorem run_template_alike_run_safe (maxDepth : Nat) (mode : KeyValidation) (inherited : KeySet)
    (nodes : List Node) (hdepth : Node.listDepth nodes ≤ maxDepth) (t : Template)
    (hneeds : t.requiresData = false) (s : String) (htext : t.renderEmpty = .ok s) :
    t.block.run t.escaper.escape ∅ = .ok s ∧
      ∃ b, Block.compile maxDepth mode inherited nodes = .ok b ∧
        ∀ (escape : String → String) (data : Data) (k : String),
          (∃ out, b.run escape (data.insert k (.template t)) = .ok out ∧
            b.run escape (data.insert k (.safe s)) = .ok out) ∨
          (∃ e, b.run escape (data.insert k (.template t)) = .error e ∧
            b.run escape (data.insert k (.safe s)) = .error e) ∨
          b.run escape (data.insert k (.template t)) = .error (.notIterable k "template") ∧
            b.run escape (data.insert k (.safe s)) = .error (.notIterable k "safe string") := by
  constructor
  · have hrender := renderEmpty_eq_render t
    rw [htext] at hrender
    exact hrender.symm
  · refine ⟨_, Block.compile_eq_ok hdepth mode inherited, ?_⟩
    intro escape data k
    rw [Copying.run_ofNodes_eq_block, Copying.run_ofNodes_eq_block]
    have hembeds : Copying.Embeds k s t (data.insert k (.template t)) (data.insert k (.safe s)) :=
      Copying.embeds_insert data
    have halike := (Copying.walkAll_alike hneeds htext mode escape nodes inherited
      (inherited ∪ Node.listKeys nodes) hembeds).guarded hembeds (inherited ∪ Node.listKeys nodes)
    change Copying.Alike k (Copying.block mode escape inherited _ nodes)
      (Copying.block mode escape inherited _ nodes) at halike
    generalize Copying.block mode escape inherited (data.insert k (.template t)) nodes = r at halike
    generalize Copying.block mode escape inherited (data.insert k (.safe s)) nodes = r' at halike
    cases halike with
    | same =>
      cases r with
      | ok out => exact Or.inl ⟨out, rfl, rfl⟩
      | error e => exact Or.inr (Or.inl ⟨e, rfl, rfl⟩)
    | looped => exact Or.inr (Or.inr ⟨rfl, rfl⟩)

/-- A note that is escaped for HTML. -/
def note : Template where
  handle := 0
  block := Block.ofNodes .inherited ∅ ∅ [.literal "<b>", .placeholder "x" (some "&")]
  requiresData := false
  keys := Node.listKeys [.placeholder "x" (some "&")]
  source := "<b>@\x7bx=&\x7d"
  escaper := EscapePolicy.html.escaper 0

/-- A tree that puts out the value of a key for each of some elements, and may loop over it. -/
def noteNodes : List Node :=
  [.conditional "k" [.iteration "x" "xs" [.placeholder "k" none]] none,
    .conditional "loop" [.iteration "k" "k" []] none]

/-- The note is escaped by its own escaper where the rendering does not escape at all, and a loop
over the note runs into a template. -/
theorem run_template_alike_run_safe_note :
    Node.listDepth noteNodes ≤ 2 ∧ note.requiresData = false ∧
      note.renderEmpty = .ok "<b>&amp;" ∧
      ∃ b, Block.compile 2 .inherited ∅ noteNodes = .ok b ∧
        b.run id ((KeyMap.ofList [("loop", .bool false), ("xs", .array [.null, .null])]).insert
          "k" (.template note)) = .ok "<b>&amp;<b>&amp;" ∧
        b.run id ((KeyMap.ofList [("loop", .bool true), ("xs", .array [])]).insert
          "k" (.template note)) = .error (.notIterable "k" "template") := by
  have hdepth : Node.listDepth noteNodes ≤ 2 := by decide
  have htext : note.renderEmpty = .ok "<b>&amp;" := rfl
  refine ⟨hdepth, rfl, htext, ?_⟩
  obtain ⟨_, b, hb, hrun⟩ :=
    run_template_alike_run_safe 2 .inherited ∅ noteNodes hdepth note rfl _ htext
  obtain rfl := Except.ok.inj ((Block.compile_eq_ok hdepth .inherited ∅).symm.trans hb)
  refine ⟨_, hb, ?_, ?_⟩
  · rcases hrun id (KeyMap.ofList [("loop", .bool false), ("xs", .array [.null, .null])]) "k" with
      ⟨out, hout, hsafe⟩ | ⟨e, _, hsafe⟩ | ⟨_, hsafe⟩
    · cases hsafe
      exact hout
    · cases hsafe
    · cases hsafe
  · rcases hrun id (KeyMap.ofList [("loop", .bool true), ("xs", .array [])]) "k" with
      ⟨out, _, hsafe⟩ | ⟨e, hout, hsafe⟩ | ⟨hout, _⟩
    · cases hsafe
    · -- the error would be the same for the note and for its text
      cases hsafe
      injection hout with herror
      injection herror with _ hfound
      exact absurd hfound (by decide)
    · exact hout

end Stencil
