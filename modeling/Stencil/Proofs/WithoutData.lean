import Stencil.Engine

/-!
# Templates that ask for no data

What becomes of a template that asks for no data when it is rendered without any. It holds no
condition, and each placeholder outside of its loops has a default; but a loop asks for data only if
its body does, while its collection is missing without data. Main statements:
`emit_eq_of_compileNodes`, that such a template puts out its fixed text, or fails at its first loop
if it has one, and `Dashes.not_renders`, that a loop does make it fail.
-/

namespace Stencil

namespace Node

/-! ## Fixed text and loops -/

/-- The literal texts and the defaults of some nodes, in order. -/
def fixedText (escape : String → String) : List Node → String
  | [] => ""
  | .literal text :: ns => text ++ fixedText escape ns
  | .placeholder _ (some default) :: ns => escape default ++ fixedText escape ns
  | _ :: ns => fixedText escape ns

/-- The collection of the first loop among some nodes, not counting those inside of blocks. -/
def firstLoop? : List Node → Option String
  | [] => none
  | .iteration _ collection _ :: _ => some collection
  | _ :: ns => firstLoop? ns

/-- There is a first loop exactly if there is a loop. -/
theorem firstLoop?_eq_none_iff (nodes : List Node) :
    firstLoop? nodes = none ↔ ∀ name collection body, .iteration name collection body ∉ nodes := by
  induction nodes with
  | nil => simp [firstLoop?]
  | cons n ns ih =>
    cases n with
    | literal text => simp [firstLoop?, ih]
    | placeholder key default => simp [firstLoop?, ih]
    | conditional key whenTrue whenFalse => simp [firstLoop?, ih]
    | iteration name collection body =>
      constructor
      · intro h
        cases h
      · intro h
        exact absurd List.mem_cons_self (h name collection body)

/-- What some nodes put out without data if they ask for none: their fixed text, unless there is a
loop, whose collection is missing. -/
def withoutData (escape : String → String) (nodes : List Node) : Except RenderError String :=
  match firstLoop? nodes with
  | none => .ok (fixedText escape nodes)
  | some collection => .error (.notIterable collection undefinedName)

section Cons

variable (escape : String → String) (ns : List Node)

/-- A literal text goes before whatever comes of the nodes behind it. -/
theorem withoutData_literal (text : String) :
    withoutData escape (.literal text :: ns) = (withoutData escape ns).map (text ++ ·) := by
  simp only [withoutData, firstLoop?, fixedText]
  cases firstLoop? ns <;> rfl

/-- A default goes before whatever comes of the nodes behind it. -/
theorem withoutData_placeholder (key default : String) :
    withoutData escape (.placeholder key (some default) :: ns) =
      (withoutData escape ns).map (escape default ++ ·) := by
  simp only [withoutData, firstLoop?, fixedText]
  cases firstLoop? ns <;> rfl

end Cons

end Node

/-! ## Steps -/

/-- A step that puts out a text goes before the others. -/
theorem renderAllEmpty_cons_of_ok {escape : String → String} {step : Step} {text : String}
    (h : step.renderEmpty escape = .ok text) (steps : List Step) :
    Step.renderAllEmpty escape (step :: steps) =
      (Step.renderAllEmpty escape steps).map (text ++ ·) := by
  rw [Step.renderAllEmpty, h]
  cases Step.renderAllEmpty escape steps <;> rfl

/-- The steps of nodes that ask for no data, rendered without data. -/
theorem renderAllEmpty_compileNodes (mode : KeyValidation) (escape : String → String)
    (accepted exempt : KeySet) {nodes : List Node} (h : Node.listRequiresData nodes = false) :
    Step.renderAllEmpty escape (Block.compileNodes mode accepted exempt nodes) =
      Node.withoutData escape nodes := by
  induction nodes with
  | nil => rfl
  | cons n ns ih =>
    obtain ⟨hn, hns⟩ := Bool.or_eq_false_iff.1 h
    rw [Block.compileNodes]
    cases n with
    | literal text =>
      rw [Block.compileNode, renderAllEmpty_cons_of_ok rfl, ih hns, Node.withoutData_literal]
    | placeholder key default =>
      cases default with
      | none => cases hn
      | some default =>
        rw [Block.compileNode, renderAllEmpty_cons_of_ok rfl, ih hns, Node.withoutData_placeholder]
    | conditional key whenTrue whenFalse => cases hn
    | iteration name collection body => rfl

/-! ## Templates -/

section Compiled

variable (engine : Engine) {nodes : List Node}

/-- An engine makes a template of any tree within its ceiling, with its own escaper. -/
theorem exists_compileNodes_eq_ok (hdepth : Node.listDepth nodes ≤ engine.config.maxDepth)
    (source : String) (s : Session) :
    ∃ t s', engine.compileNodes nodes source s = (.ok t, s') ∧
      t.block = Block.ofNodes engine.config.keyValidation ∅ ∅ nodes ∧
      t.requiresData = Node.listRequiresData nodes ∧ t.escaper = engine.escaper := by
  unfold Engine.compileNodes Engine.compile
  rw [Block.compile_eq_ok hdepth]
  exact ⟨_, _, rfl, rfl, rfl, rfl⟩

/-- **Templates as values without data.** A tree within the ceiling becomes a template. As the value
of a placeholder it is refused under the placeholder's key if it asks for data. Otherwise it puts
out its fixed text if it holds no loop, and if it does, it fails for want of the collection of the
first one. -/
theorem emit_eq_of_compileNodes (hdepth : Node.listDepth nodes ≤ engine.config.maxDepth)
    (source : String) (s : Session) :
    ∃ t s', engine.compileNodes nodes source s = (.ok t, s') ∧
      t.requiresData = Node.listRequiresData nodes ∧
      (t.requiresData = false → t.renderEmpty = Node.withoutData engine.escaper.escape nodes ∧
        ((∃ text, t.renderEmpty = .ok text) ↔
          ∀ name collection body, .iteration name collection body ∉ nodes)) ∧
      ∀ escape key, (Value.template t).emit escape key =
        if t.requiresData then .error (.nestedTemplateNeedsData key) else t.renderEmpty := by
  obtain ⟨t, s', hcompiled, hblock, hrequires, hescaper⟩ :=
    exists_compileNodes_eq_ok engine hdepth source s
  refine ⟨t, s', hcompiled, hrequires, ?_, fun _ _ => rfl⟩
  intro hneeds
  have hrender : t.renderEmpty = Node.withoutData engine.escaper.escape nodes := by
    rw [Template.renderEmpty, hblock, hescaper, Block.ofNodes, Block.renderEmpty]
    exact renderAllEmpty_compileNodes _ _ _ _ (hrequires.symm.trans hneeds)
  refine ⟨hrender, ?_⟩
  rw [hrender, ← Node.firstLoop?_eq_none_iff, Node.withoutData]
  cases Node.firstLoop? nodes <;> simp

end Compiled

/-- A greeting with a default is put out by itself, escaped by its engine. -/
theorem emit_eq_of_compileNodes_greeting :
    let engine := (Engine.makeDefault {}).1
    let nodes := [.literal "<b>", .placeholder "name" (some "you & me")]
    Node.listDepth nodes ≤ engine.config.maxDepth ∧ Node.listRequiresData nodes = false ∧
      ∃ t s', engine.compileNodes nodes "" {} = (.ok t, s') ∧
        (Value.template t).emit id "greeting" = .ok "<b>you &amp; me" := by
  intro engine nodes
  have hdepth : Node.listDepth nodes ≤ engine.config.maxDepth := by decide
  obtain ⟨t, s', hcompiled, hrequires, hrender, hemit⟩ :=
    emit_eq_of_compileNodes engine hdepth "" {}
  have hneeds : t.requiresData = false := hrequires
  refine ⟨hdepth, rfl, t, s', hcompiled, ?_⟩
  rw [hemit, hneeds, (hrender hneeds).1]
  rfl

/-! ## A loop without data -/

namespace Dashes

/-- A dash for each of some numbers. -/
def source : String := "@for\x7bn in nums\x7d-@endfor"

/-- Its nodes. -/
def nodes : List Node := [.iteration "n" "nums" [.literal "-"]]

/-- The default engine. -/
def engine : Engine := (Engine.makeDefault {}).1

/-- The source has these nodes. -/
theorem parse_source : engine.parse source = .ok nodes := by
  have hscan : Node.scan source.toList =
      [.directive (.openFor "n in nums".toList), .text ['-'], .directive (.close .iteration)] := by
    decide +kernel
  unfold Engine.parse Node.parse Node.parseChars
  rw [hscan]
  rfl

/-- The template asks for no data, but it fails without any, and so does any placeholder whose value
it is, not under the placeholder's key but under that of its own loop. -/
theorem not_renders :
    ∃ t s', engine.createTemplate source {} = (.ok t, s') ∧ t.requiresData = false ∧
      ¬(∃ text, t.renderEmpty = .ok text) ∧
      ∀ escape key, (Value.template t).emit escape key =
        .error (.notIterable "nums" undefinedName) := by
  have hcreate : engine.createTemplate source {} = engine.compileNodes nodes source {} := by
    show engine.build source {} = _
    rw [Engine.build, parse_source]
  refine ⟨_, _, hcreate, rfl, ?_, fun _ _ => rfl⟩
  rintro ⟨text, htext⟩
  cases htext

end Dashes

end Stencil
