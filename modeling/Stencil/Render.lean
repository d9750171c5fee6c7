import Stencil.Value

/-!
# Rendering

A block sees the data and around them one binding for each loop that it stands in. A binding hides
what has its name further out. A block first refuses keys that it does not accept and then runs its
steps in order. The first error ends the rendering, and no text of it is left. Main statement: a
template that is rendered without data is rendered with empty data (`renderEmpty_eq_render`).
-/

namespace Stencil

/-! ## Scopes -/

/-- What a block sees of the data. -/
inductive Scope where
  /-- The data. -/
  | root (data : Data)
  /-- A name bound to the element of a loop. -/
  | bound (name : String) (value : Value) (outer : Scope)

namespace Scope

/-- The value of a key, the innermost binding first. -/
def lookup (key : String) : Scope → Option Value
  | .root data => data.get? key
  | .bound name value outer => if name = key then some value else outer.lookup key

/-- The innermost binding of a name counts. -/
theorem lookup_bound (key name : String) (value : Value) (outer : Scope) :
    (Scope.bound name value outer).lookup key =
      if name = key then some value else outer.lookup key := rfl

/-- The value of a key, unless it is null. -/
def lookupPresent (key : String) (s : Scope) : Option Value :=
  (s.lookup key).filter fun v => !v.isNull

/-- Refuses the first key in sight that is not accepted: bound names from the inside out, and then
the keys of the data in order. -/
def validate (accepted : KeySet) : Scope → Except RenderError Unit
  | .root data =>
    match data.keys.find? fun k => k ∉ accepted with
    | some key => .error (.unexpectedKey key)
    | none => .ok ()
  | .bound name _ outer =>
    if name ∈ accepted then outer.validate accepted else .error (.unexpectedKey name)

/-- The elements that a loop over a key repeats for. -/
def collection (key : String) (s : Scope) : Except RenderError (List Value) :=
  match s.lookup key with
  | some (.array items) => .ok items
  | some v => .error (.notIterable key v.typeName)
  | none => .error (.notIterable key undefinedName)

end Scope

/-! ## Values -/

/-- What is put out for the value of a key. Safe text is not escaped again, and a template is
rendered without data, by its own escaper. -/
def Value.emit (escape : String → String) (key : String) : Value → Except RenderError String
  | .safe s => .ok s
  | .template t => if t.requiresData then .error (.nestedTemplateNeedsData key) else t.renderEmpty
  | .string s => .ok (escape s)
  | v => .ok (escape v.text)

/-- What is put out for a key: its value, or the default if it has none or null. -/
def Scope.place (escape : String → String) (key : String) (default : Option String) (s : Scope) :
    Except RenderError String :=
  match s.lookupPresent key, default with
  | some v, _ => v.emit escape key
  | none, some default => .ok (escape default)
  | none, none => .error (.missingKey key)

/-! ## Blocks -/

/-- The texts of some elements, one after the other. -/
def concatMapText {α : Type} (f : α → Except RenderError String) :
    List α → Except RenderError String
  | [] => .ok ""
  | x :: xs => do
    let first ← f x
    let others ← concatMapText f xs
    return first ++ others

mutual

/-- What a step puts out. -/
def Step.render (escape : String → String) (scope : Scope) : Step → Except RenderError String
  | .text text => .ok text
  | .place key default => scope.place escape key default
  | .choose key whenTrue none =>
    if ((scope.lookup key).map Value.isTruthy).getD false then whenTrue.render escape scope
    else .ok ""
  | .choose key whenTrue (some whenFalse) =>
    if ((scope.lookup key).map Value.isTruthy).getD false then whenTrue.render escape scope
    else whenFalse.render escape scope
  | .each name collection body => do
    let items ← scope.collection collection
    concatMapText (fun v => body.render escape (.bound name v scope)) items

/-- What a block puts out. -/
def Block.render (escape : String → String) (scope : Scope) : Block → Except RenderError String
  | .mk accepted steps => do
    scope.validate accepted
    Step.renderAll escape scope steps

/-- What some steps put out, one after the other. -/
def Step.renderAll (escape : String → String) (scope : Scope) :
    List Step → Except RenderError String
  | [] => .ok ""
  | s :: ss => do
    let first ← s.render escape scope
    let others ← Step.renderAll escape scope ss
    return first ++ others

end

/-- The text of a block with some data. -/
def Block.run (b : Block) (escape : String → String) (data : Data) : Except RenderError String :=
  b.render escape (.root data)

/-- The text of a template with some data. -/
def Template.render (t : Template) (data : Data) : Except RenderError String :=
  t.block.run t.escaper.escape data

/-! ## Rendering without data -/

/-- A block refuses nothing where there is no data. -/
theorem validate_root_empty (accepted : KeySet) : Scope.validate accepted (.root ∅) = .ok () := rfl

/-- With empty data some steps put out what they put out where no key has a value. -/
theorem renderAll_root_empty (escape : String → String) (steps : List Step) :
    Step.renderAll escape (.root ∅) steps = Step.renderAllEmpty escape steps := by
  induction steps using Step.listInduction with
  | nil => rfl
  | text t ss ih =>
    rw [Step.renderAll, Step.renderAllEmpty, ih]
    rfl
  | place key default ss ih =>
    cases default with
    | none => rfl
    | some default =>
      rw [Step.renderAll, Step.renderAllEmpty, ih]
      rfl
  | choose key accepted whenTrue ss _ ih =>
    rw [Step.renderAll, Step.renderAllEmpty, ih]
    rfl
  | alternative key accepted whenTrue accepted' whenFalse ss _ ihf ih =>
    have hf : Block.render escape (.root ∅) (.mk accepted' whenFalse) =
        Block.renderEmpty escape (.mk accepted' whenFalse) := by
      rw [Block.render, Block.renderEmpty, validate_root_empty, ← ihf]
      rfl
    rw [Step.renderAll, Step.renderAllEmpty, ih, Step.renderEmpty, ← hf]
    rfl
  | each name collection accepted body ss _ _ => rfl

/-- Rendering without data is rendering with empty data, in which no key is refused. -/
theorem renderEmpty_eq_render (t : Template) : t.renderEmpty = t.render ∅ := by
  unfold Template.renderEmpty Template.render Block.run
  cases t.block with
  | mk accepted steps =>
    rw [Block.renderEmpty, Block.render, validate_root_empty, ← renderAll_root_empty]
    rfl

end Stencil
