import Stencil.Config

/-!
# Programs and templates

A node tree is compiled into a block: the keys that its data may hold, and the steps that put out
its text. Every branch and every loop body is a block of its own, whose accepted keys are settled
when the tree is compiled. A template is a compiled source with what is known about it. It can be
rendered without data at once: no key has a value then, so a placeholder puts out its default, a
condition fails, and a loop has nothing to repeat over. Main statement: a tree within the ceiling is
compiled (`Block.compile_eq_ok`).
-/

namespace Stencil

mutual

/-- A step of a block. -/
inductive Step where
  /-- Puts out a text. -/
  | text (text : String)
  /-- Puts out the value of a key, or a default. -/
  | place (key : String) (default : Option String)
  /-- Runs one of two blocks, the second of which may be missing. -/
  | choose (key : String) (whenTrue : Block) (whenFalse : Option Block)
  /-- Runs a block for each element of a collection. -/
  | each (name collection : String) (body : Block)

/-- The keys that the data of a block may hold, and its steps. -/
inductive Block where
  | mk (accepted : KeySet) (steps : List Step)

end

namespace Step

section Induction

variable {P : List Step → Prop} (nil : P [])
  (text : ∀ text ss, P ss → P (.text text :: ss))
  (place : ∀ key default ss, P ss → P (.place key default :: ss))
  (choose : ∀ key accepted whenTrue ss, P whenTrue → P ss →
    P (.choose key (.mk accepted whenTrue) none :: ss))
  (alternative : ∀ key accepted whenTrue accepted' whenFalse ss, P whenTrue → P whenFalse → P ss →
    P (.choose key (.mk accepted whenTrue) (some (.mk accepted' whenFalse)) :: ss))
  (each : ∀ name collection accepted body ss, P body → P ss →
    P (.each name collection (.mk accepted body) :: ss))

include nil text place choose alternative each

/-- Induction over a list of steps and the steps of its blocks. -/
@[elab_as_elim]
theorem listInduction : ∀ steps, P steps
  | [] => nil
  | .text t :: ss => text t ss (listInduction ss)
  | .place key default :: ss => place key default ss (listInduction ss)
  | .choose key (.mk accepted whenTrue) none :: ss =>
    choose key accepted whenTrue ss (listInduction whenTrue) (listInduction ss)
  | .choose key (.mk accepted whenTrue) (some (.mk accepted' whenFalse)) :: ss =>
    alternative key accepted whenTrue accepted' whenFalse ss (listInduction whenTrue)
      (listInduction whenFalse) (listInduction ss)
  | .each name collection (.mk accepted body) :: ss =>
    each name collection accepted body ss (listInduction body) (listInduction ss)

end Induction

end Step

namespace Block

/-- The keys that the data of a block may hold. -/
def accepted : Block → KeySet
  | .mk accepted _ => accepted

/-- The steps of a block. -/
def steps : Block → List Step
  | .mk _ steps => steps

/-- The keys that a block with some nodes accepts: those that the nodes read, and besides them what
the enclosing block accepts or, if blocks are isolated, what is exempt. -/
def acceptedKeys (mode : KeyValidation) (enclosing exempt : KeySet) (nodes : List Node) : KeySet :=
  let base := match mode with
    | .inherited => enclosing
    | .isolated => exempt
  base ∪ Node.listKeys nodes

mutual

/-- The step of a node in a block that accepts `accepted` and exempts `exempt`. The key of a
condition is exempt in its branches, and the names of a loop are in its body. -/
def compileNode (mode : KeyValidation) (accepted exempt : KeySet) : Node → Step
  | .literal text => .text text
  | .placeholder key default => .place key default
  | .conditional key whenTrue none =>
    let exempt := exempt.insert key
    .choose key
      (.mk (acceptedKeys mode accepted exempt whenTrue)
        (compileNodes mode (acceptedKeys mode accepted exempt whenTrue) exempt whenTrue))
      none
  | .conditional key whenTrue (some whenFalse) =>
    let exempt := exempt.insert key
    .choose key
      (.mk (acceptedKeys mode accepted exempt whenTrue)
        (compileNodes mode (acceptedKeys mode accepted exempt whenTrue) exempt whenTrue))
      (some (.mk (acceptedKeys mode accepted exempt whenFalse)
        (compileNodes mode (acceptedKeys mode accepted exempt whenFalse) exempt whenFalse)))
  | .iteration name collection body =>
    let accepted := accepted.insert name
    let exempt := (exempt.insert collection).insert name
    .each name collection
      (.mk (acceptedKeys mode accepted exempt body)
        (compileNodes mode (acceptedKeys mode accepted exempt body) exempt body))

/-- The steps of a list of nodes. -/
def compileNodes (mode : KeyValidation) (accepted exempt : KeySet) : List Node → List Step
  | [] => []
  | n :: ns => compileNode mode accepted exempt n :: compileNodes mode accepted exempt ns

end

/-- The block of a list of nodes. -/
def ofNodes (mode : KeyValidation) (enclosing exempt : KeySet) (nodes : List Node) : Block :=
  let accepted := acceptedKeys mode enclosing exempt nodes
  .mk accepted (compileNodes mode accepted exempt nodes)

/-- The block of a template whose data may also hold `inherited` keys. A tree with more than
`maxDepth` blocks inside one another is refused. -/
def compile (maxDepth : Nat) (mode : KeyValidation) (inherited : KeySet) (nodes : List Node) :
    Except CompileError Block :=
  let depth := Node.listDepth nodes
  if maxDepth < depth then .error (.nestingTooDeep depth maxDepth)
  else .ok (ofNodes mode inherited inherited nodes)

/-- A tree within the ceiling is compiled. -/
theorem compile_eq_ok {maxDepth : Nat} {nodes : List Node} (h : Node.listDepth nodes ≤ maxDepth)
    (mode : KeyValidation) (inherited : KeySet) :
    compile maxDepth mode inherited nodes = .ok (ofNodes mode inherited inherited nodes) := by
  rw [compile, if_neg (Nat.not_lt.2 h)]

end Block

/-! ## Templates -/

/-- A compiled template. -/
structure Template where
  /-- The identity of the compilation, shared by its copies alone. -/
  handle : Nat
  block : Block
  /-- Whether the template asks for data. -/
  requiresData : Bool
  /-- The keys that the template reads. -/
  keys : KeySet
  source : String
  escaper : Escaper

/-- The name of what a key without a value is found to be. -/
def undefinedName : String := "undefined"

/-! ## Rendering without data -/

mutual

/-- What a step puts out where no key has a value. -/
def Step.renderEmpty (escape : String → String) : Step → Except RenderError String
  | .text text => .ok text
  | .place _ (some default) => .ok (escape default)
  | .place key none => .error (.missingKey key)
  | .choose _ _ none => .ok ""
  | .choose _ _ (some whenFalse) => whenFalse.renderEmpty escape
  | .each _ collection _ => .error (.notIterable collection undefinedName)

/-- What a block puts out where no key has a value. -/
def Block.renderEmpty (escape : String → String) : Block → Except RenderError String
  | .mk _ steps => Step.renderAllEmpty escape steps

/-- What some steps put out, one after the other, where no key has a value. -/
def Step.renderAllEmpty (escape : String → String) : List Step → Except RenderError String
  | [] => .ok ""
  | s :: ss => do
    let first ← s.renderEmpty escape
    let others ← Step.renderAllEmpty escape ss
    return first ++ others

end

/-- The text of a template without data. -/
def Template.renderEmpty (t : Template) : Except RenderError String :=
  t.block.renderEmpty t.escaper.escape

end Stencil
