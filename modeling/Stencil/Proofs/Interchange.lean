import Stencil.Proofs.Dependence
import Stencil.Proofs.Transparency

/-!
# Templates that take each other's place

A rendering looks at a template among the data in no way but this: it asks whether the template
needs data and renders it without any. So templates that agree may take each other's place there.
Main statement: agreeing templates give the same text on data that differ in nothing but which of
some agreeing templates they hold (`Template.Agrees.render_eq`).
-/

namespace Stencil

/-! ## Values -/

/-- The values are the same, or templates that agree. -/
inductive Value.Alike : Value → Value → Prop where
  | same (v : Value) : Alike v v
  | template {t u : Template} (h : t.Agrees u) : Alike (.template t) (.template u)

namespace Value.Alike

variable {v w : Value}

/-- Agreeing templates are put out alike. -/
theorem emit (h : v.Alike w) (escape : String → String) (key : String) :
    v.emit escape key = w.emit escape key := by
  cases h with
  | same => rfl
  | template h =>
    rw [Value.emit, Value.emit, h.requiresData, renderEmpty_eq_render, renderEmpty_eq_render,
      h.render]

/-- Every template is truthy. -/
theorem isTruthy (h : v.Alike w) : v.isTruthy = w.isTruthy := by
  cases h with
  | same => rfl
  | template => rfl

end Value.Alike

/-! ## Scopes -/

/-- The data hold values that are alike under the same keys. -/
def Data.Alike (d e : Data) : Prop :=
  ∀ k, Option.Rel Value.Alike (d.get? k) (e.get? k)

/-- Data that are alike have the same keys. -/
theorem Data.Alike.keys_eq {d e : Data} (h : Data.Alike d e) : d.keys = e.keys := by
  refine keys_eq_of_mem_iff fun k => ?_
  rw [KeyMap.mem_keys_iff, KeyMap.mem_keys_iff]
  have hrel := h k
  generalize d.get? k = v, e.get? k = w at hrel
  cases hrel with
  | none => rfl
  | some => rfl

/-- The scopes bind the same names to the same values, around data that are alike. -/
inductive Scope.Alike : Scope → Scope → Prop where
  | root {d e : Data} (h : Data.Alike d e) : Alike (.root d) (.root e)
  | bound (name : String) (v : Value) {s t : Scope} (h : Alike s t) :
    Alike (.bound name v s) (.bound name v t)

namespace Scope.Alike

variable {s t : Scope}

/-- A key has values that are alike. -/
theorem lookup (h : s.Alike t) (key : String) :
    Option.Rel Value.Alike (s.lookup key) (t.lookup key) := by
  induction h with
  | root h => exact h key
  | bound name v _ ih =>
    rw [lookup_bound, lookup_bound]
    by_cases hname : name = key
    · rw [if_pos hname, if_pos hname]
      exact .some (.same v)
    · rw [if_neg hname, if_neg hname]
      exact ih

/-- The same keys are refused. -/
theorem validate (h : s.Alike t) (accepted : KeySet) :
    s.validate accepted = t.validate accepted := by
  induction h with
  | root h => rw [Scope.validate, Scope.validate, h.keys_eq]
  | bound name v _ ih => rw [Scope.validate, Scope.validate, ih]

/-- A placeholder puts out the same. -/
theorem place (h : s.Alike t) (escape : String → String) (key : String) (default : Option String) :
    s.place escape key default = t.place escape key default := by
  unfold Scope.place lookupPresent
  have hrel := h.lookup key
  generalize s.lookup key = v, t.lookup key = w at hrel
  cases hrel with
  | none => rfl
  | some hv =>
    cases hv with
    | same => rfl
    | template ht => exact (Value.Alike.template ht).emit escape key

/-- A condition comes out the same. -/
theorem holds (h : s.Alike t) (key : String) :
    ((s.lookup key).map Value.isTruthy).getD false =
      ((t.lookup key).map Value.isTruthy).getD false := by
  have hrel := h.lookup key
  generalize s.lookup key = v, t.lookup key = w at hrel
  cases hrel with
  | none => rfl
  | some hv =>
    rw [Option.map_some, Option.map_some, hv.isTruthy]

/-- A loop repeats for the same elements, since a template has none. -/
theorem collection (h : s.Alike t) (key : String) : s.collection key = t.collection key := by
  unfold Scope.collection
  have hrel := h.lookup key
  generalize s.lookup key = v, t.lookup key = w at hrel
  cases hrel with
  | none => rfl
  | some hv =>
    cases hv with
    | same => rfl
    | template => rfl

end Scope.Alike

/-! ## Blocks -/

section Blocks

variable {escape : String → String} {s t : Scope}

/-- A block puts out the same if its steps do. -/
theorem Scope.Alike.block (h : s.Alike t) (accepted : KeySet) {steps : List Step}
    (hsteps : Step.renderAll escape s steps = Step.renderAll escape t steps) :
    (Block.mk accepted steps).render escape s = (Block.mk accepted steps).render escape t := by
  rw [Block.render, Block.render, h.validate, hsteps]

/-- **Scopes that are alike give the same text.** -/
theorem renderAll_eq_of_alike (steps : List Step) (h : s.Alike t) :
    Step.renderAll escape s steps = Step.renderAll escape t steps := by
  -- the scopes vary, since a loop binds its name in both
  induction steps using Step.listInduction generalizing s t with
  | nil => rfl
  | text text ss ih => rw [Step.renderAll, Step.renderAll, ih h, Step.render, Step.render]
  | place key default ss ih =>
    rw [Step.renderAll, Step.renderAll, ih h, Step.render, Step.render, h.place]
  | choose key accepted whenTrue ss iht ih =>
    rw [Step.renderAll, Step.renderAll, ih h, Step.render, Step.render, h.holds,
      h.block accepted (iht h)]
  | alternative key accepted whenTrue accepted' whenFalse ss iht ihf ih =>
    rw [Step.renderAll, Step.renderAll, ih h, Step.render, Step.render, h.holds,
      h.block accepted (iht h), h.block accepted' (ihf h)]
  | each name collection accepted body ss ihb ih =>
    have hbody (v : Value) : (Block.mk accepted body).render escape (.bound name v s) =
        (Block.mk accepted body).render escape (.bound name v t) := by
      have hv := h.bound name v
      exact hv.block accepted (ihb hv)
    rw [Step.renderAll, Step.renderAll, ih h, Step.render, Step.render, h.collection]
    simp only [hbody]

/-- A block gives the same text on data that are alike. -/
theorem Data.Alike.run_eq {d e : Data} (h : Data.Alike d e) (b : Block) (escape : String → String) :
    b.run escape d = b.run escape e := by
  cases b with
  | mk accepted steps =>
    have hroot := Scope.Alike.root h
    exact hroot.block accepted (renderAll_eq_of_alike steps hroot)

end Blocks

/-! ## The main statement -/

/-- **Agreeing templates are interchangeable.** They give the same text, or the same error, on data
that differ in nothing but which of some agreeing templates they hold. -/
theorem Template.Agrees.render_eq {t u : Template} (h : t.Agrees u) {d e : Data}
    (hdata : Data.Alike d e) : t.render d = u.render e := by
  rw [h.render, Template.render, Template.render, hdata.run_eq]

end Stencil
