import Stencil.Component.Basic
import Mathlib.Data.List.Induction

/-!
# Histories of components

A component is used by calls, one after the other. A turn is a call together with the component that
it found, and the history of a run is the list of its turns. Main statements: a component has a
template exactly while it is mounted (`installed_run`), and what a turn can do to such a component
(`Turn.effect`): it leaves what is shown alone, or it renders once, or it takes the component down.
-/

namespace Stencil

namespace Component

/-! ## Calls -/

/-- A call of a component. A mount comes with the session that it finds, since others may have used
the caches in between. -/
inductive Call where
  | watch (key observer : String)
  | mount (engine : Engine) (source : String) (session : Session)
  | setState (patch : Data)
  | unmount

/-- Whether a call shows something new if all goes well: a mount or a patch. -/
def Call.isUpdate : Call → Bool
  | .mount .. | .setState _ => true
  | .watch .. | .unmount => false

/-- The observer of a key that a call brings. -/
def Call.observer? (key : String) : Call → Option String
  | .watch k observer => if key = k then some observer else none
  | _ => none

/-- What a call gives. -/
def perform (c : Component) : Call → Outcome Unit
  | .watch key observer => ⟨.ok (), [], c.watch key observer⟩
  | .mount engine source session => (c.mount engine source session).1
  | .setState patch =>
    let done := c.setState patch
    ⟨done.result.map fun _ => (), done.events, done.component⟩
  | .unmount => c.unmount

/-- The component after some calls. -/
def run (c : Component) (calls : List Call) : Component :=
  calls.foldl (fun c call => (c.perform call).component) c

theorem run_append (c : Component) (calls more : List Call) :
    c.run (calls ++ more) = (c.run calls).run more :=
  List.foldl_append

/-- The component after one more call. -/
theorem run_concat (c : Component) (calls : List Call) (call : Call) :
    c.run (calls ++ [call]) = ((c.run calls).perform call).component := by
  rw [run_append]
  rfl

/-! ## Turns -/

/-- A call, and the component that it found. -/
structure Turn where
  before : Component
  call : Call

namespace Turn

/-- What the call gave. -/
def outcome (t : Turn) : Outcome Unit :=
  t.before.perform t.call

/-- The component after the call. -/
def after (t : Turn) : Component :=
  t.outcome.component

/-- The template that a mount has compiled. -/
def compiled (t : Turn) : Option Template :=
  match t.call with
  | .mount engine source session => (engine.createTemplate source session).1.toOption
  | _ => none

/-- The changes that a patch makes. -/
def changes (t : Turn) : List Change :=
  match t.call with
  | .setState patch => Store.diff t.before.store.state patch
  | _ => []

/-- What the rendering of a turn gave, if there was one: of the template that a mount has compiled,
or of the installed template if a patch changes a field while the component is mounted. -/
def rendering (t : Turn) : Option (Except RenderError String) :=
  match t.call with
  | .mount .. => t.compiled.map (·.render t.before.store.state)
  | .setState patch =>
    if t.before.mounted && !t.changes.isEmpty then
      t.before.template.map (·.render (t.before.store.overlay patch).2.state)
    else none
  | _ => none

/-- The output of a rendering that succeeded. -/
def shown (t : Turn) : Option String :=
  t.rendering.bind Except.toOption

/-- Whether the turn takes down a component that is mounted. -/
def takesDown (t : Turn) : Bool :=
  match t.call with
  | .unmount => t.before.mounted
  | _ => false

end Turn

/-! ## Histories -/

/-- The turns of some calls. -/
def history (c : Component) : List Call → List Turn
  | [] => []
  | call :: calls => ⟨c, call⟩ :: history (c.perform call).component calls

/-- One more call is one more turn. -/
theorem history_concat (c : Component) (calls : List Call) (call : Call) :
    c.history (calls ++ [call]) = c.history calls ++ [⟨c.run calls, call⟩] := by
  induction calls generalizing c with
  | nil => rfl
  | cons first calls ih =>
    rw [List.cons_append, history, ih]
    rfl

/-- What happened in some turns, in order. -/
def trace (turns : List Turn) : List Event :=
  turns.flatMap fun t => t.outcome.events

theorem trace_concat (turns : List Turn) (t : Turn) :
    trace (turns ++ [t]) = trace turns ++ t.outcome.events := by
  simp [trace]

/-- The observers of a key that some calls bring, in the order in which they come. -/
def observersIn (key : String) (calls : List Call) : List String :=
  calls.filterMap (Call.observer? key)

/-- What the latest rendering gave. -/
def lastRendering (turns : List Turn) : Option (Except RenderError String) :=
  turns.reverse.findSome? Turn.rendering

theorem lastRendering_concat (turns : List Turn) (t : Turn) :
    lastRendering (turns ++ [t]) = t.rendering.or (lastRendering turns) := by
  rw [lastRendering, List.reverse_concat, List.findSome?_cons]
  cases t.rendering <;> rfl

/-- The output of the latest rendering that succeeded since the component was last taken down. -/
def lastShown (turns : List Turn) : Option String :=
  (turns.reverse.takeWhile fun t => !t.takesDown).findSome? Turn.shown

theorem lastShown_concat (turns : List Turn) (t : Turn) :
    lastShown (turns ++ [t]) =
      if t.takesDown = true then none else t.shown.or (lastShown turns) := by
  rw [lastShown, List.reverse_concat]
  split
  · next hdown => rw [List.takeWhile_cons_of_neg (by simp [hdown])]; rfl
  · next hup =>
    rw [List.takeWhile_cons_of_pos (by simpa using hup), List.findSome?_cons]
    cases t.shown <;> rfl

/-- A turn of a run is one of its calls, made after those before it. -/
theorem exists_of_mem_history {c : Component} {calls : List Call} {t : Turn}
    (h : t ∈ c.history calls) :
    ∃ earlier later, calls = earlier ++ t.call :: later ∧ t.before = c.run earlier := by
  induction calls generalizing c with
  | nil => cases h
  | cons first calls ih =>
    rcases List.mem_cons.1 h with rfl | h
    · exact ⟨[], calls, rfl, rfl⟩
    · obtain ⟨earlier, later, rfl, hbefore⟩ := ih h
      exact ⟨first :: earlier, later, rfl, hbefore⟩

/-! ## What a turn can do -/

/-- What a turn does to the component that it finds. -/
inductive Turn.Effect (t : Turn) : Prop where
  /-- Nothing is rendered or taken down, and the state stays if it is shown. -/
  | rests (store : Store) (state : t.before.mounted = true → store.state = t.before.store.state)
      (after : t.after = { t.before with store }) (rendering : t.rendering = none)
      (takesDown : t.takesDown = false)
  /-- A template is rendered with a state and its output is shown. -/
  | shows (store : Store) (template : Template) (text : String)
      (output : template.render store.state = .ok text)
      (after : t.after = ⟨store, some template, true, text, t.before.renders + 1⟩)
      (rendering : t.rendering = some (.ok text)) (takesDown : t.takesDown = false)
  /-- A rendering fails, so that the content stays. -/
  | fails (store : Store) (template : Template) (e : RenderError)
      (output : template.render store.state = .error e)
      (result : t.outcome.result = .error (.render e))
      (after : t.after = ⟨store, some template, true, t.before.content, t.before.renders⟩)
      (rendering : t.rendering = some (.error e)) (takesDown : t.takesDown = false)
  /-- The component is taken down. -/
  | ends (after : t.after = { t.before with template := none, mounted := false, content := "" })
      (rendering : t.rendering = none) (takesDown : t.takesDown = true)

/-- A turn that ends with a rendering shows its output, or leaves the content if it fails. -/
theorem Turn.effect_of_render {t : Turn} (store : Store) (template : Template)
    (hafter : t.after =
      { t.before with store, template := some template, mounted := true }.render.component)
    (hresult : t.outcome.result =
      { t.before with store, template := some template, mounted := true }.render.result)
    (hrendering : t.rendering = some (template.render store.state)) (hdown : t.takesDown = false) :
    t.Effect := by
  cases houtput : template.render store.state with
  | ok text =>
    refine .shows store template text houtput ?_ (houtput ▸ hrendering) hdown
    rw [hafter, render_of_ok rfl houtput]
  | error e =>
    refine .fails store template e houtput ?_ ?_ (houtput ▸ hrendering) hdown
    · rw [hresult, render_of_error rfl houtput]
    · rw [hafter, render_of_error rfl houtput]

/-- A mount renders what it has compiled. -/
theorem effect_mount (c : Component) (engine : Engine) (source : String) (session : Session) :
    Turn.Effect ⟨c, .mount engine source session⟩ := by
  rcases hcreate : engine.createTemplate source session with ⟨_ | template, after⟩
  · refine .rests c.store (fun _ => rfl) ?_ ?_ rfl
    · simp [Turn.after, Turn.outcome, perform, mount, hcreate]
    · simp [Turn.rendering, Turn.compiled, hcreate, Except.toOption]
  · refine Turn.effect_of_render c.store template ?_ ?_ ?_ rfl
    · simp [Turn.after, Turn.outcome, perform, mount, hcreate]
    · simp [Turn.outcome, perform, mount, hcreate]
    · simp [Turn.rendering, Turn.compiled, hcreate, Except.toOption]

/-- Leaving out an answer after giving it changes nothing. -/
theorem forget_map {α : Type} (r : Except Error Unit) (answer : α) :
    (r.map fun _ => answer).map (fun _ => ()) = r := by
  cases r <;> rfl

/-- A patch renders the installed template again if it changes what is shown. -/
theorem effect_setState (c : Component) (h : c.mounted = c.template.isSome) (patch : Data) :
    Turn.Effect ⟨c, .setState patch⟩ := by
  cases hshown : c.mounted && !(Store.diff c.store.state patch).isEmpty with
  | true =>
    obtain ⟨hmounted, -⟩ := Bool.and_eq_true_iff.1 hshown
    obtain ⟨template, htemplate⟩ := Option.isSome_iff_exists.1 (h ▸ hmounted)
    have hpatched : { c with store := (c.store.overlay patch).2 } =
        { c with store := (c.store.overlay patch).2, template := some template, mounted := true } := by
      rw [← htemplate, ← hmounted]
    refine Turn.effect_of_render (c.store.overlay patch).2 template ?_ ?_ ?_ rfl
    · rw [Turn.after, Turn.outcome, perform, setState_shown hshown]
      simp only [hpatched]
    · rw [Turn.outcome, perform, setState_shown hshown]
      simp only [hpatched, forget_map]
    · simp [Turn.rendering, Turn.changes, hshown, htemplate]
  | false =>
    refine .rests (c.store.overlay patch).2 (fun hmounted => ?_) ?_ ?_ rfl
    · have hnone : Store.diff c.store.state patch = [] := by
        have hmounted : c.mounted = true := hmounted
        simpa [hmounted] using hshown
      rw [Store.overlay_of_diff_eq_nil hnone]
    · rw [Turn.after, Turn.outcome, perform, setState_hidden hshown]
    · simp only [Turn.rendering, Turn.changes, hshown]
      rfl

/-- What a turn can do to a component that has a template while it is mounted, and to no other. -/
theorem Turn.effect (t : Turn) (h : t.before.mounted = t.before.template.isSome) : t.Effect := by
  obtain ⟨c, call⟩ := t
  cases call with
  | watch key observer => exact .rests (c.store.observe key observer) (fun _ => rfl) rfl rfl rfl
  | mount engine source session => exact effect_mount c engine source session
  | setState patch => exact effect_setState c h patch
  | unmount =>
    cases hmounted : c.mounted with
    | true =>
      refine .ends ?_ rfl hmounted
      simp [Turn.after, Turn.outcome, perform, Component.unmount, hmounted]
    | false =>
      refine .rests c.store (fun _ => rfl) ?_ rfl hmounted
      rw [Turn.after, Turn.outcome, perform, unmount_of_not_mounted c hmounted]

/-- A turn keeps a template installed while the component is mounted, and only then. -/
theorem Turn.Effect.installed {t : Turn} (h : t.Effect)
    (ht : t.before.mounted = t.before.template.isSome) :
    t.after.mounted = t.after.template.isSome := by
  cases h with
  | rests _ _ hafter => rw [hafter]; exact ht
  | shows _ _ _ _ hafter => rw [hafter]; rfl
  | fails _ _ _ _ _ hafter => rw [hafter]; rfl
  | ends hafter => rw [hafter]; rfl

/-- A component has a template exactly while it is mounted. -/
theorem installed_run (initial : Data) (calls : List Call) :
    ((new initial).run calls).mounted = ((new initial).run calls).template.isSome := by
  induction calls using List.reverseRecOn with
  | nil => rfl
  | append_singleton calls call ih =>
    rw [run_concat]
    exact (Turn.effect ⟨_, call⟩ ih).installed ih

end Component

end Stencil
