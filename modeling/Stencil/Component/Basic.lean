import Stencil.Component.Store
import Stencil.Engine

/-!
# Components

A component shows a template with a state of its own. It renders when it is mounted and whenever
its state changes after that, and tells of all it does by events. A rendering that fails leaves
what is shown as it was. Main statements: what a patch does, by the changes that it makes
(`setState_shown`, `setState_hidden`), and a component that is not mounted is not taken down
(`unmount_of_not_mounted`).
-/

namespace Stencil

/-- A component: its state, its template while it is mounted, what it shows, and how often it has
shown something new. -/
structure Component where
  store : Store
  template : Option Template := none
  mounted : Bool := false
  content : String := ""
  renders : Nat := 0

/-- What an operation gives: its result, what happened in order, and the component after it. -/
structure Outcome (α : Type) where
  result : Except Error α
  events : List Event
  component : Component

namespace Component

/-- A component that is not mounted yet. -/
def new (initial : Data) : Component :=
  { store := { state := initial } }

/-- One more observer of a field of the state. -/
def watch (c : Component) (key observer : String) : Component :=
  { c with store := c.store.observe key observer }

/-- Shows the template with the present state; without a template nothing happens. -/
def render (c : Component) : Outcome Unit :=
  match c.template with
  | none => ⟨.ok (), [], c⟩
  | some t =>
    match t.render c.store.state with
    | .error e => ⟨.error (.render e), [.before c.store.state], c⟩
    | .ok text =>
      ⟨.ok (), [.before c.store.state, .after c.store.state],
        { c with content := text, renders := c.renders + 1 }⟩

/-- Compiles a source with an engine and shows it. A source that fails leaves the component as it
was. -/
def mount (c : Component) (engine : Engine) (source : String) (s : Session) :
    Outcome Unit × Session :=
  match engine.createTemplate source s with
  | (.error e, s) => (⟨.error e, [.init c.store.state], c⟩, s)
  | (.ok t, s) =>
    let rendered := { c with template := some t, mounted := true }.render
    ({ rendered with events := .init c.store.state :: rendered.events }, s)

/-- Patches the state. If the component is mounted and a field changes, the observers are told and
the component is shown once more. -/
def setState (c : Component) (patch : Data) : Outcome (List Change) :=
  let (changes, store) := c.store.overlay patch
  let c := { c with store }
  if c.mounted && !changes.isEmpty then
    let rendered := c.render
    { result := rendered.result.map fun _ => changes
      events := store.notify changes ++ rendered.events
      component := rendered.component }
  else ⟨.ok changes, [], c⟩

/-- Takes the component down, if it is mounted: nothing is shown any more. -/
def unmount (c : Component) : Outcome Unit :=
  if c.mounted then
    ⟨.ok (), [.cleanup], { c with template := none, mounted := false, content := "" }⟩
  else ⟨.ok (), [], c⟩

/-- A rendering leaves the store alone. -/
@[simp] theorem render_store (c : Component) : c.render.component.store = c.store := by
  rw [render]
  split
  · rfl
  · split <;> rfl

/-- A rendering that succeeds. -/
theorem render_of_ok {c : Component} {t : Template} {text : String} (ht : c.template = some t)
    (hr : t.render c.store.state = .ok text) :
    c.render = ⟨.ok (), [.before c.store.state, .after c.store.state],
      { c with content := text, renders := c.renders + 1 }⟩ := by
  simp [render, ht, hr]

/-- A rendering that fails. -/
theorem render_of_error {c : Component} {t : Template} {e : RenderError} (ht : c.template = some t)
    (hr : t.render c.store.state = .error e) :
    c.render = ⟨.error (.render e), [.before c.store.state], c⟩ := by
  simp [render, ht, hr]

/-- What a rendering tells: that it starts, and that it has succeeded if it has. -/
theorem render_events {c : Component} {t : Template} (ht : c.template = some t) :
    c.render.events = .before c.store.state ::
      if (t.render c.store.state).toOption.isSome then [.after c.store.state] else [] := by
  cases hr : t.render c.store.state with
  | ok text =>
    rw [render_of_ok ht hr]
    rfl
  | error e =>
    rw [render_of_error ht hr]
    rfl

/-- A patch that changes a field of a component that is mounted: the observers are told, and the
component is rendered. -/
theorem setState_shown {c : Component} {patch : Data}
    (h : (c.mounted && !(Store.diff c.store.state patch).isEmpty) = true) :
    c.setState patch =
      let changes := Store.diff c.store.state patch
      let patched := { c with store := (c.store.overlay patch).2 }
      ⟨patched.render.result.map fun _ => changes,
        patched.store.notify changes ++ patched.render.events, patched.render.component⟩ := by
  rw [← Store.overlay_changes] at h ⊢
  simp only [setState, h, if_true]

/-- Any other patch is not shown. -/
theorem setState_hidden {c : Component} {patch : Data}
    (h : (c.mounted && !(Store.diff c.store.state patch).isEmpty) = false) :
    c.setState patch =
      ⟨.ok (Store.diff c.store.state patch), [], { c with store := (c.store.overlay patch).2 }⟩ := by
  rw [← Store.overlay_changes] at h ⊢
  simp only [setState, h]
  rfl

/-- A patch leaves the store as the overlay does, whether it is shown or not. -/
@[simp] theorem setState_store (c : Component) (patch : Data) :
    (c.setState patch).component.store = (c.store.overlay patch).2 := by
  cases h : c.mounted && !(Store.diff c.store.state patch).isEmpty with
  | true => rw [setState_shown h, render_store]
  | false => rw [setState_hidden h]

/-- A mount leaves the store alone. -/
@[simp] theorem mount_store (c : Component) (engine : Engine) (source : String) (s : Session) :
    (c.mount engine source s).1.component.store = c.store := by
  rw [mount]
  split
  · rfl
  · rw [render_store]

/-- Taking a component down leaves the store alone. -/
@[simp] theorem unmount_store (c : Component) : c.unmount.component.store = c.store := by
  rw [unmount]
  split <;> rfl

/-- A component that is not mounted is not taken down. -/
theorem unmount_of_not_mounted (c : Component) (h : c.mounted = false) :
    c.unmount = ⟨.ok (), [], c⟩ := by
  simp [unmount, h]

end Component

end Stencil
