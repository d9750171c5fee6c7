import Stencil.Proofs.Ceiling
import Stencil.Proofs.Freshness
import Stencil.Proofs.Lifecycle

/-!
# Calls that fail

A call of a component can fail at three points: before a mount has a template, when the template of a
mount does not render, and when the installed template does not render with a state that a patch has
changed. Main statement: `keepsOnFailure`, what such a call has done to a component by then, after any
calls before it, and that no call fails in another way.
-/

namespace Stencil.Component

variable (initial : Data) (calls : List Call)

/-! ## The points of failure -/

/-- Where a call of a component fails, and the error. -/
inductive Fails (c : Component) : Call → Error → Prop where
  /-- A mount whose template is not created. -/
  | refused {engine : Engine} {source : String} {session : Session} {err : Error}
    (created : (engine.createTemplate source session).1 = .error err) :
    Fails c (.mount engine source session) err
  /-- A mount whose template does not render. -/
  | mounting {engine : Engine} {source : String} {session : Session} {template : Template}
    {e : RenderError} (created : (engine.createTemplate source session).1 = .ok template)
    (output : template.render c.store.state = .error e) :
    Fails c (.mount engine source session) (.render e)
  /-- A patch that changes a field, so that the installed template does not render. -/
  | patching {patch : Data} {template : Template} {e : RenderError}
    (installed : c.template = some template) (changed : Store.diff c.store.state patch ≠ [])
    (output : template.render (c.store.overlay patch).2.state = .error e) :
    Fails c (.setState patch) (.render e)

/-- A mount without a template tells that it compiles, and nothing else happens. -/
theorem perform_mount_of_error (c : Component) {engine : Engine} {source : String}
    {session : Session} {err : Error}
    (hcreated : (engine.createTemplate source session).1 = .error err) :
    c.perform (.mount engine source session) = ⟨.error err, [.init c.store.state], c⟩ := by
  rcases hcreate : engine.createTemplate source session with ⟨created, after⟩
  rw [hcreate] at hcreated
  obtain rfl : created = .error err := hcreated
  simp [perform, mount, hcreate]

/-- Calls after a mount without a template lead to what they lead to without that mount. -/
theorem run_mount_of_error (c : Component) {engine : Engine} {source : String}
    {session : Session} {err : Error}
    (hcreated : (engine.createTemplate source session).1 = .error err) (later : List Call) :
    c.run (.mount engine source session :: later) = c.run later := by
  rw [run, List.foldl_cons, perform_mount_of_error c hcreated]
  rfl

/-- A mount with a template installs it and renders. -/
theorem perform_mount_of_ok (c : Component) {engine : Engine} {source : String}
    {session : Session} {template : Template}
    (hcreated : (engine.createTemplate source session).1 = .ok template) :
    let rendered := { c with template := some template, mounted := true }.render
    c.perform (.mount engine source session) =
      { rendered with events := .init c.store.state :: rendered.events } := by
  rcases hcreate : engine.createTemplate source session with ⟨created, after⟩
  rw [hcreate] at hcreated
  obtain rfl : created = .ok template := hcreated
  simp [perform, mount, hcreate]

/-- A rendering fails with the error of its template. -/
theorem exists_of_render_eq_error {c : Component} {err : Error}
    (h : c.render.result = .error err) :
    ∃ template e, c.template = some template ∧ template.render c.store.state = .error e ∧
      err = .render e := by
  unfold render at h
  split at h
  · cases h
  · next template htemplate =>
    split at h
    · next e houtput => exact ⟨template, e, htemplate, houtput, (Except.error.inj h).symm⟩
    · cases h

/-- The result of a patch that is rendered is that of the rendering. -/
theorem result_setState_of_shown {c : Component} {patch : Data}
    (h : (c.mounted && !(Store.diff c.store.state patch).isEmpty) = true) :
    (c.perform (.setState patch)).result =
      { c with store := (c.store.overlay patch).2 }.render.result := by
  rw [perform, setState_shown h]
  exact forget_map _ _

/-- A call fails at one of the three points. -/
theorem fails_of_result {c : Component} {call : Call} {err : Error}
    (h : (c.perform call).result = .error err) : Fails c call err := by
  cases call with
  | watch => cases h
  | mount engine source session =>
    cases hcreated : (engine.createTemplate source session).1 with
    | error err' =>
      rw [perform_mount_of_error c hcreated] at h
      cases h
      exact .refused hcreated
    | ok template =>
      rw [perform_mount_of_ok c hcreated] at h
      obtain ⟨_, e, htemplate, houtput, rfl⟩ := exists_of_render_eq_error h
      cases htemplate
      exact .mounting hcreated houtput
  | setState patch =>
    cases hshown : c.mounted && !(Store.diff c.store.state patch).isEmpty with
    | true =>
      rw [result_setState_of_shown hshown] at h
      obtain ⟨template, e, htemplate, houtput, rfl⟩ := exists_of_render_eq_error h
      refine .patching htemplate ?_ houtput
      simpa using (Bool.and_eq_true_iff.1 hshown).2
    | false =>
      rw [perform, setState_hidden hshown] at h
      cases h
  | unmount =>
    have h : c.unmount.result = .error err := h
    unfold Component.unmount at h
    split at h <;> cases h

/-! ## What is left after a failure -/

/-- What a turn leaves whose rendering has failed, after telling something: the template is installed
and the store stays as it is by then, what is shown stays as it was before the turn, and the error is
that of the installed template with the present state. -/
structure Turn.Unrendered (t : Turn) (template : Template) (store : Store) (told : List Event) :
    Prop where
  installed : t.after.template = some template
  mounted : t.after.mounted = true
  store_eq : t.after.store = store
  content : t.after.content = t.before.content
  renders : t.after.renders = t.before.renders
  events : t.outcome.events = told ++ [.before store.state]
  /-- No rendering is told to have succeeded. -/
  silent : ∀ e ∈ t.outcome.events, e.isAfter = false
  result : ∃ e, template.render t.after.store.state = .error e ∧
    t.outcome.result = .error (.render e)

/-- A turn that comes to nothing but the start of a rendering. -/
theorem Turn.unrendered_of_outcome {t : Turn} {template : Template} {store : Store}
    {told : List Event} {e : RenderError} (houtput : template.render store.state = .error e)
    (htold : ∀ e ∈ told, e.isAfter = false)
    (h : t.outcome = ⟨.error (.render e), told ++ [.before store.state],
      { t.before with store, template := some template, mounted := true }⟩) :
    t.Unrendered template store told where
  installed := by rw [after, h]
  mounted := by rw [after, h]
  store_eq := by rw [after, h]
  content := by rw [after, h]
  renders := by rw [after, h]
  events := by rw [h]
  silent := by
    rw [h]
    refine List.forall_mem_append.2 ⟨htold, ?_⟩
    simp [Event.isAfter]
  result := by
    refine ⟨e, ?_, ?_⟩
    · rw [after, h]
      exact houtput
    · rw [h]

/-- A mount whose template does not render leaves it installed. -/
theorem unrendered_mount (c : Component) {engine : Engine} {source : String} {session : Session}
    {template : Template} {e : RenderError}
    (hcreated : (engine.createTemplate source session).1 = .ok template)
    (houtput : template.render c.store.state = .error e) :
    Turn.Unrendered ⟨c, .mount engine source session⟩ template c.store [.init c.store.state] := by
  refine Turn.unrendered_of_outcome houtput (by simp [Event.isAfter]) ?_
  have hrender : { c with template := some template, mounted := true }.render =
      ⟨.error (.render e), [.before c.store.state],
        { c with template := some template, mounted := true }⟩ := render_of_error rfl houtput
  rw [Turn.outcome, perform_mount_of_ok c hcreated, hrender]
  rfl

/-- A component with a template is mounted, if it has one exactly while it is mounted. -/
theorem mounted_of_template {c : Component} {template : Template}
    (hinstalled : c.mounted = c.template.isSome) (htemplate : c.template = some template) :
    c.mounted = true := by
  rw [hinstalled, htemplate]
  rfl

/-- A patch that changes a field of a component with a template is shown. -/
theorem shown_of_installed {c : Component} {patch : Data} {template : Template}
    (hinstalled : c.mounted = c.template.isSome) (htemplate : c.template = some template)
    (hchanged : Store.diff c.store.state patch ≠ []) :
    (c.mounted && !(Store.diff c.store.state patch).isEmpty) = true := by
  simp [mounted_of_template hinstalled htemplate, hchanged]

/-- A patch that changes a field shows what the installed template gives. -/
theorem shown_setState {c : Component} {patch : Data} {template : Template} {text : String}
    (hinstalled : c.mounted = c.template.isSome) (htemplate : c.template = some template)
    (hchanged : Store.diff c.store.state patch ≠ [])
    (houtput : template.render (c.store.overlay patch).2.state = .ok text) :
    let t : Turn := ⟨c, .setState patch⟩
    t.outcome.result = .ok () ∧ t.after.template = some template ∧ t.after.content = text := by
  have hshown := shown_of_installed hinstalled htemplate hchanged
  have hrender := render_of_ok (c := { c with store := (c.store.overlay patch).2 }) htemplate houtput
  simp only [Turn.after, Turn.outcome, perform, setState_shown hshown]
  rw [hrender]
  exact ⟨rfl, htemplate, rfl⟩

/-- A patch that does not render leaves the patched state, and every observer that came before has
been told of its changes. -/
theorem unrendered_setState {c : Component} {earlier : List Call} {patch : Data}
    {template : Template} {e : RenderError} (hinstalled : c.mounted = c.template.isSome)
    (hobservers : ∀ key, c.store.observersOf key = observersIn key earlier)
    (htemplate : c.template = some template) (hchanged : Store.diff c.store.state patch ≠ [])
    (houtput : template.render (c.store.overlay patch).2.state = .error e) :
    Turn.Unrendered ⟨c, .setState patch⟩ template (c.store.overlay patch).2
      ((Store.diff c.store.state patch).flatMap (Turn.notices earlier)) := by
  have hmounted := mounted_of_template hinstalled htemplate
  have hshown := shown_of_installed hinstalled htemplate hchanged
  have hrender : { c with store := (c.store.overlay patch).2 }.render =
      ⟨.error (.render e), [.before (c.store.overlay patch).2.state],
        { c with store := (c.store.overlay patch).2 }⟩ := render_of_error htemplate houtput
  refine Turn.unrendered_of_outcome houtput (fun _ => Turn.isAfter_of_mem_notices) ?_
  rw [Turn.outcome, perform, setState_shown hshown]
  simp only [hrender, notify_overlay hobservers]
  rw [← hmounted, ← htemplate]
  rfl

/-! ## The main statement -/

/-- What failures do to a component that some calls have led to. -/
structure KeepsOnFailure (c : Component) (earlier : List Call) : Prop where
  /-- A mount whose template is not created, because of the source or because of the cache, leaves
  the component as it was, and has told that it compiles and nothing else. -/
  refused : ∀ engine source session err,
    (Engine.createTemplate engine source session).1 = .error err →
    let t : Turn := ⟨c, .mount engine source session⟩
    ((∃ cause, err = .parse cause) ∨ ∃ request, err = .cache request) ∧
      t.outcome.result = .error err ∧ t.outcome.events = [.init c.store.state] ∧ t.after = c
  /-- Whatever is called after such a mount does what it would do without it. -/
  unnoticed : ∀ engine source session err,
    (Engine.createTemplate engine source session).1 = .error err → ∀ later call,
    (c.run (.mount engine source session :: later)).perform call = (c.run later).perform call
  /-- The template from before such a mount is the one that the next patch shows. -/
  serving : ∀ engine source session err,
    (Engine.createTemplate engine source session).1 = .error err → ∀ template patch text,
    c.template = some template → Store.diff c.store.state patch ≠ [] →
    template.render (c.store.overlay patch).2.state = .ok text →
    let t : Turn := ⟨c.run [.mount engine source session], .setState patch⟩
    t.outcome.result = .ok () ∧ t.after.template = some template ∧ t.after.content = text
  /-- A mount whose template does not render leaves it installed. -/
  mounting : ∀ engine source session template e,
    (Engine.createTemplate engine source session).1 = .ok template →
    template.render c.store.state = .error e →
    Turn.Unrendered ⟨c, .mount engine source session⟩ template c.store [.init c.store.state]
  /-- A patch that does not render leaves the patched state, and before it failed the observers of
  each change have been told, in the order in which they came. -/
  patching : ∀ patch template e, c.template = some template →
    Store.diff c.store.state patch ≠ [] →
    template.render (c.store.overlay patch).2.state = .error e →
    Turn.Unrendered ⟨c, .setState patch⟩ template (c.store.overlay patch).2
      ((Store.diff c.store.state patch).flatMap (Turn.notices earlier))
  /-- No call fails in another way. -/
  only : ∀ call err, (c.perform call).result = .error err → Fails c call err

/-- **Failures keep what they should.** This is so of a component after any calls. -/
theorem keepsOnFailure : KeepsOnFailure ((new initial).run calls) calls where
  refused := by
    intro engine source session err hcreated t
    have houtcome : t.outcome = ⟨.error err, [.init _], (new initial).run calls⟩ :=
      perform_mount_of_error _ hcreated
    refine ⟨Engine.error_of_createTemplate hcreated, ?_, ?_, ?_⟩
    · rw [houtcome]
    · rw [houtcome]
    · rw [Turn.after, houtcome]
  unnoticed := by
    intro engine source session err hcreated later call
    rw [run_mount_of_error _ hcreated]
  serving := by
    intro engine source session err hcreated template patch text htemplate hchanged houtput
    rw [run_mount_of_error _ hcreated []]
    exact shown_setState (installed_run initial calls) htemplate hchanged houtput
  mounting := by
    intro engine source session template e hcreated houtput
    exact unrendered_mount _ hcreated houtput
  patching := by
    intro patch template e htemplate hchanged houtput
    exact unrendered_setState (installed_run initial calls) (observersOf_run initial calls)
      htemplate hchanged houtput
  only := by
    intro call err hresult
    exact fails_of_result hresult

namespace Counter

/-- The engine does not parse the end of a conditional that was not started. -/
theorem createTemplate_endif : (engine.createTemplate "@endif" {}).1 =
    .error (.parse (.ofOffset (.danglingEnd .conditional none) "@endif".toList 0)) := by
  have hscan : Node.scan "@endif".toList = [.directive (.close .conditional)] := by
    decide +kernel
  have hparse : Node.parse engine.config.maxDepth "@endif" =
      .error (.ofOffset (.danglingEnd .conditional none) "@endif".toList 0) := by
    unfold Node.parse Node.parseChars
    rw [hscan]
    rfl
  show (engine.build "@endif" {}).1 = _
  rw [Engine.build, Engine.parse, hparse]

/-- A count that is watched stays served when another source is refused, and stays shown when a
patch takes it away. -/
theorem keepsOnFailure_count :
    let calls := [Call.mount engine source {}, .watch "count" "log"]
    let c := (new zero).run calls
    let refused : Turn := ⟨c, .mount engine "@endif" {}⟩
    let later : Turn := ⟨c.run [.mount engine "@endif" {}], .setState one⟩
    refused.after = c ∧ later.after.content = "1" ∧
      Turn.Unrendered ⟨c, .setState nothing⟩ template (c.store.overlay nothing).2
        [.watch "log" (some (.number (.integer 0 (by decide)))) .null] ∧
      c.content = "0" := by
  intro calls c refused later
  have hkept := keepsOnFailure zero calls
  have hc : c = mounted.run [.watch "count" "log"] := run_mount_append _
  have hrefused := (hkept.refused engine "@endif" {} _ createTemplate_endif).2.2.2
  have htemplate : c.template = some template := by
    rw [hc]
    rfl
  have hserving : later.after.content = "1" := by
    refine (hkept.serving engine "@endif" {} _ createTemplate_endif template one "1" htemplate ?_
      ?_).2.2
    · show Store.diff c.store.state one ≠ []
      rw [hc]
      decide
    · show template.render (c.store.overlay one).2.state = .ok "1"
      rw [hc]
      rfl
  have hpatching : Turn.Unrendered ⟨c, .setState nothing⟩ template (c.store.overlay nothing).2
      ((Store.diff c.store.state nothing).flatMap (Turn.notices calls)) := by
    apply hkept.patching nothing template (.missingKey "count") htemplate
    · show Store.diff c.store.state nothing ≠ []
      rw [hc]
      decide
    · show template.render (c.store.overlay nothing).2.state = .error (.missingKey "count")
      rw [hc]
      rfl
  have hnotices : (Store.diff c.store.state nothing).flatMap (Turn.notices calls) =
      [.watch "log" (some (.number (.integer 0 (by decide)))) .null] := by
    rw [hc]
    rfl
  rw [hnotices] at hpatching
  refine ⟨hrefused, hserving, hpatching, ?_⟩
  rw [hc]
  rfl

end Counter

end Stencil.Component
