import Stencil.Proofs.History

/-!
# The lifecycle of components

What a component shows and tells after any calls, with successes and failures in any order. Main
statement: `lawful`, that it shows the output of the latest rendering that succeeded since it was
last taken down, and that each turn tells of its changes and its rendering in the order in which
they come about.
-/

namespace Stencil

/-- Whether the event tells that a rendering has succeeded. -/
def Event.isAfter : Event → Bool
  | .after _ => true
  | _ => false

/-- Whether the event tells of a rendering. -/
def Event.ofRendering : Event → Bool
  | .before _ | .after _ => true
  | _ => false

namespace Component

variable (initial : Data) (calls : List Call)

/-! ## Observers -/

/-- A call adds at most one observer of a key, behind the others. -/
theorem observersOf_perform (c : Component) (call : Call) (key : String) :
    (c.perform call).component.store.observersOf key =
      c.store.observersOf key ++ (call.observer? key).toList := by
  cases call with
  | watch k observer =>
    rw [perform, watch, Store.observersOf_observe, Call.observer?]
    by_cases hk : key = k <;> simp [hk]
  | mount engine source session => simp [perform, Call.observer?]
  | setState patch => simp [perform, Call.observer?, Store.observersOf]
  | unmount => simp [perform, Call.observer?]

/-- The observers of a field after a run are those that the calls brought, in order. -/
theorem observersOf_run (key : String) :
    ((new initial).run calls).store.observersOf key = observersIn key calls := by
  induction calls using List.reverseRecOn with
  | nil => rfl
  | append_singleton calls call ih =>
    rw [run_concat, observersOf_perform, ih, observersIn, observersIn, List.filterMap_append]
    cases hcall : call.observer? key <;> simp [hcall]

/-! ## What a turn tells -/

namespace Turn

/-- What a rendering tells: that it starts, and that it has succeeded if it has. -/
def renderEvents (t : Turn) : List Event :=
  .before t.after.store.state :: if t.shown.isSome then [.after t.after.store.state] else []

/-- What the observers that came with some calls are told of a change. -/
def notices (earlier : List Call) (change : Change) : List Event :=
  (observersIn change.key earlier).map fun observer => .watch observer change.old change.new

/-- What a patch tells after some calls: if the component is mounted and a field changes, the
observers of each change in turn, and then of one rendering. -/
def patchEvents (earlier : List Call) (t : Turn) : List Event :=
  if t.before.mounted && !t.changes.isEmpty then
    t.changes.flatMap (notices earlier) ++ t.renderEvents
  else []

/-- What a turn tells after some calls. -/
def report (earlier : List Call) (t : Turn) : List Event :=
  match t.call with
  | .watch .. => []
  | .mount .. =>
    .init t.before.store.state :: if t.compiled.isSome then t.renderEvents else []
  | .setState _ => t.patchEvents earlier
  | .unmount => if t.before.mounted then [.cleanup] else []

end Turn

/-- A turn that renders a component tells what the rendering tells. -/
theorem Turn.events_render {t : Turn} {c : Component} {template : Template}
    (htemplate : c.template = some template) (hstore : t.after.store = c.store)
    (hrendering : t.rendering = some (template.render c.store.state)) :
    c.render.events = t.renderEvents := by
  rw [Component.render_events htemplate, renderEvents, shown, hrendering, hstore]
  rfl

/-- A mount tells that it compiles, and then of a rendering if there is something to render. -/
theorem events_mount (earlier : List Call) (c : Component) (engine : Engine) (source : String)
    (session : Session) :
    (Turn.outcome ⟨c, .mount engine source session⟩).events =
      Turn.report earlier ⟨c, .mount engine source session⟩ := by
  rcases hcreate : engine.createTemplate source session with ⟨_ | template, after⟩
  · simp [Turn.report, Turn.compiled, Turn.outcome, perform, mount, hcreate, Except.toOption]
  · have hcompiled : Turn.compiled ⟨c, .mount engine source session⟩ = some template := by
      simp [Turn.compiled, hcreate, Except.toOption]
    have hrender : { c with template := some template, mounted := true }.render.events =
        Turn.renderEvents ⟨c, .mount engine source session⟩ := by
      refine Turn.events_render rfl ?_ ?_
      · simp [Turn.after, Turn.outcome, perform, mount, hcreate]
      · rw [Turn.rendering, hcompiled]
        rfl
    rw [Turn.report, hcompiled, ← hrender]
    simp [Turn.outcome, perform, mount, hcreate]

/-- If the observers are those that the calls before a patch brought, then they are told of its
changes. -/
theorem notify_overlay {earlier : List Call} {c : Component}
    (hobservers : ∀ key, c.store.observersOf key = observersIn key earlier) (patch : Data) :
    (c.store.overlay patch).2.notify (Store.diff c.store.state patch) =
      (Store.diff c.store.state patch).flatMap (Turn.notices earlier) := by
  rw [Store.notify]
  congr 1
  funext change
  rw [Turn.notices, ← hobservers]
  rfl

/-- A patch tells what it should if the observers are those that the calls before it brought. -/
theorem events_setState {earlier : List Call} {c : Component}
    (hinstalled : c.mounted = c.template.isSome)
    (hobservers : ∀ key, c.store.observersOf key = observersIn key earlier) (patch : Data) :
    (Turn.outcome ⟨c, .setState patch⟩).events = Turn.report earlier ⟨c, .setState patch⟩ := by
  rw [Turn.report, Turn.patchEvents]
  cases hguard : c.mounted && !(Store.diff c.store.state patch).isEmpty with
  | false =>
    rw [Turn.outcome, perform, setState_hidden hguard, Turn.changes, hguard]
    rfl
  | true =>
    obtain ⟨hmounted, -⟩ := Bool.and_eq_true_iff.1 hguard
    obtain ⟨template, htemplate⟩ := Option.isSome_iff_exists.1 (hinstalled ▸ hmounted)
    have hrender : { c with store := (c.store.overlay patch).2 }.render.events =
        Turn.renderEvents ⟨c, .setState patch⟩ := by
      refine Turn.events_render htemplate (setState_store c patch) ?_
      rw [Turn.rendering, Turn.changes, hguard, htemplate]
      rfl
    have hnotify := notify_overlay hobservers patch
    rw [Turn.outcome, perform, setState_shown hguard, Turn.changes, hguard, ← hrender, ← hnotify]
    rfl

/-- Every call of a run tells what it should. -/
theorem events_run (call : Call) :
    (Turn.outcome ⟨(new initial).run calls, call⟩).events =
      Turn.report calls ⟨(new initial).run calls, call⟩ := by
  cases call with
  | watch => rfl
  | mount engine source session => exact events_mount calls _ engine source session
  | setState patch =>
    exact events_setState (installed_run initial calls) (observersOf_run initial calls) patch
  | unmount =>
    show (Component.unmount _).events = _
    rw [Component.unmount, Turn.report]
    split <;> rfl

/-- Every turn of a run does what a turn can do. -/
theorem effect_of_mem_history {t : Turn} (h : t ∈ (new initial).history calls) : t.Effect := by
  obtain ⟨earlier, later, -, hbefore⟩ := exists_of_mem_history h
  exact t.effect (hbefore ▸ installed_run initial earlier)

/-- Every turn of a run tells what it should after some of the calls. -/
theorem exists_events_eq_report {t : Turn} (h : t ∈ (new initial).history calls) :
    ∃ earlier, t.outcome.events = t.report earlier := by
  obtain ⟨earlier, later, -, hbefore⟩ := exists_of_mem_history h
  obtain ⟨c, call⟩ := t
  obtain rfl : c = (new initial).run earlier := hbefore
  exact ⟨earlier, events_run initial earlier call⟩

/-! ## The order of events -/

/-- Right before every rendering that succeeds stands the start of one, with the same state. -/
def Paired (events : List Event) : Prop :=
  ∀ past state rest, events = past ++ .after state :: rest →
    ∃ earlier, past = earlier ++ [.before state]

/-- News without renderings that succeed is paired. -/
theorem paired_of_isAfter {events : List Event} (h : ∀ e ∈ events, e.isAfter = false) :
    Paired events := by
  rintro past state rest rfl
  have hafter := h (.after state) (List.mem_append_right past List.mem_cons_self)
  cases hafter

/-- No news is paired. -/
theorem paired_nil : Paired [] :=
  paired_of_isAfter fun _ he => absurd he List.not_mem_nil

/-- A rendering that succeeds is paired. -/
theorem paired_shown (state : Data) : Paired [.before state, .after state] := by
  intro past state' rest heq
  rcases past with _ | ⟨first, _ | ⟨second, past⟩⟩
  · cases heq
  · cases heq
    exact ⟨[], rfl⟩
  · simp at heq

/-- Paired events stay so before other paired events. -/
theorem Paired.append {events more : List Event} (h : Paired events) (hmore : Paired more) :
    Paired (events ++ more) := by
  intro past state rest heq
  rcases List.append_eq_append_iff.1 heq with ⟨middle, rfl, hrest⟩ | ⟨middle, rfl, hrest⟩
  · obtain ⟨earlier, rfl⟩ := hmore middle state rest hrest
    exact ⟨events ++ earlier, by simp⟩
  · cases middle with
    | nil =>
      -- nothing could stand before an event that comes first
      obtain ⟨earlier, hnone⟩ := hmore [] state rest hrest.symm
      simp at hnone
    | cons first middle =>
      obtain ⟨rfl, -⟩ := List.cons.inj hrest
      exact h past state middle rfl

/-- The observers are told of changes alone. -/
theorem Turn.isAfter_of_mem_notices {earlier : List Call} {changes : List Change} {e : Event}
    (he : e ∈ changes.flatMap (notices earlier)) : e.isAfter = false := by
  obtain ⟨_, _, he⟩ := List.mem_flatMap.1 he
  obtain ⟨_, _, rfl⟩ := List.mem_map.1 he
  rfl

/-- What a rendering tells is paired. -/
theorem Turn.paired_renderEvents (t : Turn) : Paired t.renderEvents := by
  rw [renderEvents]
  split
  · exact paired_shown _
  · exact paired_of_isAfter (by simp [Event.isAfter])

/-- What a turn tells is paired. -/
theorem Turn.paired_report (earlier : List Call) (t : Turn) : Paired (t.report earlier) := by
  rw [report]
  split
  · exact paired_nil
  · have hinit : Paired [.init t.before.store.state] := paired_of_isAfter (by simp [Event.isAfter])
    split
    · exact hinit.append t.paired_renderEvents
    · exact hinit
  · rw [patchEvents]
    split
    · exact (paired_of_isAfter fun _ => isAfter_of_mem_notices).append t.paired_renderEvents
    · exact paired_nil
  · split <;> exact paired_of_isAfter (by simp [Event.isAfter])

/-- What a run tells is paired. -/
theorem paired_run : Paired (trace ((new initial).history calls)) := by
  induction calls using List.reverseRecOn with
  | nil => exact paired_nil
  | append_singleton calls call ih =>
    rw [history_concat, trace_concat, events_run]
    exact ih.append (Turn.paired_report calls _)

/-! ## What is shown -/

/-- A turn tells of a rendering that has succeeded exactly if it shows something. -/
theorem Turn.countP_report (earlier : List Call) (t : Turn) :
    (t.report earlier).countP Event.isAfter = if t.shown.isSome then 1 else 0 := by
  have hrender : t.renderEvents.countP Event.isAfter = if t.shown.isSome then 1 else 0 := by
    rw [renderEvents]
    split <;> rfl
  obtain ⟨c, call⟩ := t
  cases call with
  | watch => rfl
  | mount engine source session =>
    rw [report, List.countP_cons_of_neg (by simp [Event.isAfter])]
    cases hcompiled : compiled ⟨c, .mount engine source session⟩ with
    | some template => simpa using hrender
    | none => simp [shown, rendering, hcompiled]
  | setState patch =>
    show (patchEvents earlier ⟨c, .setState patch⟩).countP Event.isAfter = _
    rw [patchEvents]
    split
    · rw [List.countP_append, hrender, List.countP_eq_zero.2, Nat.zero_add]
      exact fun e he => by simp [isAfter_of_mem_notices he]
    · next hguard =>
      have hnone : rendering ⟨c, .setState patch⟩ = none := if_neg hguard
      rw [shown, hnone]
      rfl
  | unmount =>
    show (if c.mounted then [.cleanup] else [] : List Event).countP Event.isAfter = 0
    split <;> rfl

/-- The component shows the output of the latest rendering that succeeded since it was taken down,
and has counted those of which it has told. -/
structure Shows (c : Component) (turns : List Turn) : Prop where
  content : c.content = (lastShown turns).getD ""
  renders : c.renders = (trace turns).countP Event.isAfter

/-- One more turn keeps what is shown in step. -/
theorem Shows.concat {t : Turn} {turns : List Turn} {earlier : List Call}
    (h : Shows t.before turns) (ht : t.Effect) (hevents : t.outcome.events = t.report earlier) :
    Shows t.after (turns ++ [t]) := by
  have hcontent := h.content
  have hrenders := h.renders
  have hcount := t.countP_report earlier
  constructor
  · rw [lastShown_concat]
    cases ht with
    | rests _ _ hafter hrendering hdown => simp [hafter, hdown, Turn.shown, hrendering, hcontent]
    | shows _ _ _ _ hafter hrendering hdown =>
      simp [hafter, hdown, Turn.shown, hrendering, Except.toOption]
    | fails _ _ _ _ _ hafter hrendering hdown =>
      simp [hafter, hdown, Turn.shown, hrendering, Except.toOption, hcontent]
    | ends hafter _ hdown => simp [hafter, hdown]
  · rw [trace_concat, List.countP_append, ← hrenders, hevents, hcount]
    cases ht with
    | rests _ _ hafter hrendering => simp [hafter, Turn.shown, hrendering]
    | shows _ _ _ _ hafter hrendering => simp [hafter, Turn.shown, hrendering, Except.toOption]
    | fails _ _ _ _ _ hafter hrendering => simp [hafter, Turn.shown, hrendering, Except.toOption]
    | ends hafter hrendering => simp [hafter, Turn.shown, hrendering]

/-- What is shown after a run. -/
theorem shows_run : Shows ((new initial).run calls) ((new initial).history calls) := by
  induction calls using List.reverseRecOn with
  | nil => exact ⟨rfl, rfl⟩
  | append_singleton calls call ih =>
    rw [run_concat, history_concat]
    exact Shows.concat (t := ⟨_, call⟩) ih (Turn.effect _ (installed_run initial calls))
      (events_run initial calls call)

/-- What a turn shows is the output of the template that it leaves installed. -/
theorem Turn.Effect.shown_eq_some_iff {t : Turn} (h : t.Effect) (text : String) :
    t.shown = some text ↔ t.shown.isSome = true ∧
      ∃ template, t.after.template = some template ∧
        template.render t.after.store.state = .ok text := by
  cases h with
  | rests _ _ _ hrendering => simp [shown, hrendering]
  | shows _ _ _ houtput hafter hrendering =>
    simp [hafter, shown, hrendering, Except.toOption, houtput]
  | fails _ _ _ _ _ _ hrendering => simp [shown, hrendering, Except.toOption]
  | ends _ hrendering => simp [shown, hrendering]

/-! ## Being mounted -/

/-- A turn that does not take the component down leaves it mounted if it was, or if it has compiled a
template. -/
theorem Turn.Effect.mounted {t : Turn} (h : t.Effect) (hdown : t.takesDown = false)
    (hmounted : t.before.mounted = true ∨ t.compiled.isSome = true) : t.after.mounted = true := by
  cases h with
  | rests _ _ hafter hrendering =>
    rw [hafter]
    refine hmounted.resolve_right fun hcompiled => ?_
    obtain ⟨c, call⟩ := t
    cases call with
    | mount engine source session =>
      obtain ⟨template, hcompiled⟩ := Option.isSome_iff_exists.1 hcompiled
      simp [rendering, hcompiled] at hrendering
    | watch | setState | unmount => cases hcompiled
  | shows _ _ _ _ hafter => rw [hafter]
  | fails _ _ _ _ _ hafter => rw [hafter]
  | ends _ _ htakes => rw [htakes] at hdown; cases hdown

/-- What a rendering tells is about a rendering. -/
theorem Turn.ofRendering_of_mem_renderEvents {t : Turn} {e : Event} (h : e ∈ t.renderEvents) :
    e.ofRendering = true := by
  rw [renderEvents] at h
  rcases List.mem_cons.1 h with rfl | h
  · rfl
  · split at h
    · obtain rfl := List.mem_singleton.1 h
      rfl
    · cases h

/-- A patch tells something only if it finds the component mounted. -/
theorem Turn.mounted_of_mem_patchEvents {earlier : List Call} {t : Turn} {e : Event}
    (h : e ∈ t.patchEvents earlier) : t.before.mounted = true := by
  rw [patchEvents] at h
  split at h
  · next hguard => exact (Bool.and_eq_true_iff.1 hguard).1
  · cases h

/-- Taking a component down tells of nothing else. -/
theorem Turn.eq_cleanup_of_mem_report {earlier : List Call} {c : Component} {e : Event}
    (h : e ∈ report earlier ⟨c, .unmount⟩) : e = .cleanup := by
  have h : e ∈ (if c.mounted then [.cleanup] else [] : List Event) := h
  split at h
  · exact List.mem_singleton.1 h
  · cases h

/-- Observers are told only by turns that find the component mounted and do not take it down. -/
theorem Turn.mounted_of_watch_mem_report {earlier : List Call} {t : Turn} {observer : String}
    {old : Option Value} {new : Value} (h : .watch observer old new ∈ t.report earlier) :
    t.takesDown = false ∧ t.before.mounted = true := by
  obtain ⟨c, call⟩ := t
  cases call with
  | watch => cases h
  | mount engine source session =>
    rcases List.mem_cons.1 h with h | h
    · cases h
    · split at h
      · cases ofRendering_of_mem_renderEvents h
      · cases h
  | setState patch => exact ⟨rfl, mounted_of_mem_patchEvents h⟩
  | unmount => cases eq_cleanup_of_mem_report h

/-- A rendering is told of only by turns that do not take the component down, and that find it
mounted or have compiled a template. -/
theorem Turn.mounted_of_mem_report {earlier : List Call} {t : Turn} {e : Event}
    (h : e ∈ t.report earlier) (hrendering : e.ofRendering = true) :
    t.takesDown = false ∧ (t.before.mounted = true ∨ t.compiled.isSome = true) := by
  obtain ⟨c, call⟩ := t
  cases call with
  | watch => cases h
  | mount engine source session =>
    rcases List.mem_cons.1 h with rfl | h
    · cases hrendering
    · split at h
      · next hcompiled => exact ⟨rfl, .inr hcompiled⟩
      · cases h
  | setState patch => exact ⟨rfl, .inl (mounted_of_mem_patchEvents h)⟩
  | unmount =>
    obtain rfl := eq_cleanup_of_mem_report h
    cases hrendering

/-! ## Runs -/

/-- What holds of a component after some calls. -/
structure Lawful (initial : Data) (calls : List Call) : Prop where
  /-- It is mounted exactly when it has a template. -/
  installed : ((new initial).run calls).mounted = ((new initial).run calls).template.isSome
  /-- It shows the output of the latest rendering that succeeded since it was last taken down, and
  nothing if there is none. -/
  content : ((new initial).run calls).content = (lastShown ((new initial).history calls)).getD ""
  /-- A rendering succeeds in a turn exactly if the turn tells so; it is one of the template that the
  turn leaves installed, with the state that it leaves. -/
  shown : ∀ t ∈ (new initial).history calls, ∀ text, t.shown = some text ↔
    (∃ e ∈ t.outcome.events, e.isAfter = true) ∧
      ∃ template, t.after.template = some template ∧
        template.render t.after.store.state = .ok text
  /-- It has counted the renderings that it has told to have succeeded. -/
  renders : ((new initial).run calls).renders =
    (trace ((new initial).history calls)).countP Event.isAfter
  /-- Right before every rendering that has succeeded it has told that one starts, with the same
  state. -/
  paired : Paired (trace ((new initial).history calls))
  /-- Observers are told while it is mounted. -/
  watches : ∀ t ∈ (new initial).history calls, ∀ observer old new,
    .watch observer old new ∈ t.outcome.events → t.before.mounted = true ∧ t.after.mounted = true
  /-- It tells of renderings while it is mounted, which a mount brings about when it has compiled. -/
  renderings : ∀ t ∈ (new initial).history calls, ∀ e ∈ t.outcome.events, e.ofRendering = true →
    (t.before.mounted = true ∨ t.compiled.isSome = true) ∧ t.after.mounted = true
  /-- The changes of a patch come in the order of their keys. -/
  inOrder : ∀ t ∈ (new initial).history calls, t.changes.Pairwise fun a b => a.key < b.key
  /-- What each patch tells. -/
  patches : ∀ earlier patch later, calls = earlier ++ .setState patch :: later →
    let t : Turn := ⟨(new initial).run earlier, .setState patch⟩
    t.outcome.events = t.patchEvents earlier

/-- Every run of a component is lawful. -/
theorem lawful : Lawful initial calls where
  installed := installed_run initial calls
  content := (shows_run initial calls).content
  shown := fun t ht text => by
    obtain ⟨earlier, hevents⟩ := exists_events_eq_report initial calls ht
    have htold : t.shown.isSome = true ↔ ∃ e ∈ t.outcome.events, e.isAfter = true := by
      rw [← List.countP_pos_iff, hevents, Turn.countP_report]
      split <;> simp [*]
    rw [(effect_of_mem_history initial calls ht).shown_eq_some_iff, htold]
  renders := (shows_run initial calls).renders
  paired := paired_run initial calls
  watches := fun t ht observer old new he => by
    obtain ⟨earlier, hevents⟩ := exists_events_eq_report initial calls ht
    obtain ⟨hdown, hmounted⟩ := Turn.mounted_of_watch_mem_report (hevents ▸ he)
    exact ⟨hmounted, (effect_of_mem_history initial calls ht).mounted hdown (.inl hmounted)⟩
  renderings := fun t ht e he hrendering => by
    obtain ⟨earlier, hevents⟩ := exists_events_eq_report initial calls ht
    obtain ⟨hdown, hmounted⟩ := Turn.mounted_of_mem_report (hevents ▸ he) hrendering
    exact ⟨hmounted, (effect_of_mem_history initial calls ht).mounted hdown hmounted⟩
  inOrder := fun t _ => by
    obtain ⟨c, call⟩ := t
    cases call with
    | setState patch => exact Store.pairwise_diff c.store.state patch
    | watch | mount | unmount => exact .nil
  patches := fun earlier patch _ _ => events_run initial earlier (.setState patch)

end Component

end Stencil
