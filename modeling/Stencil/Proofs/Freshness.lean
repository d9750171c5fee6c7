import Stencil.Proofs.History

/-!
# What is shown and the state

Whether what a component shows is what its template gives with its state. A patch that changes
nothing does not render, so that after a rendering that has failed it leaves behind what was shown
before. Main statements: `shows_state_or_unchanged`, that after a mount or a patch that succeeds the
two differ in this case and in no other, and `Counter.not_shows_state`, that the case does occur.
-/

namespace Stencil.Component

variable (initial : Data)

/-! ## The latest rendering -/

/-- The latest rendering of a component that is mounted was of its template with its state, and if it
succeeded then its output is shown. -/
structure Tracks (c : Component) (turns : List Turn) (template : Template) : Prop where
  installed : c.template = some template
  latest : lastRendering turns = some (template.render c.store.state)
  content : ∀ text, template.render c.store.state = .ok text → c.content = text

/-- A turn that renders the template that it leaves installed is the latest one. -/
theorem Tracks.of_rendering {t : Turn} {template : Template} (turns : List Turn)
    (hinstalled : t.after.template = some template)
    (hrendering : t.rendering = some (template.render t.after.store.state))
    (hcontent : ∀ text, template.render t.after.store.state = .ok text → t.after.content = text) :
    Tracks t.after (turns ++ [t]) template where
  installed := hinstalled
  latest := by
    rw [lastRendering_concat, hrendering]
    rfl
  content := hcontent

/-- One more turn keeps track of the latest rendering. -/
theorem Tracks.concat {t : Turn} {turns : List Turn}
    (h : t.before.mounted = true → ∃ template, Tracks t.before turns template) (ht : t.Effect)
    (hmounted : t.after.mounted = true) :
    ∃ template, Tracks t.after (turns ++ [t]) template := by
  cases ht with
  | rests store hstate hafter hrendering =>
    rw [hafter] at hmounted ⊢
    obtain ⟨template, htracks⟩ := h hmounted
    refine ⟨template, htracks.installed, ?_, ?_⟩
    · rw [lastRendering_concat, hrendering, Option.none_or, htracks.latest, hstate hmounted]
    · rw [hstate hmounted]
      exact htracks.content
  | shows store template text houtput hafter hrendering =>
    refine ⟨template, .of_rendering turns ?_ ?_ fun other hother => ?_⟩
    · rw [hafter]
    · rw [hrendering, hafter, houtput]
    · rw [hafter] at hother ⊢
      exact Except.ok.inj (houtput.symm.trans hother)
  | fails store template e houtput _ hafter hrendering =>
    refine ⟨template, .of_rendering turns ?_ ?_ fun text htext => ?_⟩
    · rw [hafter]
    · rw [hrendering, hafter, houtput]
    · rw [hafter] at htext
      cases houtput.symm.trans htext
  | ends hafter =>
    rw [hafter] at hmounted
    cases hmounted

/-- A run keeps track of the latest rendering while the component is mounted. -/
theorem tracks_run (calls : List Call) (h : ((new initial).run calls).mounted = true) :
    ∃ template, Tracks ((new initial).run calls) ((new initial).history calls) template := by
  induction calls using List.reverseRecOn with
  | nil => cases h
  | append_singleton calls call ih =>
    rw [run_concat] at h ⊢
    rw [history_concat]
    exact Tracks.concat (t := ⟨_, call⟩) ih (Turn.effect _ (installed_run initial calls)) h

/-! ## Calls that show nothing new -/

/-- A call that is neither a mount nor a patch does not render. -/
theorem rendering_of_not_isUpdate {t : Turn} (h : t.call.isUpdate = false) : t.rendering = none := by
  obtain ⟨c, call⟩ := t
  cases call with
  | watch | unmount => rfl
  | mount | setState => cases h

/-- A call that is neither a mount nor a patch does not mount a component. -/
theorem mounted_of_not_isUpdate {c : Component} {call : Call} (h : call.isUpdate = false)
    (hmounted : (c.perform call).component.mounted = true) : c.mounted = true := by
  cases call with
  | watch => exact hmounted
  | unmount =>
    by_contra hnot
    rw [perform, unmount_of_not_mounted c (Bool.eq_false_iff.2 hnot)] at hmounted
    exact hnot hmounted
  | mount | setState => cases h

/-- Such calls leave it to the calls before them what the latest rendering was, and whether the
component is mounted. -/
theorem of_not_isUpdate {c : Component} {later : List Call} (h : ∀ a ∈ later, a.isUpdate = false)
    (calls : List Call) :
    lastRendering (c.history (calls ++ later)) = lastRendering (c.history calls) ∧
      ((c.run (calls ++ later)).mounted = true → (c.run calls).mounted = true) := by
  induction later using List.reverseRecOn with
  | nil => simp
  | append_singleton later call ih =>
    obtain ⟨hlater, hcall⟩ := List.forall_mem_append.1 h
    have hcall := List.forall_mem_singleton.1 hcall
    obtain ⟨hlatest, hmounted⟩ := ih hlater
    rw [← List.append_assoc, history_concat, lastRendering_concat, run_concat,
      rendering_of_not_isUpdate (t := ⟨_, call⟩) hcall]
    exact ⟨hlatest, fun h => hmounted (mounted_of_not_isUpdate hcall h)⟩

/-! ## After an update that succeeds -/

/-- Calls behind an update that show nothing new leave the latest rendering to the update, or, if it
has not rendered, to the calls before it; and they do not mount what it has not mounted. -/
theorem of_update (earlier : List Call) {later : List Call} (call : Call)
    (hlater : ∀ a ∈ later, a.isUpdate = false) :
    lastRendering ((new initial).history (earlier ++ call :: later)) =
        (Turn.rendering ⟨(new initial).run earlier, call⟩).or
          (lastRendering ((new initial).history earlier)) ∧
      (((new initial).run (earlier ++ call :: later)).mounted = true →
        (((new initial).run earlier).perform call).component.mounted = true) := by
  have h := of_not_isUpdate (c := new initial) hlater (earlier ++ [call])
  rwa [List.append_assoc, List.singleton_append, history_concat, lastRendering_concat,
    run_concat] at h

/-- A mount or a patch that succeeds and leaves the component mounted has rendered with success,
unless it is a patch that changes nothing. -/
theorem Turn.rendering_of_ok {t : Turn} (hinstalled : t.before.mounted = t.before.template.isSome)
    (hupdate : t.call.isUpdate = true) (hok : t.outcome.result = .ok ())
    (hmounted : t.after.mounted = true) :
    (∃ text, t.rendering = some (.ok text)) ∨
      t.rendering = none ∧ ∃ patch, t.call = .setState patch ∧
        Store.diff t.before.store.state patch = [] := by
  cases t.effect hinstalled with
  | rests store _ hafter hrendering =>
    have hbefore : t.before.mounted = true := by simpa [hafter] using hmounted
    obtain ⟨c, call⟩ := t
    cases call with
    | mount engine source session =>
      rcases hcreate : engine.createTemplate source session with ⟨_ | template, after⟩
      · simp [Turn.outcome, perform, mount, hcreate] at hok
      · simp [Turn.rendering, Turn.compiled, hcreate, Except.toOption] at hrendering
    | setState patch =>
      have hbefore : c.mounted = true := hbefore
      obtain ⟨template, htemplate⟩ : ∃ template, c.template = some template :=
        Option.isSome_iff_exists.1 (hinstalled ▸ hbefore)
      refine .inr ⟨hrendering, patch, rfl, ?_⟩
      simpa [Turn.rendering, Turn.changes, htemplate, hbefore] using hrendering
    | watch | unmount => cases hupdate
  | shows _ _ text _ _ hrendering => exact .inl ⟨text, hrendering⟩
  | fails _ _ e _ hresult => cases hok.symm.trans hresult
  | ends hafter =>
    rw [hafter] at hmounted
    cases hmounted

/-- The call is a patch that changes nothing, and the latest rendering before it has failed with the
error. -/
structure IdleAfterFailure (earlier : List Call) (call : Call) (e : RenderError) : Prop where
  idle : ∃ patch, call = .setState patch ∧
    Store.diff ((new initial).run earlier).store.state patch = []
  failed : lastRendering ((new initial).history earlier) = some (.error e)

/-- A patch that changes nothing does nothing at all: it succeeds, nobody is told anything, and the
component stays as it was. -/
theorem perform_setState_idle {c : Component} {patch : Data}
    (h : Store.diff c.store.state patch = []) : c.perform (.setState patch) = ⟨.ok (), [], c⟩ := by
  have hhidden : (c.mounted && !(Store.diff c.store.state patch).isEmpty) = false := by
    rw [h]
    exact Bool.and_false _
  rw [perform, setState_hidden hhidden, Store.overlay_of_diff_eq_nil h]
  rfl

/-- Such a patch does not render. -/
theorem rendering_setState_idle {c : Component} {patch : Data}
    (h : Store.diff c.store.state patch = []) : Turn.rendering ⟨c, .setState patch⟩ = none := by
  simp [Turn.rendering, Turn.changes, h]

/-- Whenever a component is mounted and its latest mount or patch has succeeded, its template renders
with its state, and what it gives is shown, unless that was a patch that changed nothing after a
rendering that had failed. Such a patch does nothing, so it does not render either, and the template
still fails with its state in the same way. -/
theorem shows_state_or_unchanged (earlier later : List Call) (call : Call)
    (hupdate : call.isUpdate = true) (hlater : ∀ a ∈ later, a.isUpdate = false)
    (hok : (((new initial).run earlier).perform call).result = .ok ())
    (hmounted : ((new initial).run (earlier ++ call :: later)).mounted = true) :
    let before := (new initial).run earlier
    let c := (new initial).run (earlier ++ call :: later)
    ∃ template, c.template = some template ∧
      ((¬∃ e, IdleAfterFailure initial earlier call e) →
        template.render c.store.state = .ok c.content) ∧
      ∀ e, IdleAfterFailure initial earlier call e →
        before.perform call = ⟨.ok (), [], before⟩ ∧
          Turn.rendering ⟨before, call⟩ = none ∧
          template.render c.store.state = .error e := by
  intro before c
  obtain ⟨template, htracks⟩ := tracks_run initial _ hmounted
  obtain ⟨hlatest, hafter⟩ := of_update initial earlier call hlater
  rw [htracks.latest] at hlatest
  refine ⟨template, htracks.installed, fun hnot => ?_, ?_⟩
  · have hcases := Turn.rendering_of_ok (t := ⟨before, call⟩) (installed_run initial earlier) hupdate
      hok (hafter hmounted)
    obtain ⟨text, houtput⟩ : ∃ text, template.render c.store.state = .ok text := by
      rcases hcases with ⟨text, hrendering⟩ | ⟨hrendering, hidle⟩
      · rw [hrendering] at hlatest
        exact ⟨text, Option.some.inj hlatest⟩
      · rw [hrendering, Option.none_or] at hlatest
        cases houtput : template.render c.store.state with
        | ok text => exact ⟨text, rfl⟩
        | error e => exact absurd ⟨e, hidle, houtput ▸ hlatest.symm⟩ hnot
    exact htracks.content text houtput ▸ houtput
  · rintro e ⟨⟨patch, rfl, hdiff⟩, hfailed⟩
    have hrendering : Turn.rendering ⟨before, .setState patch⟩ = none :=
      rendering_setState_idle hdiff
    rw [hrendering, Option.none_or, hfailed] at hlatest
    exact ⟨perform_setState_idle hdiff, hrendering, Option.some.inj hlatest⟩

/-! ## A counter that falls behind -/

namespace Counter

/-- A source with a placeholder. -/
def source : String := "@\x7bcount\x7d"

/-- The state at first. -/
def zero : Data := KeyMap.ofList [("count", .number (.integer 0 (by decide)))]

/-- Another count. -/
def one : Data := KeyMap.ofList [("count", .number (.integer 1 (by decide)))]

/-- No count, which the source does not render with. -/
def nothing : Data := KeyMap.ofList [("count", .null)]

/-- The default engine. -/
def engine : Engine := (Engine.makeDefault {}).1

/-- The template of the source. -/
def template : Template :=
  ⟨0, .mk (KeySet.ofList ["count"]) [.place "count" none], true, KeySet.ofList ["count"], source,
    engine.escaper⟩

/-- The default engine compiles the source. -/
theorem createTemplate_source : (engine.createTemplate source {}).1 = .ok template := by
  have hscan : Node.scan source.toList = [.directive (.place "count".toList)] := by
    decide +kernel
  have hparse : Node.parse engine.config.maxDepth source = .ok [.placeholder "count" none] := by
    unfold Node.parse Node.parseChars
    rw [hscan]
    rfl
  show (engine.build source {}).1 = .ok template
  rw [Engine.build, Engine.parse, hparse]
  rfl

/-- The component that shows the source with the state at first. -/
def mounted : Component :=
  ⟨{ state := zero }, some template, true, "0", 1⟩

/-- Mounting the source. -/
theorem run_mount : (new zero).run [.mount engine source {}] = mounted := by
  show ((new zero).mount engine source {}).1.component = mounted
  rw [mount]
  rcases hcreate : engine.createTemplate source {} with ⟨created, after⟩
  have hcreated := createTemplate_source
  rw [hcreate] at hcreated
  obtain rfl : created = .ok template := hcreated
  rfl

/-- More calls after the mount. -/
theorem run_mount_append (calls : List Call) :
    (new zero).run (.mount engine source {} :: calls) = mounted.run calls := by
  rw [← run_mount, ← run_append]
  rfl

/-- A patch that takes the count away fails, and repeating it succeeds without rendering: the count
from before stays shown, though the template does not render with the state any more. -/
theorem not_shows_state :
    let earlier := [.mount engine source {}, .setState nothing]
    let c := (new zero).run (earlier ++ [.setState nothing])
    (((new zero).run earlier).perform (.setState nothing)).result = .ok () ∧ c.mounted = true ∧
      ¬∃ template, c.template = some template ∧
        template.render c.store.state = .ok c.content := by
  intro earlier c
  have hc : c = mounted.run [.setState nothing, .setState nothing] := run_mount_append _
  have hearlier : (new zero).run earlier = mounted.run [.setState nothing] := run_mount_append _
  rw [hc, hearlier]
  refine ⟨rfl, rfl, ?_⟩
  rintro ⟨_, htemplate, houtput⟩
  cases htemplate
  cases houtput

/-- The count is taken away, which fails. -/
def failed : List Call := [.mount engine source {}, .setState nothing]

/-- The latest rendering has failed then for want of a count. -/
theorem lastRendering_failed :
    lastRendering ((new zero).history failed) = some (.error (.missingKey "count")) := by
  show lastRendering ((new zero).history ([.mount engine source {}] ++ [.setState nothing])) = _
  rw [history_concat, lastRendering_concat, run_mount]
  rfl

/-- After the failed patch a count is shown again by a patch that sets one, while the same patch once
more does nothing, and the template goes on to fail. -/
theorem shows_state_or_unchanged_counter :
    let before := (new zero).run failed
    let c := (new zero).run (failed ++ .setState one :: [.watch "count" "log"])
    let d := (new zero).run (failed ++ .setState nothing :: [])
    (Call.isUpdate (.setState one) = true ∧
      (∀ a ∈ [Call.watch "count" "log"], a.isUpdate = false) ∧
      (before.perform (.setState one)).result = .ok () ∧ c.mounted = true ∧
      ∃ template, c.template = some template ∧ template.render c.store.state = .ok c.content) ∧
    Call.isUpdate (.setState nothing) = true ∧
      (before.perform (.setState nothing)).result = .ok () ∧ d.mounted = true ∧
      IdleAfterFailure zero failed (.setState nothing) (.missingKey "count") ∧
      before.perform (.setState nothing) = ⟨.ok (), [], before⟩ ∧
      ∃ template, d.template = some template ∧
        template.render d.store.state = .error (.missingKey "count") := by
  intro before c d
  have hbefore : before = mounted.run [.setState nothing] := run_mount_append _
  have hc : c = mounted.run [.setState nothing, .setState one, .watch "count" "log"] :=
    run_mount_append _
  have hd : d = mounted.run [.setState nothing, .setState nothing] := run_mount_append _
  refine ⟨?_, ?_⟩
  · have hlater : ∀ a ∈ [Call.watch "count" "log"], a.isUpdate = false := by simp [Call.isUpdate]
    have hok : (before.perform (.setState one)).result = .ok () := by
      rw [hbefore]
      rfl
    have hmounted : c.mounted = true := by
      rw [hc]
      rfl
    have hnot : ¬∃ e, IdleAfterFailure zero failed (.setState one) e := by
      rintro ⟨e, ⟨patch, hpatch, hdiff⟩, -⟩
      cases hpatch
      have hdiff : Store.diff before.store.state one = [] := hdiff
      rw [hbefore] at hdiff
      cases hdiff
    obtain ⟨template, htemplate, hshows, -⟩ :=
      shows_state_or_unchanged zero failed [.watch "count" "log"] (.setState one) rfl hlater hok
        hmounted
    exact ⟨rfl, hlater, hok, hmounted, template, htemplate, hshows hnot⟩
  · have hok : (before.perform (.setState nothing)).result = .ok () := by
      rw [hbefore]
      rfl
    have hmounted : d.mounted = true := by
      rw [hd]
      rfl
    have hidle : IdleAfterFailure zero failed (.setState nothing) (.missingKey "count") := by
      refine ⟨⟨nothing, rfl, ?_⟩, lastRendering_failed⟩
      show Store.diff before.store.state nothing = []
      rw [hbefore]
      rfl
    obtain ⟨template, htemplate, -, hfails⟩ :=
      shows_state_or_unchanged zero failed [] (.setState nothing) rfl
        (fun _ h => absurd h List.not_mem_nil) hok hmounted
    obtain ⟨hperform, -, hrender⟩ := hfails _ hidle
    exact ⟨rfl, hok, hmounted, hidle, hperform, template, htemplate, hrender⟩

end Counter

end Stencil.Component
