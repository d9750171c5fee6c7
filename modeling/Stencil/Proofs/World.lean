import Stencil.Proofs.Creating

/-!
# Worlds of engines

Engines and caches as a program uses them: engines are made, copied, changed and dropped, caches are
made and shared, and templates are asked for, in any order. Helpers are stored at addresses that the
program does not choose, and an address may be given again once nothing is stored there. Main
statement: whatever the calls were, a template in a cache is what some engine compiled for the key
that it stands under (`sound_of_reachable`).
-/

namespace Stencil

/-! ## Calls -/

/-- The engines and the caches, and what has been hashed for cache keys so far. -/
structure World where
  session : Session := {}
  engines : List Engine := []
  hashed : List (List UInt8) := []

/-- A call; engines go by their places in the list of engines. -/
inductive Call where
  /-- A cache is made, which may refuse one kind of request. -/
  | newCache (capacity : Nat) (refuses : Option CacheRequest)
  /-- An engine is made. Its own helpers are stored at the address. -/
  | newEngine (config : EngineConfig) (address : Nat)
  | cloneEngine (engine : Nat)
  | dropEngine (engine : Nat)
  | withHelpers (engine : Nat) (helpers : Escaper)
  /-- An engine gets a cache, if that exists. -/
  | withCache (engine : Nat) (cache : CacheId)
  | createTemplate (engine : Nat) (source : String)
  | render (engine : Nat) (source : String) (data : Data)
  | cacheContains (engine : Nat) (source : String)
  | clearCache (engine : Nat)

namespace World

/-- Something is done with an engine, if it exists. -/
def on (w : World) (engine : Nat) (f : Engine → World) : World :=
  match w.engines[engine]? with
  | none => w
  | some e => f e

/-- A cache key is made, if there is a cache to look in. -/
def hash (w : World) (e : Engine) (source : String) : World :=
  if e.cache.isSome then { w with hashed := hashedBytes e.fingerprint source :: w.hashed } else w

/-- The world after a call. -/
def step (w : World) : Call → World
  | .newCache capacity refuses =>
    match Cache.new capacity refuses with
    | .error _ => w
    | .ok c => { w with session := (w.session.addCache c).2 }
  | .newEngine config address =>
    match Engine.make config { w.session with nextEscaper := address } with
    | (.error _, s) => { w with session := s }
    | (.ok e, s) => { w with session := s, engines := w.engines ++ [e] }
  | .cloneEngine engine => w.on engine fun e => { w with engines := w.engines ++ [e] }
  | .dropEngine engine => { w with engines := w.engines.eraseIdx engine }
  | .withHelpers engine helpers =>
    w.on engine fun e => { w with engines := w.engines.set engine (e.withEscaper helpers) }
  | .withCache engine cache =>
    w.on engine fun e =>
      if cache < w.session.caches.length then
        { w with engines := w.engines.set engine (e.withCache cache) }
      else w
  | .createTemplate engine source =>
    w.on engine fun e =>
      { w.hash e source with session := (e.createTemplate source w.session).2 }
  | .render engine source data =>
    w.on engine fun e =>
      { w.hash e source with session := (e.render source data w.session).2 }
  | .cacheContains engine source => w.on engine fun e => w.hash e source
  | .clearCache engine =>
    w.on engine fun e => { w with session := (e.clearCache w.session).2 }

/-- The world after some calls. -/
def run (w : World) (calls : List Call) : World :=
  calls.foldl step w

/-- Some calls lead to the world. -/
def Reachable (w : World) : Prop :=
  ∃ calls, run {} calls = w

end World

/-! ## Cached templates -/

/-- Every template in a cache has a property, together with its key. -/
def Session.Every (P : String → Template → Prop) (s : Session) : Prop :=
  ∀ c ∈ s.caches, ∀ key t, (key, t) ∈ c.entries.entries → P key t

namespace Session.Every

variable {P : String → Template → Prop} {s : Session}

/-- Only the caches of a session matter. -/
theorem of_caches_eq {s' : Session} (h : s.Every P) (hcaches : s'.caches = s.caches) :
    s'.Every P := by
  unfold Session.Every
  rw [hcaches]
  exact h

/-- A template may come to the front of a cache if it has the property. -/
theorem putFront (h : s.Every P) {id : CacheId} {c : Cache} (hc : s.caches[id]? = some c)
    {key : String} {t : Template} (ht : P key t) : (s.putFront id c key t).Every P := by
  intro c' hc' key' t' hentry
  rcases List.mem_or_eq_of_mem_set hc' with hmem | rfl
  · exact h c' hmem key' t' hentry
  · rcases Lru.mem_of_mem_put hentry with heq | hmem
    · cases heq
      exact ht
    · exact h c (List.mem_of_getElem? hc) key' t' hmem

/-- A request for a template stores only what the engine compiles. -/
theorem createTemplate (h : s.Every P) {e : Engine} (hattached : e.Attached s) {source : String}
    (hbuild : ∀ t, (e.build source s).1 = .ok t → P (e.keyOf source) t) :
    (e.createTemplate source s).2.Every P := by
  rcases Engine.caches_createTemplate hattached source with
    hcaches | ⟨id, c, t, hc, horigin, _, hcaches⟩
  · exact h.of_caches_eq hcaches
  · refine (h.putFront hc ?_).of_caches_eq hcaches
    rcases horigin with hpeek | hb
    · exact h c (List.mem_of_getElem? hc) _ t (Lru.mem_of_peek? hpeek)
    · exact hbuild t hb

/-- A cache that is emptied holds nothing. -/
theorem clearCache (h : s.Every P) (e : Engine) : (e.clearCache s).2.Every P := by
  unfold Engine.clearCache Session.withCache
  split
  · exact h
  · split
    · exact h
    · next c hc =>
      intro c' hc' key t hentry
      rcases List.mem_or_eq_of_mem_set hc' with hmem | rfl
      · exact h c' hmem key t hentry
      · unfold Cache.clear at hentry
        split at hentry
        · exact h c (List.mem_of_getElem? hc) key t hentry
        · cases hentry

end Session.Every

/-! ## Sessions after other requests -/

/-- Emptying a cache keeps the caches in their places. -/
theorem Engine.length_caches_clearCache (e : Engine) (s : Session) :
    (e.clearCache s).2.caches.length = s.caches.length := by
  unfold Engine.clearCache Session.withCache
  split
  · rfl
  · split
    · rfl
    · exact List.length_set

/-- Rendering changes the session as the request for the template does. -/
theorem Engine.session_render (e : Engine) (source : String) (data : Data) (s : Session) :
    (e.render source data s).2 = (e.createTemplate source s).2 := by
  unfold Engine.render
  split
  · next h => rw [h]
  · next h => rw [h]

/-! ## What calls preserve -/

/-- Unless its helpers were replaced, an engine escapes as its settings say. -/
def Engine.Genuine (e : Engine) : Prop :=
  e.customEscaper = false → e.escaper.escape = e.config.escape.apply

/-- What may stand in a cache: a template that some engine compiled, under its key of the source,
for which bytes were hashed before. -/
def Compiled (hashed : List (List UInt8)) (key : String) (t : Template) : Prop :=
  ∃ (e : Engine) (source : String) (s : Session), e.Genuine ∧ key = e.keyOf source ∧
    hashedBytes e.fingerprint source ∈ hashed ∧ (e.build source s).1 = .ok t

/-- The engines are what they say, their caches exist, and hold what engines compiled. -/
structure World.Sound (w : World) : Prop where
  genuine : ∀ e ∈ w.engines, e.Genuine
  attached : ∀ e ∈ w.engines, e.Attached w.session
  compiled : w.session.Every (Compiled w.hashed)

/-- A cache that exists goes on to exist while there are no fewer. -/
theorem Engine.Attached.mono {e : Engine} {s s' : Session} (h : e.Attached s)
    (hlength : s.caches.length ≤ s'.caches.length) : e.Attached s' :=
  fun id hid => Nat.lt_of_lt_of_le (h id hid) hlength

/-- A new cache holds nothing. -/
theorem Session.Every.addCache {P : String → Template → Prop} {s : Session} (h : s.Every P)
    {capacity : Nat} {refuses : Option CacheRequest} {c : Cache}
    (hc : Cache.new capacity refuses = .ok c) : (s.addCache c).2.Every P := by
  unfold Cache.new at hc
  split at hc
  · cases hc
    intro c' hc' key t hentry
    rcases List.mem_append.1 hc' with hmem | hmem
    · exact h c' hmem key t hentry
    · rw [List.mem_singleton.1 hmem] at hentry
      cases hentry
  · cases hc

/-- An engine that is made has helpers and a cache of its own. -/
theorem Engine.make_spec {P : String → Template → Prop} (config : EngineConfig) {s : Session}
    (h : s.Every P) :
    (make config s).2.Every P ∧ s.caches.length ≤ (make config s).2.caches.length ∧
      ∀ e, (make config s).1 = .ok e → e.Genuine ∧ e.Attached (make config s).2 := by
  unfold make
  split
  · exact ⟨h, Nat.le_refl _, nofun⟩
  · split
    · refine ⟨h, Nat.le_refl _, ?_⟩
      rintro e he
      cases he
      exact ⟨fun _ => rfl, nofun⟩
    · split
      · exact ⟨h, Nat.le_refl _, nofun⟩
      · next c hc =>
        have hlength : (s.caches ++ [c]).length = s.caches.length + 1 := by simp
        refine ⟨h.addCache hc, ?_, ?_⟩
        · show s.caches.length ≤ (s.caches ++ [c]).length
          omega
        · rintro e he
          cases he
          refine ⟨fun _ => rfl, ?_⟩
          rintro id hid
          cases hid
          show s.caches.length < (s.caches ++ [c]).length
          omega

namespace World

variable {w : World}

/-- Hashing only adds to what has been hashed. -/
theorem sound_hash (h : w.Sound) (e : Engine) (source : String) : (w.hash e source).Sound := by
  unfold hash
  split
  · refine ⟨h.genuine, h.attached, ?_⟩
    intro c hc key t hentry
    obtain ⟨e', source', s, hgenuine, hkey, hmem, hbuild⟩ := h.compiled c hc key t hentry
    exact ⟨e', source', s, hgenuine, hkey, List.mem_cons_of_mem _ hmem, hbuild⟩
  · exact h

/-- Hashing leaves the session alone. -/
theorem session_hash (w : World) (e : Engine) (source : String) :
    (w.hash e source).session = w.session := by
  unfold hash
  split
  · rfl
  · rfl

namespace Sound

/-- The session may change as long as it keeps the caches and what is true of them. -/
theorem withSession (h : w.Sound) {s : Session}
    (hlength : w.session.caches.length ≤ s.caches.length) (hs : s.Every (Compiled w.hashed)) :
    World.Sound { w with session := s } :=
  ⟨h.genuine, fun e he => (h.attached e he).mono hlength, hs⟩

/-- The engines may change as long as they are what they say and their caches exist. -/
theorem withEngines (h : w.Sound) {engines : List Engine}
    (hengines : ∀ e ∈ engines, e.Genuine ∧ e.Attached w.session) :
    World.Sound { w with engines } :=
  ⟨fun e he => (hengines e he).1, fun e he => (hengines e he).2, h.compiled⟩

/-- One more engine. -/
theorem addEngine (h : w.Sound) {e : Engine} (he : e.Genuine) (hattached : e.Attached w.session) :
    World.Sound { w with engines := w.engines ++ [e] } := by
  apply h.withEngines
  intro e' he'
  rcases List.mem_append.1 he' with hmem | hmem
  · exact ⟨h.genuine e' hmem, h.attached e' hmem⟩
  · rw [List.mem_singleton.1 hmem]
    exact ⟨he, hattached⟩

/-- Another engine in the place of one. -/
theorem setEngine (h : w.Sound) (place : Nat) {e : Engine} (he : e.Genuine)
    (hattached : e.Attached w.session) :
    World.Sound { w with engines := w.engines.set place e } := by
  apply h.withEngines
  intro e' he'
  rcases List.mem_or_eq_of_mem_set he' with hmem | rfl
  · exact ⟨h.genuine e' hmem, h.attached e' hmem⟩
  · exact ⟨he, hattached⟩

/-- Whatever is done with an engine that exists. -/
theorem on (h : w.Sound) (engine : Nat) {f : Engine → World}
    (hf : ∀ e ∈ w.engines, (f e).Sound) : (w.on engine f).Sound := by
  unfold World.on
  split
  · exact h
  · next e he => exact hf e (List.mem_of_getElem? he)

/-- A template is asked for. -/
theorem createTemplate (h : w.Sound) {e : Engine} (he : e ∈ w.engines) (source : String) :
    World.Sound { w.hash e source with session := (e.createTemplate source w.session).2 } := by
  have hsession := session_hash w e source
  have hhash := sound_hash h e source
  have hattached := h.attached e he
  refine hhash.withSession ?_ ?_
  · rw [hsession]
    exact Nat.le_of_eq (Engine.length_caches_createTemplate hattached source).symm
  · have hevery := hhash.compiled
    rw [hsession] at hevery
    by_cases hid : e.cache.isSome
    · refine hevery.createTemplate hattached fun t ht => ?_
      refine ⟨e, source, w.session, h.genuine e he, rfl, ?_, ht⟩
      unfold hash
      rw [if_pos hid]
      exact List.mem_cons_self
    · have hcreate : e.createTemplate source w.session = e.build source w.session := by
        unfold Engine.createTemplate
        rw [Option.not_isSome_iff_eq_none.1 hid]
      rw [hcreate]
      exact hevery.of_caches_eq (e.caches_build source w.session)

end Sound

/-- **The invariant of a call.** Caches go on to hold what engines compiled. -/
theorem sound_step (h : w.Sound) (call : Call) : (w.step call).Sound := by
  cases call with
  | newCache capacity refuses =>
    rw [step]
    split
    · exact h
    · next c hc =>
      refine h.withSession ?_ (h.compiled.addCache hc)
      show w.session.caches.length ≤ (w.session.caches ++ [c]).length
      rw [List.length_append]
      exact Nat.le_add_right _ _
  | newEngine config address =>
    -- the address makes no difference to the caches
    have hs : Session.Every (Compiled w.hashed) { w.session with nextEscaper := address } :=
      h.compiled.of_caches_eq rfl
    obtain ⟨hevery, hlength, hmade⟩ := Engine.make_spec config hs
    rw [step]
    split
    · next s hmake =>
      rw [hmake] at hevery hlength
      exact h.withSession hlength hevery
    · next e s hmake =>
      rw [hmake] at hevery hlength hmade
      obtain ⟨hgenuine, hattached⟩ := hmade e rfl
      exact (h.withSession hlength hevery).addEngine hgenuine hattached
  | cloneEngine engine =>
    exact h.on engine fun e he => h.addEngine (h.genuine e he) (h.attached e he)
  | dropEngine engine =>
    refine h.withEngines fun e he => ?_
    have he := List.mem_of_mem_eraseIdx he
    exact ⟨h.genuine e he, h.attached e he⟩
  | withHelpers engine helpers =>
    -- nothing is said of replaced helpers, and the cache is given up
    exact h.on engine fun e _ => h.setEngine engine nofun nofun
  | withCache engine cache =>
    refine h.on engine fun e he => ?_
    split
    · next hcache =>
      refine h.setEngine engine (h.genuine e he) ?_
      rintro id hid
      cases hid
      exact hcache
    · exact h
  | createTemplate engine source => exact h.on engine fun e he => h.createTemplate he source
  | render engine source data =>
    refine h.on engine fun e he => ?_
    rw [Engine.session_render]
    exact h.createTemplate he source
  | cacheContains engine source => exact h.on engine fun e _ => sound_hash h e source
  | clearCache engine =>
    refine h.on engine fun e _ => h.withSession ?_ (h.compiled.clearCache e)
    exact Nat.le_of_eq (e.length_caches_clearCache w.session).symm

/-- Some calls preserve what each of them does. -/
theorem sound_run (h : w.Sound) (calls : List Call) : (w.run calls).Sound := by
  induction calls generalizing w with
  | nil => exact h
  | cons call calls ih => exact ih (sound_step h call)

/-- **Caches hold what engines compiled.** This is so after any calls. -/
theorem sound_of_reachable (h : w.Reachable) : w.Sound := by
  obtain ⟨calls, rfl⟩ := h
  have hstart : World.Sound {} := ⟨nofun, nofun, nofun⟩
  exact sound_run hstart calls

end World

end Stencil
