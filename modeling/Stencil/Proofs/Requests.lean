import Mathlib.Data.List.Nodup
import Stencil.Proofs.Transparency

/-!
# Requests to one engine

What an engine answers after any calls to it, with a cache that may be shared: whatever else uses
the cache may look up, evict and store as it likes, but not store under the keys of this engine.
Main statement: a request gives what the engine compiles from the source in some session, provided
that no two of the sources that it is asked for are hashed to one digest
(`exists_build_eq_createTemplate`).
-/

namespace Stencil

/-- Inputs with different digests are free of collisions. -/
theorem collisionFree_of_nodup {inputs : List (List UInt8)}
    (h : (inputs.map Digest.Sha256.digest).Nodup) : CollisionFree inputs := by
  intro a ha b hb hdigest
  exact List.inj_on_of_nodup_map h ha hb hdigest

namespace Engine

/-! ## Sessions of an engine -/

/-- The cache of the engine, if it has one, is there, refuses nothing and holds nothing under the
engine's keys of some sources. -/
def Unused (e : Engine) (sources : List String) (s : Session) : Prop :=
  ∀ id, e.cache = some id → ∃ c, s.caches[id]? = some c ∧ c.refuses = none ∧
    ∀ source ∈ sources, ∀ t, (e.keyOf source, t) ∉ c.entries.entries

/-- From one session to the next nothing has been stored under the engine's keys of some sources,
and the engine's cache is still there. -/
def Undisturbed (e : Engine) (sources : List String) (s s' : Session) : Prop :=
  ∀ id c, e.cache = some id → s.caches[id]? = some c →
    ∃ c', s'.caches[id]? = some c' ∧ c'.refuses = c.refuses ∧
      ∀ source ∈ sources, ∀ t, (e.keyOf source, t) ∈ c'.entries.entries →
        (e.keyOf source, t) ∈ c.entries.entries

/-- The session has come about by calls to the engine, which was asked for some of the sources, and
by whatever else does not store under its keys of them. -/
inductive Reaches (e : Engine) (sources : List String) : Session → Prop where
  | start {s : Session} (h : e.Unused sources s) : Reaches e sources s
  | create {s : Session} (hs : Reaches e sources s) {source : String} (h : source ∈ sources) :
    Reaches e sources (e.createTemplate source s).2
  | render {s : Session} (hs : Reaches e sources s) {source : String} (h : source ∈ sources)
    (data : Data) : Reaches e sources (e.render source data s).2
  | clear {s : Session} (hs : Reaches e sources s) : Reaches e sources (e.clearCache s).2
  | elsewhere {s s' : Session} (hs : Reaches e sources s) (h : e.Undisturbed sources s s') :
    Reaches e sources s'

/-- No two of the texts that the engine hashes for some sources have the same digest. -/
def KeepsApart (e : Engine) (sources : List String) : Prop :=
  e.cache.isSome = true → CollisionFree (sources.map (hashedBytes e.fingerprint))

variable {e : Engine} {sources : List String} {s : Session}

/-- Sources that are kept apart have different keys. -/
theorem KeepsApart.eq_of_keyOf_eq (h : e.KeepsApart sources) {id : CacheId}
    (hid : e.cache = some id) {source source' : String} (hsource : source ∈ sources)
    (hsource' : source' ∈ sources) (hkey : e.keyOf source = e.keyOf source') :
    source = source' := by
  have hfree := h (Option.isSome_iff_exists.2 ⟨id, hid⟩)
  have hbytes := hfree _ (List.mem_map_of_mem hsource) _ (List.mem_map_of_mem hsource')
    (digest_eq_of_cacheKey_eq hkey)
  exact (hashedBytes_inj e.nul_notMem_fingerprint e.nul_notMem_fingerprint hbytes).2

/-- An engine without a cache has used none. -/
theorem unused_of_cache_eq_none (h : e.cache = none) (sources : List String) (s : Session) :
    e.Unused sources s := by
  intro id hid
  rw [h] at hid
  cases hid

/-- An engine that has just been made has not used its cache. -/
theorem unused_make {config : EngineConfig} {s' : Session} (h : make config s = (.ok e, s'))
    (sources : List String) : e.Unused sources s' := by
  unfold make at h
  split at h
  · cases h
  · split at h
    · cases h
      exact unused_of_cache_eq_none rfl _ _
    · split at h
      · cases h
      · next c hc =>
        cases h
        rintro id hid
        cases hid
        unfold Cache.new at hc
        split at hc
        · cases hc
          refine ⟨_, List.getElem?_concat_length, rfl, fun source _ t ht => ?_⟩
          cases ht
        · cases hc

/-! ## The cache of an engine -/

/-- The cache refuses nothing, and under the engine's keys of some sources it holds only what the
engine compiles from them. -/
structure Serves (e : Engine) (sources : List String) (c : Cache) : Prop where
  willing : c.refuses = none
  compiled : ∀ source ∈ sources, ∀ t, (e.keyOf source, t) ∈ c.entries.entries →
    ∃ s, (e.build source s).1 = .ok t

/-- What the engine compiles may be stored under the key of its source. -/
theorem Serves.put {c : Cache} (h : e.Serves sources c) (hapart : e.KeepsApart sources)
    {id : CacheId} (hid : e.cache = some id) {source : String} (hsource : source ∈ sources)
    {t : Template} (ht : ∃ s, (e.build source s).1 = .ok t) :
    e.Serves sources { c with entries := c.entries.put (e.keyOf source) t } where
  willing := h.willing
  compiled := by
    intro source' hsource' u hu
    rcases Lru.mem_of_mem_put hu with heq | hmem
    · obtain ⟨hkey, rfl⟩ := Prod.mk.inj heq
      obtain rfl := hapart.eq_of_keyOf_eq hid hsource' hsource hkey
      exact ht
    · exact h.compiled source' hsource' u hmem

/-- A cache may be emptied. -/
theorem Serves.clear {c : Cache} (h : e.Serves sources c) : e.Serves sources c.clear.2 := by
  unfold Cache.clear
  split
  · exact h
  · refine ⟨h.willing, fun source _ t ht => ?_⟩
    cases ht

/-- The cache of the engine, if it has one, is there and serves the engine. -/
def Served (e : Engine) (sources : List String) (s : Session) : Prop :=
  ∀ id, e.cache = some id → ∃ c, s.caches[id]? = some c ∧ e.Serves sources c

namespace Served

/-- The cache is there. -/
theorem attached (h : e.Served sources s) : e.Attached s := by
  intro id hid
  obtain ⟨c, hc, _⟩ := h id hid
  exact (List.getElem?_eq_some_iff.1 hc).1

/-- The cache that is there serves the engine. -/
theorem serves (h : e.Served sources s) {id : CacheId} (hid : e.cache = some id) {c : Cache}
    (hc : s.caches[id]? = some c) : e.Serves sources c := by
  obtain ⟨c', hc', hserves⟩ := h id hid
  obtain rfl := Option.some.inj (hc.symm.trans hc')
  exact hserves

/-- Nothing but the caches matters. -/
theorem of_caches_eq (h : e.Served sources s) {s' : Session} (hcaches : s'.caches = s.caches) :
    e.Served sources s' := by
  intro id hid
  rw [hcaches]
  exact h id hid

/-- A cache serves its engine as before if nothing is stored under the engine's keys. -/
theorem of_undisturbed (h : e.Served sources s) {s' : Session}
    (hundisturbed : e.Undisturbed sources s s') : e.Served sources s' := by
  intro id hid
  obtain ⟨c, hc, hserves⟩ := h id hid
  obtain ⟨c', hc', hwilling, hentries⟩ := hundisturbed id c hid hc
  refine ⟨c', hc', hwilling.trans hserves.willing, fun source hsource t ht => ?_⟩
  exact hserves.compiled source hsource t (hentries source hsource t ht)

/-- A request stores what the engine compiles, if anything. -/
theorem createTemplate (h : e.Served sources s) (hapart : e.KeepsApart sources) {source : String}
    (hsource : source ∈ sources) : e.Served sources (e.createTemplate source s).2 := by
  rcases caches_createTemplate h.attached source with hcaches | ⟨id, c, t, hc, horigin, _, hcaches⟩
  · exact h.of_caches_eq hcaches
  · intro id' hid'
    rw [hcaches, Session.putFront]
    by_cases heq : id = id'
    · subst heq
      have hserves := h.serves hid' hc
      refine ⟨_, List.getElem?_set_self (h.attached id hid'), hserves.put hapart hid' hsource ?_⟩
      rcases horigin with hpeek | hbuild
      · exact hserves.compiled source hsource t (Lru.mem_of_peek? hpeek)
      · exact ⟨s, hbuild⟩
    · rw [List.getElem?_set_ne heq]
      exact h id' hid'

/-- A cache goes on to serve its engine when it is emptied. -/
theorem clearCache (h : e.Served sources s) : e.Served sources (e.clearCache s).2 := by
  intro id hid
  obtain ⟨c, hc, hserves⟩ := h id hid
  refine ⟨c.clear.2, ?_, hserves.clear⟩
  unfold Engine.clearCache
  simp only [hid]
  rw [Session.withCache_eq hc]
  exact List.getElem?_set_self (h.attached id hid)

end Served

/-- **The cache always serves its engine.** This is so in every session that calls to the engine
lead to. -/
theorem Reaches.served (h : e.Reaches sources s) (hapart : e.KeepsApart sources) :
    e.Served sources s := by
  induction h with
  | start h =>
    intro id hid
    obtain ⟨c, hc, hwilling, hnone⟩ := h id hid
    exact ⟨c, hc, hwilling, fun source hsource t ht => absurd ht (hnone source hsource t)⟩
  | create _ hsource ih => exact ih.createTemplate hapart hsource
  | render _ hsource data ih =>
    rw [session_render]
    exact ih.createTemplate hapart hsource
  | clear _ ih => exact ih.clearCache
  | elsewhere _ hundisturbed ih => exact ih.of_undisturbed hundisturbed

/-! ## Requests -/

/-- **A request gives what compiling gives.** Whatever the engine was asked for before, it answers
with what it compiles from the source in some session, now or earlier. -/
theorem exists_build_eq_createTemplate (h : e.Reaches sources s) (hapart : e.KeepsApart sources)
    {source : String} (hsource : source ∈ sources) :
    ∃ s', (e.createTemplate source s).1 = (e.build source s').1 := by
  have hserved := h.served hapart
  have hcases := createTemplate_created hserved.attached source
  generalize e.createTemplate source s = outcome at hcases
  cases hcases with
  | fresh => exact ⟨s, rfl⟩
  | refusedGet hid hc hget =>
    rw [(hserved.serves hid hc).willing] at hget
    cases hget
  | found hid hc hget hpeek =>
    obtain ⟨s', hbuild⟩ :=
      (hserved.serves hid hc).compiled source hsource _ (Lru.mem_of_peek? hpeek)
    exact ⟨s', hbuild.symm⟩
  | failed hid hbuild => exact ⟨s, by rw [hbuild]⟩
  | refusedSet hid hc hset hbuild =>
    rw [(hserved.serves hid hc).willing] at hset
    cases hset
  | stored hid hc hget hbuild => exact ⟨s, by rw [hbuild]⟩

/-! ## Other engines -/

/-- An engine with other settings may share the cache: what it is asked for is not stored under the
keys of this one, if no two of the hashed texts have the same digest. -/
theorem Reaches.createTemplate_other (h : e.Reaches sources s) (hapart : e.KeepsApart sources)
    {other : Engine} (hattached : other.Attached s) (hsettings : other.fingerprint ≠ e.fingerprint)
    {source : String}
    (hdigest : CollisionFree (hashedBytes other.fingerprint source ::
      sources.map (hashedBytes e.fingerprint))) :
    e.Reaches sources (other.createTemplate source s).2 := by
  refine h.elsewhere fun id c hid hc => ?_
  rcases caches_createTemplate hattached source with
    hcaches | ⟨id', c', t, hc', _, _, hcaches⟩
  · exact ⟨c, by rw [hcaches, hc], rfl, fun _ _ _ ht => ht⟩
  · rw [hcaches, Session.putFront]
    by_cases heq : id' = id
    · subst heq
      obtain rfl := Option.some.inj (hc.symm.trans hc')
      refine ⟨_, List.getElem?_set_self ((h.served hapart).attached _ hid), rfl, ?_⟩
      intro source' hsource' u hu
      rcases Lru.mem_of_mem_put hu with hput | hmem
      · -- the keys would come from equal bytes, and these from equal settings
        obtain ⟨hkey, _⟩ := Prod.mk.inj hput
        have hbytes := hdigest _ (List.mem_cons_of_mem _ (List.mem_map_of_mem hsource')) _
          List.mem_cons_self (digest_eq_of_cacheKey_eq hkey)
        have hfingerprint :=
          (hashedBytes_inj e.nul_notMem_fingerprint other.nul_notMem_fingerprint hbytes).1
        exact absurd hfingerprint.symm hsettings
      · exact hmem
    · exact ⟨c, by rw [List.getElem?_set_ne heq, hc], rfl, fun _ _ _ ht => ht⟩

end Engine

end Stencil
