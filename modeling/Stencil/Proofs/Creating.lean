import Stencil.Engine

/-!
# Creating templates

What can come of a request for a template, with all that it does to the session: an engine without
a cache compiles the source; with a cache, the template is read from there, or it is compiled and
stored, or the request fails. Main statements: these are all cases (`createTemplate_created`), a
template that has been created is found again (`createTemplate_again`), and a request that fails
leaves the caches as they were (`caches_of_createTemplate_error`).
-/

namespace Stencil

/-! ## Requests to a cache -/

namespace Session

/-- A request goes to the cache of its number. -/
theorem withCache_eq {α : Type} {s : Session} {id : CacheId} {c : Cache}
    (h : s.caches[id]? = some c) (missing : α) (request : Cache → Except Error α × Cache) :
    s.withCache id missing request =
      ((request c).1, { s with caches := s.caches.set id (request c).2 }) := by
  rw [withCache, h]

/-- The session in which a template is the one used last of a cache. -/
def putFront (s : Session) (id : CacheId) (c : Cache) (key : String) (t : Template) : Session :=
  { s with caches := s.caches.set id { c with entries := c.entries.put key t } }

/-- The cache that has been changed. -/
theorem getElem?_putFront {s : Session} {id : CacheId} (h : id < s.caches.length) (c : Cache)
    (key : String) (t : Template) :
    (s.putFront id c key t).caches[id]? = some { c with entries := c.entries.put key t } :=
  List.getElem?_set_self h

/-- Nothing changes when a cache is put in its own place. -/
theorem set_caches_self {s : Session} {id : CacheId} {c : Cache} (h : s.caches[id]? = some c) :
    { s with caches := s.caches.set id c } = s := by
  obtain ⟨hid, hc⟩ := List.getElem?_eq_some_iff.1 h
  rw [← hc, List.set_getElem_self]

end Session

namespace Engine

/-! ## Compilations -/

/-- Compiling does not touch the caches. -/
theorem caches_build (e : Engine) (source : String) (s : Session) :
    (e.build source s).2.caches = s.caches := by
  unfold build compileNodes
  split
  · rfl
  · split
    · rfl
    · rfl

/-- A compilation carries the escaper of its engine. -/
theorem escaper_of_build {e : Engine} {source : String} {s : Session} {t : Template}
    (h : (e.build source s).1 = .ok t) : t.escaper = e.escaper := by
  unfold build compileNodes at h
  split at h
  · cases h
  · split at h
    · cases h
    · cases h
      rfl

/-! ## Requests for a template -/

/-- The cache of the engine is one of the session. -/
def Attached (e : Engine) (s : Session) : Prop :=
  ∀ id, e.cache = some id → id < s.caches.length

/-- What can come of a request for a template, and the session after it. -/
inductive Created (e : Engine) (source : String) (s : Session) :
    Except Error Template × Session → Prop where
  /-- There is no cache, and the source is compiled. -/
  | fresh (hid : e.cache = none) : Created e source s (e.build source s)
  /-- The cache refuses to be read. -/
  | refusedGet {id : CacheId} {c : Cache} (hid : e.cache = some id)
    (hc : s.caches[id]? = some c) (hget : c.refuses = some .get) :
    Created e source s (.error (.cache .get), s)
  /-- The template is in the cache. -/
  | found {id : CacheId} {c : Cache} {t : Template} (hid : e.cache = some id)
    (hc : s.caches[id]? = some c) (hget : c.refuses ≠ some .get)
    (hpeek : c.entries.peek? (e.keyOf source) = some t) :
    Created e source s
      (.ok t, s.putFront id c (e.keyOf source) t)
  /-- The source does not compile. -/
  | failed {id : CacheId} {err : Error} {s' : Session} (hid : e.cache = some id)
    (hbuild : e.build source s = (.error err, s')) : Created e source s (.error err, s')
  /-- The cache refuses to store the template. -/
  | refusedSet {id : CacheId} {c : Cache} {t : Template} {s' : Session} (hid : e.cache = some id)
    (hc : s.caches[id]? = some c) (hset : c.refuses = some .set)
    (hbuild : e.build source s = (.ok t, s')) : Created e source s (.error (.cache .set), s')
  /-- The template is new, and stored. -/
  | stored {id : CacheId} {c : Cache} {t : Template} {s' : Session} (hid : e.cache = some id)
    (hc : s.caches[id]? = some c) (hget : c.refuses ≠ some .get)
    (hbuild : e.build source s = (.ok t, s')) :
    Created e source s
      (.ok t, s'.putFront id c (e.keyOf source) t)

/-- A template that is not in the cache is not found there, and nothing changes. -/
theorem withCache_get_of_miss {s : Session} {id : CacheId} {c : Cache} {key : String}
    (hc : s.caches[id]? = some c) (hget : c.refuses ≠ some .get)
    (hpeek : c.entries.peek? key = none) : s.withCache id none (·.get key) = (.ok none, s) := by
  rw [Session.withCache_eq hc, Cache.get, if_neg hget, Lru.get, hpeek, Session.set_caches_self hc]

/-- A template in the cache is found. -/
theorem createTemplate_found {e : Engine} {source : String} {s : Session} {id : CacheId}
    {c : Cache} {t : Template} (hid : e.cache = some id) (hc : s.caches[id]? = some c)
    (hget : c.refuses ≠ some .get) (hpeek : c.entries.peek? (e.keyOf source) = some t) :
    e.createTemplate source s =
      (.ok t, s.putFront id c (e.keyOf source) t) := by
  unfold createTemplate
  simp only [hid]
  rw [Session.withCache_eq hc, Cache.get, if_neg hget, Lru.get, hpeek]
  rfl

/-- A template that is not in the cache is compiled and stored. -/
theorem createTemplate_stored {e : Engine} {source : String} {s s' : Session} {id : CacheId}
    {c : Cache} {t : Template} (hid : e.cache = some id) (hc : s.caches[id]? = some c)
    (hget : c.refuses ≠ some .get) (hset : c.refuses ≠ some .set)
    (hpeek : c.entries.peek? (e.keyOf source) = none) (hbuild : e.build source s = (.ok t, s')) :
    e.createTemplate source s = (.ok t, s'.putFront id c (e.keyOf source) t) := by
  have hc' : s'.caches[id]? = some c := by
    rw [← hc, ← caches_build e source s, hbuild]
  unfold createTemplate
  simp only [hid, withCache_get_of_miss hc hget hpeek, hbuild]
  rw [Session.withCache_eq hc', Cache.set, if_neg hset]
  rfl

/-- **The cases of a request.** A request of an engine whose cache exists has one of these
outcomes. -/
theorem createTemplate_created {e : Engine} {s : Session} (h : e.Attached s) (source : String) :
    Created e source s (e.createTemplate source s) := by
  cases hid : e.cache with
  | none =>
    have hcreate : e.createTemplate source s = e.build source s := by
      unfold createTemplate
      rw [hid]
    rw [hcreate]
    exact Created.fresh hid
  | some id =>
    obtain ⟨c, hc⟩ : ∃ c, s.caches[id]? = some c := ⟨_, List.getElem?_eq_getElem (h id hid)⟩
    by_cases hget : c.refuses = some .get
    · have hcreate : e.createTemplate source s = (.error (.cache .get), s) := by
        unfold createTemplate
        simp only [hid]
        rw [Session.withCache_eq hc, Cache.get, if_pos hget, Session.set_caches_self hc]
      rw [hcreate]
      exact Created.refusedGet hid hc hget
    cases hpeek : c.entries.peek? (e.keyOf source) with
    | some t =>
      rw [createTemplate_found hid hc hget hpeek]
      exact Created.found hid hc hget hpeek
    | none =>
      -- a miss changes nothing, so compiling starts from the same session
      have hmiss := withCache_get_of_miss hc hget hpeek
      have hcaches := caches_build e source s
      generalize hbuild : e.build source s = built at hcaches
      obtain ⟨result, s'⟩ := built
      cases result with
      | error err =>
        have hcreate : e.createTemplate source s = (.error err, s') := by
          unfold createTemplate
          simp only [hid, hmiss, hbuild]
        rw [hcreate]
        exact Created.failed hid hbuild
      | ok t =>
        by_cases hset : c.refuses = some .set
        · have hc' : s'.caches[id]? = some c := by
            rw [← hc, ← hcaches]
          have hcreate : e.createTemplate source s = (.error (.cache .set), s') := by
            unfold createTemplate
            simp only [hid, hmiss, hbuild]
            rw [Session.withCache_eq hc', Cache.set, if_pos hset, Session.set_caches_self hc']
          rw [hcreate]
          exact Created.refusedSet hid hc hset hbuild
        · rw [createTemplate_stored hid hc hget hset hpeek hbuild]
          exact Created.stored hid hc hget hbuild

/-! ## What a request leaves behind -/

/-- **Created once, found again.** A template that a request to a cache has given is held there,
and the next request gives the same one. -/
theorem createTemplate_again {e : Engine} {source : String} {s s' : Session} {id : CacheId}
    {t : Template} (hid : e.cache = some id) (hattached : e.Attached s)
    (hcreate : e.createTemplate source s = (.ok t, s')) :
    e.cacheContains source s' = true ∧ (e.createTemplate source s').1 = .ok t := by
  -- either way the template is at the front of the cache, which can be read
  have hheld : ∃ c, s'.caches[id]? = some c ∧ c.refuses ≠ some .get ∧
      c.entries.peek? (e.keyOf source) = some t := by
    have hcases := createTemplate_created hattached source
    have hcaches := caches_build e source s
    rw [hcreate] at hcases
    generalize houtcome : ((.ok t, s') : Except Error Template × Session) = outcome at hcases
    cases hcases with
    | fresh hid' =>
      rw [hid] at hid'
      cases hid'
    | refusedGet => cases houtcome
    | found hid' hc hget hpeek =>
      rw [hid] at hid'
      cases hid'
      cases houtcome
      exact ⟨_, Session.getElem?_putFront (hattached id hid) _ _ _, hget, Lru.peek?_put_self _ _ _⟩
    | failed => cases houtcome
    | refusedSet => cases houtcome
    | stored hid' hc hget hbuild =>
      rw [hid] at hid'
      cases hid'
      cases houtcome
      rw [hbuild] at hcaches
      have hlt : id < _ := hcaches ▸ hattached id hid
      exact ⟨_, Session.getElem?_putFront hlt _ _ _, hget, Lru.peek?_put_self _ _ _⟩
  obtain ⟨c, hc, hget, hpeek⟩ := hheld
  constructor
  · unfold cacheContains Session.cacheContains
    simp only [hid, hc]
    rw [Cache.contains, Lru.contains, hpeek]
    rfl
  · rw [createTemplate_found hid hc hget hpeek]

/-- A request either leaves the caches as they are, or it gives a template, found in the cache or
compiled, that comes to the front there. -/
theorem caches_createTemplate {e : Engine} {s : Session} (h : e.Attached s) (source : String) :
    (e.createTemplate source s).2.caches = s.caches ∨
      ∃ id c t, s.caches[id]? = some c ∧
        (c.entries.peek? (e.keyOf source) = some t ∨ (e.build source s).1 = .ok t) ∧
        (e.createTemplate source s).1 = .ok t ∧
        (e.createTemplate source s).2.caches = (s.putFront id c (e.keyOf source) t).caches := by
  have hcases := createTemplate_created h source
  have hcaches := caches_build e source s
  generalize e.createTemplate source s = outcome at hcases
  cases hcases with
  | fresh => exact Or.inl hcaches
  | refusedGet => exact Or.inl rfl
  | found hid hc hget hpeek => exact Or.inr ⟨_, _, _, hc, Or.inl hpeek, rfl, rfl⟩
  | failed hid hbuild =>
    rw [hbuild] at hcaches
    exact Or.inl hcaches
  | refusedSet hid hc hset hbuild =>
    rw [hbuild] at hcaches
    exact Or.inl hcaches
  | stored hid hc hget hbuild =>
    rw [hbuild] at hcaches ⊢
    refine Or.inr ⟨_, _, _, hc, Or.inr rfl, rfl, ?_⟩
    rw [Session.putFront, hcaches]
    rfl

/-- **Failures leave no trace.** A request that fails leaves the caches as they were. -/
theorem caches_of_createTemplate_error {e : Engine} {source : String} {s : Session} {err : Error}
    (hattached : e.Attached s) (h : (e.createTemplate source s).1 = .error err) :
    (e.createTemplate source s).2.caches = s.caches := by
  rcases caches_createTemplate hattached source with hcaches | ⟨id, c, t, _, _, hok, _⟩
  · exact hcaches
  · rw [h] at hok
    cases hok

/-- A request keeps the caches in their places. -/
theorem length_caches_createTemplate {e : Engine} {s : Session} (h : e.Attached s)
    (source : String) : (e.createTemplate source s).2.caches.length = s.caches.length := by
  rcases caches_createTemplate h source with hcaches | ⟨id, c, t, _, _, _, hcaches⟩
  · rw [hcaches]
  · rw [hcaches, Session.putFront, List.length_set]

end Engine

end Stencil
