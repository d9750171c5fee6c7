import Stencil.Proofs.Fingerprint
import Stencil.Proofs.World

/-!
# Transparent caches

Caches make no difference to what an engine gives. Engines with one cache key for a source compile
it to templates that agree, as long as digests do not collide and helpers that exist at the same
time are stored at different addresses. Main statement: after any calls a request for a template
gives what compiling would give, and gives it again, and if it fails it has changed no cache
(`createTemplate_transparent`).
-/

namespace Stencil

/-! ## Agreement -/

/-- Nothing but the handles tells two templates apart. -/
structure Template.Agrees (t u : Template) : Prop where
  source : t.source = u.source
  keys : t.keys = u.keys
  requiresData : t.requiresData = u.requiresData
  render : ∀ data, t.render data = u.render data

/-- Two results are templates that agree, or the same error. -/
inductive Agree : Except Error Template → Except Error Template → Prop where
  | ok {t u : Template} (h : t.Agrees u) : Agree (.ok t) (.ok u)
  | error (err : Error) : Agree (.error err) (.error err)

namespace Engine

/-- The engine without its cache. -/
def uncached (e : Engine) : Engine :=
  { e with cache := none }

/-- Engines that differ in nothing but their caches and in where their helpers are stored compile
a source to the same. -/
theorem build_agree {e e' : Engine} (hvalidation : e.config.keyValidation = e'.config.keyValidation)
    (hdepth : e.config.maxDepth = e'.config.maxDepth)
    (hescape : e.escaper.escape = e'.escaper.escape) (source : String) (s s' : Session) :
    Agree (e.build source s).1 (e'.build source s').1 := by
  have hparse : e.parse source = e'.parse source := by
    unfold parse
    rw [hdepth]
  have hcompile : ∀ nodes, e.compile nodes = e'.compile nodes := by
    intro nodes
    unfold compile
    rw [hdepth, hvalidation]
  unfold build
  rw [hparse]
  cases e'.parse source with
  | error err => exact Agree.error err
  | ok nodes =>
    simp only [compileNodes, hcompile]
    cases e'.compile nodes with
    | error err => exact Agree.error err
    | ok block =>
      refine Agree.ok ⟨rfl, rfl, rfl, fun data => ?_⟩
      unfold Template.render
      rw [hescape]

/-- Engines that escape alike by the account of their fingerprints do so indeed, if their helpers
are the same where the addresses are. -/
theorem escape_eq_of_escaping {e e' : Engine} (he : e.Genuine) (he' : e'.Genuine)
    (hsame : e.escaper.id = e'.escaper.id → e.escaper = e'.escaper)
    (h : e.escaping = e'.escaping) : e.escaper.escape = e'.escaper.escape := by
  unfold escaping at h
  split at h
  · split at h
    · rw [hsame (Sum.inr.inj h)]
    · cases h
  · next hcustom =>
    split at h
    · cases h
    · next hcustom' =>
      rw [he (eq_false_of_ne_true hcustom), he' (eq_false_of_ne_true hcustom'),
        Sum.inl.inj h]

end Engine

/-! ## Assumptions -/

/-- No two of some inputs have the same digest. -/
def CollisionFree (inputs : List (List UInt8)) : Prop :=
  ∀ a ∈ inputs, ∀ b ∈ inputs, Digest.Sha256.digest a = Digest.Sha256.digest b → a = b

namespace World

/-- The helpers that exist: those of the engines and of the templates in the caches. -/
def helpers (w : World) : List Escaper :=
  w.engines.map Engine.escaper ++
    w.session.caches.flatMap fun c => c.entries.entries.map fun entry => entry.2.escaper

/-- Helpers that exist at the same time are stored at different addresses. -/
def DistinctHelpers (w : World) : Prop :=
  ∀ a ∈ w.helpers, ∀ b ∈ w.helpers, a.id = b.id → a = b

/-- The helpers of an engine exist. -/
theorem escaper_mem_helpers {w : World} {e : Engine} (h : e ∈ w.engines) :
    e.escaper ∈ w.helpers :=
  List.mem_append_left _ (List.mem_map_of_mem h)

/-- The helpers of a template in a cache exist. -/
theorem escaper_mem_helpers_of_cached {w : World} {c : Cache} {key : String} {t : Template}
    (hc : c ∈ w.session.caches) (h : (key, t) ∈ c.entries.entries) : t.escaper ∈ w.helpers :=
  List.mem_append_right _
    (List.mem_flatMap.2 ⟨c, hc, List.mem_map_of_mem (f := fun entry => entry.2.escaper) h⟩)

end World

/-- The cache of the engine refuses neither to be read nor to store. -/
def Engine.Willing (e : Engine) (s : Session) : Prop :=
  ∀ id c, e.cache = some id → s.caches[id]? = some c →
    c.refuses ≠ some .get ∧ c.refuses ≠ some .set

/-! ## Transparency -/

/-- A template that is found under the key of an engine agrees with what the engine compiles. -/
theorem agree_of_cached {w : World} (hw : w.Sound) {e : Engine} (he : e ∈ w.engines)
    {source : String} (hdigest : CollisionFree (w.hash e source).hashed)
    (hhelpers : w.DistinctHelpers) {id : CacheId} (hid : e.cache = some id) {c : Cache}
    (hc : c ∈ w.session.caches) {t : Template}
    (ht : (e.keyOf source, t) ∈ c.entries.entries) (s : Session) :
    Agree (.ok t) (e.build source s).1 := by
  obtain ⟨e', source', s', hgenuine, hkey, hhashed, hbuild⟩ := hw.compiled c hc _ t ht
  -- equal keys come from equal bytes, and these from one source and equal fingerprints
  have hash_eq : (w.hash e source).hashed = hashedBytes e.fingerprint source :: w.hashed := by
    rw [World.hash, hid]
    rfl
  rw [hash_eq] at hdigest
  have hbytes : hashedBytes e.fingerprint source = hashedBytes e'.fingerprint source' :=
    hdigest _ List.mem_cons_self _ (List.mem_cons_of_mem _ hhashed)
      (digest_eq_of_cacheKey_eq hkey)
  obtain ⟨hfingerprint, rfl⟩ :=
    hashedBytes_inj e.nul_notMem_fingerprint e'.nul_notMem_fingerprint hbytes
  obtain ⟨hescaping, hvalidation, hdepth⟩ := Engine.fingerprint_inj hfingerprint
  -- the template keeps the helpers of the other engine alive
  have hsame : e.escaper.id = e'.escaper.id → e.escaper = e'.escaper := by
    rw [← Engine.escaper_of_build hbuild]
    exact hhelpers _ (World.escaper_mem_helpers he) _
      (World.escaper_mem_helpers_of_cached hc ht)
  have hescape := Engine.escape_eq_of_escaping (hw.genuine e he) hgenuine hsame hescaping
  rw [← hbuild]
  exact Engine.build_agree hvalidation.symm hdepth.symm hescape.symm source s' s

/-- A request gives what compiling gives. -/
theorem agree_createTemplate {w : World} (hw : w.Sound) {e : Engine} (he : e ∈ w.engines)
    {source : String} (hdigest : CollisionFree (w.hash e source).hashed)
    (hhelpers : w.DistinctHelpers) (hwilling : e.Willing w.session) (s : Session) :
    Agree (e.createTemplate source w.session).1 (e.build source s).1 := by
  have hcases := Engine.createTemplate_created (hw.attached e he) source
  have hagree : Agree (e.build source w.session).1 (e.build source s).1 :=
    Engine.build_agree rfl rfl rfl source w.session s
  generalize e.createTemplate source w.session = outcome at hcases
  cases hcases with
  | fresh => exact hagree
  | refusedGet hid hc hget => exact absurd hget (hwilling _ _ hid hc).1
  | found hid hc hget hpeek =>
    exact agree_of_cached hw he hdigest hhelpers hid (List.mem_of_getElem? hc)
      (Lru.mem_of_peek? hpeek) s
  | failed hid hbuild =>
    rw [hbuild] at hagree
    exact hagree
  | refusedSet hid hc hset hbuild => exact absurd hset (hwilling _ _ hid hc).2
  | stored hid hc hget hbuild =>
    rw [hbuild] at hagree
    exact hagree

/-- **Caches are transparent.** After any calls to any engines, a request for a template gives what
the engine without its cache gives: a template that agrees with the other one, or the same error.
A template that a cache took part in is in it afterwards, and the next request gives the same one.
A request that fails changes no cache, also if it fails because a cache refuses. -/
theorem createTemplate_transparent {w : World} (hw : w.Reachable) {e : Engine}
    (he : e ∈ w.engines) (source : String) (hdigest : CollisionFree (w.hash e source).hashed)
    (hhelpers : w.DistinctHelpers) :
    (e.Willing w.session → ∀ s,
      Agree (e.createTemplate source w.session).1 (e.uncached.createTemplate source s).1) ∧
    (∀ t s', e.cache.isSome → e.createTemplate source w.session = (.ok t, s') →
      e.cacheContains source s' = true ∧ (e.createTemplate source s').1 = .ok t) ∧
    ∀ err s', e.createTemplate source w.session = (.error err, s') →
      s'.caches = w.session.caches := by
  have hsound := World.sound_of_reachable hw
  have hattached := hsound.attached e he
  refine ⟨fun hwilling s => ?_, fun t s' hcache hcreate => ?_, fun err s' hcreate => ?_⟩
  · exact agree_createTemplate hsound he hdigest hhelpers hwilling s
  · obtain ⟨id, hid⟩ := Option.isSome_iff_exists.1 hcache
    exact Engine.createTemplate_again hid hattached hcreate
  · have herror := congrArg Prod.fst hcreate
    have hcaches := Engine.caches_of_createTemplate_error hattached herror
    rw [hcreate] at hcaches
    exact hcaches

/-! ## Two engines with one cache -/

namespace TwoEngines

/-- A source with a placeholder. -/
def source : String := "@\x7bv\x7d"

/-- An engine that escapes for HTML, with the first cache. -/
def html : Engine :=
  { config := {}, escaper := EscapePolicy.html.escaper 0, cache := some 0 }

/-- An engine that escapes nothing, with the same cache. -/
def raw : Engine :=
  { config := { escape := .raw }, escaper := EscapePolicy.raw.escaper 1, cache := some 0 }

/-- The two engines are made and share a cache, and the first one is asked for a template. -/
def world : World :=
  World.run {}
    [.newCache 2 none, .newEngine {} 0, .newEngine { escape := .raw } 1, .withCache 0 0,
      .withCache 1 0, .createTemplate 0 source]

/-- The session before that request. -/
def before : Session :=
  ⟨[{ entries := Lru.empty 2 (by decide) }], 0, 2⟩

/-- The template that an engine compiles from the source. -/
def template (e : Engine) (handle : Nat) : Template :=
  ⟨handle, .mk (KeySet.ofList ["v"]) [.place "v" none], true, KeySet.ofList ["v"], source,
    e.escaper⟩

/-- The cache after that request. -/
def cache : Cache :=
  { entries := (Lru.empty 2 (by decide)).put (html.keyOf source) (template html 0) }

/-- An engine with the default ceiling and validation compiles the source. -/
theorem build_source {e : Engine} (hdepth : e.config.maxDepth = 50)
    (hvalidation : e.config.keyValidation = .inherited) (s : Session) :
    e.build source s =
      (.ok (template e s.nextHandle), { s with nextHandle := s.nextHandle + 1 }) := by
  have hscan : Node.scan source.toList = [.directive (.place ['v'])] := by
    show Node.scan ['@', '\x7b', 'v', '\x7d'] = [.directive (.place ['v'])]
    rw [Node.scan]
    split
    · next hd =>
      cases hd
      rw [Node.scan]
    · next hd => cases hd
  have hparse : e.parse source = .ok [.placeholder "v" none] := by
    unfold Engine.parse Node.parse Node.parseChars
    rw [hscan, hdepth]
    rfl
  unfold Engine.build Engine.compileNodes Engine.compile
  rw [hparse, hdepth, hvalidation]
  rfl

/-- The template of the first engine stands in the cache. -/
theorem caches_world : world.session.caches = [cache] := by
  have hc : before.caches[0]? = some { entries := Lru.empty 2 (by decide) } := rfl
  have hcreate := Engine.createTemplate_stored (e := html) rfl hc (by decide) (by decide) rfl
    (build_source rfl rfl before)
  have hworld : world.session = (html.createTemplate source before).2 := rfl
  rw [hworld, hcreate]
  rfl

/-- The helpers of the engines are stored apart, and the template shares those of its engine. -/
theorem distinctHelpers_world : world.DistinctHelpers := by
  have hhelpers : world.helpers = [html.escaper, raw.escaper, html.escaper] := by
    rw [World.helpers, caches_world]
    rfl
  rw [World.DistinctHelpers, hhelpers]
  intro a ha b hb hid
  simp only [List.mem_cons, List.not_mem_nil, or_false] at ha hb
  rcases ha with rfl | rfl | rfl <;> rcases hb with rfl | rfl | rfl <;>
    first | rfl | cases hid

/-- The two texts that have been hashed have different digests. -/
theorem collisionFree_world : CollisionFree (world.hash raw source).hashed := by
  have hhashed : (world.hash raw source).hashed =
    [hashedBytes raw.fingerprint source, hashedBytes html.fingerprint source] := rfl
  have hne : Digest.Sha256.digest (hashedBytes raw.fingerprint source) ≠
      Digest.Sha256.digest (hashedBytes html.fingerprint source) := by
    rw [hashedBytes_eq, hashedBytes_eq]
    decide +kernel
  rw [CollisionFree, hhashed]
  intro a ha b hb hdigest
  simp only [List.mem_cons, List.not_mem_nil, or_false] at ha hb
  rcases ha with rfl | rfl <;> rcases hb with rfl | rfl
  · rfl
  · exact absurd hdigest hne
  · exact absurd hdigest hne.symm
  · rfl

/-- The cache refuses nothing. -/
theorem willing_world : raw.Willing world.session := by
  intro id c hid hc
  cases hid
  rw [caches_world] at hc
  cases hc
  exact ⟨by decide, by decide⟩

/-- The second engine does not get what the first one left in the cache: its template agrees with
one that it compiles, and from then on it stands in the cache as well. -/
theorem createTemplate_transparent_shared :
    world.Reachable ∧ raw ∈ world.engines ∧ CollisionFree (world.hash raw source).hashed ∧
      world.DistinctHelpers ∧
      ∃ t s', raw.createTemplate source world.session = (.ok t, s') ∧ t.Agrees (template raw 0) ∧
        raw.cacheContains source s' = true ∧ (raw.createTemplate source s').1 = .ok t := by
  have hreachable : world.Reachable := ⟨_, rfl⟩
  have hmem : raw ∈ world.engines := List.mem_cons_of_mem _ List.mem_cons_self
  refine ⟨hreachable, hmem, collisionFree_world, distinctHelpers_world, ?_⟩
  obtain ⟨hagree, hagain, _⟩ := createTemplate_transparent hreachable hmem source
    collisionFree_world distinctHelpers_world
  have huncached : (raw.uncached.createTemplate source {}).1 = .ok (template raw 0) :=
    congrArg Prod.fst (build_source (e := raw.uncached) rfl rfl {})
  have hresult := hagree willing_world {}
  rw [huncached] at hresult
  generalize hcreate : raw.createTemplate source world.session = outcome at hresult
  obtain ⟨result, s'⟩ := outcome
  cases hresult with
  | ok ht =>
    obtain ⟨hcontains, hsame⟩ := hagain _ s' rfl hcreate
    exact ⟨_, s', rfl, ht, hcontains, hsame⟩

end TwoEngines

end Stencil
