import Stencil.Cache
import Stencil.Render

/-!
# Engines

An engine turns sources into templates under its settings. Caches may be shared between engines, so
they live in a session, which also gives every compilation and every escaper an identity of its
own. Main statements: settings make an engine exactly if they let some block be open and do not ask
for a cache that holds nothing (`Engine.make_eq_ok_iff`), and without a cache it takes nothing but
an escaper from the session (`Engine.make_eq_ofConfig`).
-/

namespace Stencil

open Stencil.Node (decimal)

/-! ## Sessions -/

/-- The caches made so far, and the identities to give next. -/
structure Session where
  caches : List Cache := []
  nextHandle : Nat := 0
  nextEscaper : Nat := 0

/-- The number of a cache in its session. -/
abbrev CacheId := Nat

namespace Session

/-- An escaper with an identity of its own. -/
def newEscaper (s : Session) (escape : String → String) : Escaper × Session :=
  (⟨s.nextEscaper, escape⟩, { s with nextEscaper := s.nextEscaper + 1 })

/-- A new cache, and its number. -/
def addCache (s : Session) (c : Cache) : CacheId × Session :=
  (s.caches.length, { s with caches := s.caches ++ [c] })

/-- Puts a request to a cache of the session. -/
def withCache {α : Type} (s : Session) (id : CacheId) (missing : α)
    (request : Cache → Except Error α × Cache) : Except Error α × Session :=
  match s.caches[id]? with
  | none => (.ok missing, s)
  | some c =>
    let (answer, c) := request c
    (answer, { s with caches := s.caches.set id c })

/-- Whether a cache of the session holds a key. -/
def cacheContains (s : Session) (id : CacheId) (key : String) : Bool :=
  match s.caches[id]? with
  | none => false
  | some c => c.contains key

end Session

/-! ## Making engines -/

/-- An engine: its settings, its escaper and whether that replaced the one of the settings, and its
cache. -/
structure Engine where
  config : EngineConfig
  escaper : Escaper
  customEscaper : Bool := false
  cache : Option CacheId := none

namespace Engine

/-- The engine of some settings with a given cache. -/
def ofConfig (config : EngineConfig) (cache : Option CacheId) (s : Session) : Engine × Session :=
  let (escaper, s) := s.newEscaper config.escape.apply
  ({ config, escaper, cache }, s)

/-- The engine of some settings. It has a cache of its own if they give a capacity. -/
def make (config : EngineConfig) (s : Session) : Except Error Engine × Session :=
  match config.validate with
  | .error e => (.error (.config e), s)
  | .ok () =>
    match config.cacheCapacity with
    | none =>
      let (engine, s) := ofConfig config none s
      (.ok engine, s)
    | some capacity =>
      match Cache.new capacity with
      | .error e => (.error (.config e), s)
      | .ok c =>
        let (id, s) := s.addCache c
        let (engine, s) := ofConfig config (some id) s
        (.ok engine, s)

/-- Usable settings without a cache make their engine. -/
theorem make_eq_ofConfig {config : EngineConfig} (hdepth : config.maxDepth ≠ 0)
    (hcache : config.cacheCapacity = none) (s : Session) :
    make config s = (.ok (ofConfig config none s).1, (ofConfig config none s).2) := by
  have hvalid : config.validate = .ok () :=
    config.validate_eq_ok_iff.2 ⟨hdepth, by simp [hcache]⟩
  rw [make, hvalid, hcache]

/-- An engine is made of the usable settings and of no others. -/
theorem make_eq_ok_iff (config : EngineConfig) (s : Session) :
    (∃ e, (make config s).1 = .ok e) ↔ config.maxDepth ≠ 0 ∧ config.cacheCapacity ≠ some 0 := by
  rw [← config.validate_eq_ok_iff]
  cases hvalid : config.validate with
  | error e => simp [make, hvalid]
  | ok =>
    obtain ⟨hdepth, hcapacity⟩ := config.validate_eq_ok_iff.1 hvalid
    cases hcache : config.cacheCapacity with
    | none => simp [make_eq_ofConfig hdepth hcache s]
    | some capacity =>
      -- a capacity that passes the check is one that a cache can have
      have hpos : 0 < capacity := Nat.pos_of_ne_zero fun h => hcapacity (by rw [hcache, h])
      simp [make, hvalid, hcache, Cache.new, hpos]

/-- The engine of the settings without any choice. -/
def makeDefault (s : Session) : Engine × Session :=
  ofConfig {} none s

/-- The engine with another escaper. A cache is given up, since it holds templates with the
escaper before. -/
def withEscaper (e : Engine) (escaper : Escaper) : Engine :=
  { e with escaper, customEscaper := true, cache := none }

/-- The engine with another cache. -/
def withCache (e : Engine) (id : CacheId) : Engine :=
  { e with cache := some id }

/-! ## Compiling -/

/-- The nodes of a source. -/
def parse (e : Engine) (source : String) : Except Error (List Node) :=
  match Node.parse e.config.maxDepth source with
  | .error err => .error (.parse err)
  | .ok nodes => .ok nodes

/-- The block of some nodes. -/
def compile (e : Engine) (nodes : List Node) : Except Error Block :=
  match Block.compile e.config.maxDepth e.config.keyValidation ∅ nodes with
  | .error err => .error (.compile err)
  | .ok block => .ok block

/-- The block of a source, without a template around it. -/
def compileSource (e : Engine) (source : String) : Except Error Block := do
  let nodes ← e.parse source
  e.compile nodes

/-- The template of some nodes, under a source that is not looked at. -/
def compileNodes (e : Engine) (nodes : List Node) (source : String) (s : Session) :
    Except Error Template × Session :=
  match e.compile nodes with
  | .error err => (.error err, s)
  | .ok block =>
    let t : Template :=
      { handle := s.nextHandle
        block
        requiresData := Node.listRequiresData nodes
        keys := Node.listKeys nodes
        source
        escaper := e.escaper }
    (.ok t, { s with nextHandle := s.nextHandle + 1 })

/-- The template of a source, compiled now. -/
def build (e : Engine) (source : String) (s : Session) : Except Error Template × Session :=
  match e.parse source with
  | .error err => (.error err, s)
  | .ok nodes => e.compileNodes nodes source s

/-! ## Creating templates -/

/-- The name of a policy among the settings of a cache key. -/
def escapeName : EscapePolicy → String
  | .html => "Html"
  | .raw => "Raw"

/-- The name of a validation among the settings of a cache key. -/
def validationName : KeyValidation → String
  | .inherited => "Inherited"
  | .isolated => "Local"

/-- A number in hexadecimal. -/
def hexadecimal (n : Nat) : String :=
  String.ofList (Nat.toDigits 16 n)

/-- All of the engine that makes a difference to its templates: the escaper, which keys are
accepted, and the ceiling on open blocks. -/
def fingerprint (e : Engine) : String :=
  let escape :=
    if e.customEscaper then "custom@" ++ hexadecimal e.escaper.id else escapeName e.config.escape
  "escape=" ++ escape ++ ";validation=" ++ validationName e.config.keyValidation ++
    ";max_depth=" ++ decimal e.config.maxDepth

/-- The key of a source in the engine's cache. -/
def keyOf (e : Engine) (source : String) : String :=
  cacheKey e.fingerprint source

/-- The template of a source: the one in the cache if there is one, and otherwise a new one, which
is stored there. -/
def createTemplate (e : Engine) (source : String) (s : Session) :
    Except Error Template × Session :=
  match e.cache with
  | none => e.build source s
  | some id =>
    match s.withCache id none (·.get (e.keyOf source)) with
    | (.error err, s) => (.error err, s)
    | (.ok (some t), s) => (.ok t, s)
    | (.ok none, s) =>
      match e.build source s with
      | (.error err, s) => (.error err, s)
      | (.ok t, s) =>
        match s.withCache id () (·.set (e.keyOf source) t) with
        | (.error err, s) => (.error err, s)
        | (.ok (), s) => (.ok t, s)

/-- The text of a template, as an answer of the engine. -/
def answer : Except RenderError String → Except Error String
  | .error err => .error (.render err)
  | .ok text => .ok text

/-- The text of a source with some data. -/
def render (e : Engine) (source : String) (data : Data) (s : Session) :
    Except Error String × Session :=
  match e.createTemplate source s with
  | (.error err, s) => (.error err, s)
  | (.ok t, s) => (answer (t.render data), s)

/-- Whether the engine's cache holds the template of a source. -/
def cacheContains (e : Engine) (source : String) (s : Session) : Bool :=
  match e.cache with
  | none => false
  | some id => s.cacheContains id (e.keyOf source)

/-- Empties the engine's cache. -/
def clearCache (e : Engine) (s : Session) : Except Error Unit × Session :=
  match e.cache with
  | none => (.ok (), s)
  | some id => s.withCache id () Cache.clear

end Engine

end Stencil
