import Stencil.Digest.Sha256
import Stencil.Lru
import Stencil.Program

/-!
# Template caches

A cache keeps compiled templates under the digest of what they were compiled from. Storage may
fail, so a cache may refuse one kind of request; what it holds stays as it is then. Main statement:
every key has sixty-four characters, however long the source is (`length_cacheKey`).
-/

namespace Stencil

/-- The bytes that a cache key is the digest of: the settings, a zero byte, and the source. -/
def hashedBytes (settings source : String) : List UInt8 :=
  settings.toUTF8.toList ++ 0 :: source.toUTF8.toList

/-- The key of a source under some settings: sixty-four hexadecimal digits. -/
def cacheKey (settings source : String) : String :=
  Digest.Sha256.hex (Digest.Sha256.digest (hashedBytes settings source))

/-- All keys are of one length. -/
theorem length_cacheKey (settings source : String) :
    (cacheKey settings source).toList.length = 64 := by
  rw [cacheKey, Digest.Sha256.length_hex, Digest.Sha256.length_digest]

/-- A cache of templates. -/
structure Cache where
  entries : Lru Template
  /-- The kind of request that the cache refuses, if any. -/
  refuses : Option CacheRequest := none

namespace Cache

/-- An empty cache; its capacity must not be zero. -/
def new (capacity : Nat) (refuses : Option CacheRequest := none) : Except ConfigError Cache :=
  if h : 0 < capacity then .ok ⟨.empty capacity h, refuses⟩ else .error .zeroCapacity

/-- The template of a key, which is the one used last then. -/
def get (c : Cache) (key : String) : Except Error (Option Template) × Cache :=
  if c.refuses = some .get then (.error (.cache .get), c)
  else
    let (found, entries) := c.entries.get key
    (.ok found, { c with entries })

/-- Stores a template. -/
def set (c : Cache) (key : String) (t : Template) : Except Error Unit × Cache :=
  if c.refuses = some .set then (.error (.cache .set), c)
  else (.ok (), { c with entries := c.entries.put key t })

/-- Removes a template. -/
def remove (c : Cache) (key : String) : Except Error Unit × Cache :=
  if c.refuses = some .remove then (.error (.cache .remove), c)
  else (.ok (), { c with entries := c.entries.erase key })

/-- Removes all templates. -/
def clear (c : Cache) : Except Error Unit × Cache :=
  if c.refuses = some .clear then (.error (.cache .clear), c)
  else (.ok (), { c with entries := c.entries.clear })

/-- Whether a key has a template. -/
def contains (c : Cache) (key : String) : Bool :=
  c.entries.contains key

/-- The number of templates. -/
def size (c : Cache) : Nat :=
  c.entries.size

end Cache

end Stencil
