import Stencil.Error
import Stencil.Text.Entity

/-!
# Engine settings

The settings of an engine, and when they are usable. Among them is what is done to every text that
a template puts out in place of a value. An escaper carries an identity besides its function: two
escapers made one after the other are different even if they do the same, and only copies of one
escaper share its identity. Main statement: which settings are usable
(`EngineConfig.validate_eq_ok_iff`).
-/

namespace Stencil

/-! ## Escapers -/

/-- A way of escaping. -/
structure Escaper where
  /-- The identity of the escaper, shared by its copies alone. -/
  id : Nat
  /-- What it does to a text. -/
  escape : String → String

/-- The escaping that settings may ask for. -/
inductive EscapePolicy where
  /-- The characters with a meaning in HTML become entities. -/
  | html
  /-- Nothing changes. -/
  | raw
  deriving DecidableEq, Repr

/-- What a policy does to a text. -/
def EscapePolicy.apply : EscapePolicy → String → String
  | .html, s => Text.Entity.escapeHtml s
  | .raw, s => s

/-- The escaper of a policy with an identity of its own. -/
def EscapePolicy.escaper (p : EscapePolicy) (id : Nat) : Escaper :=
  ⟨id, p.apply⟩

/-! ## Settings -/

/-- Which keys a nested block accepts besides those that it reads itself. -/
inductive KeyValidation where
  /-- All that the blocks around it accept. -/
  | inherited
  /-- Those that the blocks around it branch or loop on. -/
  | isolated
  deriving DecidableEq, Repr

/-- The settings of an engine. -/
structure EngineConfig where
  /-- How many blocks may be open at once. -/
  maxDepth : Nat := Node.defaultMaxDepth
  keyValidation : KeyValidation := .inherited
  escape : EscapePolicy := .html
  /-- How many templates the engine's cache holds; no cache without it. -/
  cacheCapacity : Option Nat := none
  deriving DecidableEq, Repr

namespace EngineConfig

/-- Refuses a ceiling of zero blocks, and then a cache that would hold nothing. -/
def validate (c : EngineConfig) : Except ConfigError Unit :=
  if c.maxDepth = 0 then .error .zeroMaxDepth
  else if c.cacheCapacity = some 0 then .error .zeroCacheCapacity
  else .ok ()

/-- Settings are usable if they let some block be open, and some template be held by a cache. -/
theorem validate_eq_ok_iff (c : EngineConfig) :
    c.validate = .ok () ↔ c.maxDepth ≠ 0 ∧ c.cacheCapacity ≠ some 0 := by
  unfold validate
  split
  · next h => simp [h]
  · next h =>
    split
    · next h' => simp [h']
    · next h' => simp [h, h']

end EngineConfig

end Stencil
