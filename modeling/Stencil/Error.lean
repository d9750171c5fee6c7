import Stencil.Node.Parser

/-!
# Errors

Every error is a cause; its wording is one function of the cause. An error of the engine names the
stage that failed, and its message starts with that stage.
-/

namespace Stencil

open Stencil.Node (ParseError decimal)

/-! ## Causes -/

/-- Why a node tree cannot be used. -/
inductive CompileError where
  /-- A node names a kind that there is not. -/
  | unknownNodeType (tag : String)
  /-- A text is no node tree. -/
  | invalidNodeTree
  /-- More blocks stand inside one another than may. -/
  | nestingTooDeep (depth limit : Nat)
  deriving DecidableEq, Repr

/-- Why a template cannot be rendered with some data. -/
inductive RenderError where
  /-- The data holds a key that is not accepted. -/
  | unexpectedKey (key : String)
  /-- A key without a default has no value. -/
  | missingKey (key : String)
  /-- The value of a key is a template that asks for data. -/
  | nestedTemplateNeedsData (key : String)
  /-- The value of a key is no array; `found` names what it is. -/
  | notIterable (key found : String)
  deriving DecidableEq, Repr

/-- Why settings cannot be used. -/
inductive ConfigError where
  | zeroMaxDepth
  | zeroCacheCapacity
  /-- A cache of its own, apart from any settings, is to hold nothing. -/
  | zeroCapacity
  /-- The text of the settings cannot be read. -/
  | unreadable
  deriving DecidableEq, Repr

/-- The requests that a cache may refuse. -/
inductive CacheRequest where
  | get
  | set
  | remove
  | clear
  deriving DecidableEq, Repr

/-- An error of the engine. -/
inductive Error where
  | parse (e : ParseError)
  | compile (e : CompileError)
  | render (e : RenderError)
  | config (e : ConfigError)
  /-- A cache refused a request. -/
  | cache (request : CacheRequest)
  /-- A document is no object; `found` names what it is. -/
  | invalidData (found : String)
  deriving DecidableEq, Repr

/-! ## Wording -/

/-- The error in words. -/
def CompileError.message : CompileError → String
  | .unknownNodeType tag => "unknown node type '" ++ tag ++ "'"
  | .invalidNodeTree => "invalid node tree"
  | .nestingTooDeep depth limit =>
    "node tree nests " ++ decimal depth ++ " blocks deep, maximum is " ++ decimal limit

/-- The error in words. -/
def RenderError.message : RenderError → String
  | .unexpectedKey key => "unexpected key '" ++ key ++ "' in data"
  | .missingKey key => "missing required key '" ++ key ++ "'"
  | .nestedTemplateNeedsData key => "nested template for '" ++ key ++ "' requires data"
  | .notIterable key found => "'" ++ key ++ "' is not iterable (found " ++ found ++ ")"

/-- The error in words. -/
def ConfigError.message : ConfigError → String
  | .zeroMaxDepth => "max_depth must be at least 1"
  | .zeroCacheCapacity => "cache_capacity must be greater than 0"
  | .zeroCapacity => "cache capacity must be greater than 0"
  | .unreadable => "the settings cannot be read"

/-- The name of a request. -/
def CacheRequest.name : CacheRequest → String
  | .get => "get"
  | .set => "set"
  | .remove => "remove"
  | .clear => "clear"

/-- The error inside an error of the engine, for the stages that have errors of their own. -/
def Error.inner? : Error → Option String
  | .parse e => some e.message
  | .compile e => some e.message
  | .render e => some e.message
  | _ => none

/-- The error in words: the stage, and what went wrong there. -/
def Error.message : Error → String
  | .parse e => "Parse error: " ++ e.message
  | .compile e => "Compile error: " ++ e.message
  | .render e => "Render error: " ++ e.message
  | .config e => "Config error: " ++ e.message
  | .cache request => "Cache error: " ++ request.name ++ " failed"
  | .invalidData found => "Invalid data: expected a JSON object, found " ++ found

end Stencil
