import Stencil.Json.Token

/-!
# Reading documents

A document is read token by token by a machine whose state is the stack of containers that are
still open. Each state says what may come next, so a text is refused at the first token that does
not fit, and the state before that token tells how far the document got. Main statement: reading two
lists of tokens in a row is reading the first and going on with the second (`run_append`).
-/

namespace Stencil.Json

/-! ## States -/

/-- A container that waits for the value being read inside it. What it holds so far stands in
reverse order. -/
inductive Frame where
  /-- An array; its next element is being read. -/
  | element (before : List Json)
  /-- An object; the value of its next entry is being read. -/
  | member (before : List (String × Json)) (name : String)
  deriving Repr

/-- What may come next, inside the open containers. -/
inductive State where
  /-- A value. -/
  | value (stack : List Frame)
  /-- The first element of an array or the end of the array. -/
  | firstElement (stack : List Frame)
  /-- A comma or the end of an array. -/
  | afterElement (items : List Json) (stack : List Frame)
  /-- The first name of an object or the end of the object. -/
  | firstName (stack : List Frame)
  /-- A name of an object. -/
  | nextName (entries : List (String × Json)) (stack : List Frame)
  /-- The colon after a name. -/
  | colon (entries : List (String × Json)) (name : String) (stack : List Frame)
  /-- A comma or the end of an object. -/
  | afterMember (entries : List (String × Json)) (stack : List Frame)
  /-- Nothing: the document is read. -/
  | done (document : Json)
  deriving Repr

/-- The state after a whole value. -/
def State.complete (v : Json) : List Frame → State
  | [] => .done v
  | .element items :: stack => .afterElement (v :: items) stack
  | .member entries name :: stack => .afterMember ((name, v) :: entries) stack

/-- The state after the first token of a value. A container may only start inside less than `limit`
others. -/
def State.begin (limit : Nat) (stack : List Frame) : Token → Option State
  | .null => some (.complete .null stack)
  | .bool b => some (.complete (.bool b) stack)
  | .number n => some (.complete (.number n) stack)
  | .string s => some (.complete (.string s) stack)
  | .openBracket => if stack.length < limit then some (.firstElement stack) else none
  | .openBrace => if stack.length < limit then some (.firstName stack) else none
  | _ => none

/-- The state after one more token; none if the token does not fit. -/
def State.step (limit : Nat) : State → Token → Option State
  | .value stack, t => begin limit stack t
  | .firstElement stack, .closeBracket => some (.complete (.array []) stack)
  | .firstElement stack, t => begin limit (.element [] :: stack) t
  | .afterElement items stack, .comma => some (.value (.element items :: stack))
  | .afterElement items stack, .closeBracket => some (.complete (.array items.reverse) stack)
  | .firstName stack, .closeBrace => some (.complete (.object []) stack)
  | .firstName stack, .string s => some (.colon [] s stack)
  | .nextName entries stack, .string s => some (.colon entries s stack)
  | .colon entries name stack, .colon => some (.value (.member entries name :: stack))
  | .afterMember entries stack, .comma => some (.nextName entries stack)
  | .afterMember entries stack, .closeBrace => some (.complete (.object entries.reverse) stack)
  | _, _ => none

/-- The state after some tokens, or the last state before a token that does not fit. -/
def State.run (limit : Nat) : State → List Token → Except State State
  | s, [] => .ok s
  | s, t :: ts =>
    match s.step limit t with
    | none => .error s
    | some s => s.run limit ts

/-- Running over two lists of tokens in a row. -/
theorem State.run_append (limit : Nat) (s : State) (ts us : List Token) :
    s.run limit (ts ++ us) = (s.run limit ts).bind (·.run limit us) := by
  induction ts generalizing s with
  | nil => rfl
  | cons t ts ih =>
    rw [List.cons_append, State.run, State.run]
    cases s.step limit t with
    | none => rfl
    | some s => exact ih s

/-! ## Unfinished documents -/

/-- What a waiting container holds so far. -/
def Frame.soFar : Frame → Json
  | .element items => .array items.reverse
  | .member entries _ => .object entries.reverse

/-- What has been read of the document: each open container with what it holds so far, from the
outermost to the innermost. -/
def State.outline (s : State) : List Json :=
  let waiting (stack : List Frame) := stack.reverse.map Frame.soFar
  match s with
  | .value stack => waiting stack
  | .firstElement stack => waiting stack ++ [.array []]
  | .afterElement items stack => waiting stack ++ [.array items.reverse]
  | .firstName stack => waiting stack ++ [.object []]
  | .nextName entries stack => waiting stack ++ [.object entries.reverse]
  | .colon entries _ stack => waiting stack ++ [.object entries.reverse]
  | .afterMember entries stack => waiting stack ++ [.object entries.reverse]
  | .done document => [document]

/-! ## Documents -/

/-- How many arrays and objects may stand inside one another. -/
def nestingLimit : Nat := 127

/-- Reads the text of a document; the error is the last state that made sense. -/
def read (limit : Nat) (text : String) : Except State Json :=
  match (State.value []).run limit (Token.scan text.toList) with
  | .ok (.done document) => .ok document
  | .ok s => .error s
  | .error s => .error s

/-- Reads the text of a document, if it is one. -/
def read? (limit : Nat) (text : String) : Option Json :=
  (read limit text).toOption

end Stencil.Json
