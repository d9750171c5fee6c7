/-!
# Positions and snippets of a source text

A place in a text is known by three numbers: its offset in UTF-8 bytes, its line and its column.
Lines and columns count from one, and a column counts characters. An error in a source text is shown
with the lines around it, numbered, and a caret under its column: a snippet shows up to two lines
before and two lines after the line of the error. Main statement: cutting a text at the byte length
of its beginning gives that beginning back (`takeBytes?_append`).
-/

namespace Stencil.Text

/-! ## Byte offsets -/

/-- The length of a text in UTF-8 bytes. -/
def byteLength (cs : List Char) : Nat :=
  cs.foldr (fun c n => c.utf8Size + n) 0

/-- The beginning of a text that is `n` bytes long; none if the text ends before, or if the cut
would fall inside a character. -/
def takeBytes? : Nat → List Char → Option (List Char)
  | 0, _ => some []
  | _ + 1, [] => none
  | n + 1, c :: cs =>
    if c.utf8Size ≤ n + 1 then (takeBytes? (n + 1 - c.utf8Size) cs).map (c :: ·) else none

/-- The empty text has no bytes. -/
@[simp] theorem byteLength_nil : byteLength [] = 0 := rfl

/-- The first character adds its own bytes. -/
@[simp] theorem byteLength_cons (c : Char) (cs : List Char) :
    byteLength (c :: cs) = c.utf8Size + byteLength cs := by
  simp [byteLength]

/-- The bytes of two texts in a row add up. -/
@[simp] theorem byteLength_append (as bs : List Char) :
    byteLength (as ++ bs) = byteLength as + byteLength bs := by
  induction as with
  | nil => simp
  | cons c as ih => simp [ih, Nat.add_assoc]

/-- A text that starts with `as` has `as` as its beginning of that many bytes. -/
theorem takeBytes?_append (as bs : List Char) :
    takeBytes? (byteLength as) (as ++ bs) = some as := by
  induction as with
  | nil => simp [takeBytes?]
  | cons c as ih =>
    have hc := c.utf8Size_pos
    obtain ⟨n, hn⟩ : ∃ n, byteLength (c :: as) = n + 1 :=
      ⟨c.utf8Size + byteLength as - 1, by simp; omega⟩
    have hle : c.utf8Size ≤ n + 1 := by rw [← hn]; simp
    have hrest : n + 1 - c.utf8Size = byteLength as := by rw [← hn]; simp
    rw [hn, List.cons_append, takeBytes?, if_pos hle, hrest, ih]
    rfl

/-! ## Lines and columns -/

/-- A line and a column, both counted from one. -/
structure Position where
  line : Nat
  column : Nat
  deriving DecidableEq, Repr

/-- The position of the first character of a text. -/
def Position.start : Position := ⟨1, 1⟩

/-- The position after one more character: a line feed starts a new line. -/
def Position.advance (p : Position) (c : Char) : Position :=
  if c = '\n' then ⟨p.line + 1, 1⟩ else ⟨p.line, p.column + 1⟩

/-- The position right after a text. -/
def Position.after (before : List Char) : Position :=
  before.foldl Position.advance Position.start

/-- The position of a byte offset. An offset that is no character boundary of the text stands for
its end. -/
def Position.ofOffset (source : List Char) (offset : Nat) : Position :=
  Position.after ((takeBytes? offset source).getD source)

/-- The lines of a text. A line feed ends a line, and a carriage return right before it belongs to
the line end; the text after the last line feed is a line of its own unless it is empty. -/
def lines : List Char → List (List Char)
  | [] => []
  | '\n' :: cs => [] :: lines cs
  | '\r' :: '\n' :: cs => [] :: lines cs
  | c :: cs =>
    match lines cs with
    | [] => [[c]]
    | l :: ls => (c :: l) :: ls

/-! ## Snippets -/

/-- The lines of a source around a position in it. -/
structure Snippet where
  /-- All lines of the source. -/
  lines : List (List Char)
  /-- Where the caret stands. -/
  position : Position
  /-- The number of the first line shown. -/
  first : Nat
  /-- The number of the last line shown. -/
  last : Nat
  deriving DecidableEq, Repr

namespace Snippet

/-- The snippet of a source at a position. -/
def ofSource (source : List Char) (position : Position) : Snippet :=
  let all := Text.lines source
  let first := max (position.line - 2) 1
  { lines := all, position, first, last := max (min (position.line + 2) all.length) first }

/-- A number set to the right in four places. -/
def lineNumber (n : Nat) : List Char :=
  let ds := Nat.toDigits 10 n
  List.replicate (4 - ds.length) ' ' ++ ds

/-- A numbered line of the source. -/
def numberedRow (n : Nat) (line : List Char) : List Char :=
  lineNumber n ++ [' ', '|', ' '] ++ line ++ ['\n']

/-- The row with the caret of a column. -/
def caretRow (column : Nat) : List Char :=
  [' ', ' ', ' ', ' ', ' ', '|', ' '] ++ List.replicate (column - 1) ' ' ++ ['^', '\n']

/-- The rows of a line: the caret follows the line of the error. -/
def rows (s : Snippet) (n : Nat) (line : List Char) : List Char :=
  numberedRow n line ++ if n = s.position.line then caretRow s.position.column else []

/-- The lines shown, each with its number. -/
def shown (s : Snippet) : List (Nat × List Char) :=
  let window := (s.lines.drop (s.first - 1)).take (s.last + 1 - s.first)
  (List.range' s.first window.length).zip window

/-- The text of a snippet. -/
def write (s : Snippet) : List Char :=
  s.shown.flatMap fun (n, line) => s.rows n line

end Snippet

end Stencil.Text
