import Stencil.Decimal.Double
import Stencil.Toml.Table

/-!
# Reading settings texts

A reader takes the beginning of a text and leaves the rest. A settings text is a list of lines, each
of which is blank, a comment, a header or an entry; values may nest to a fixed depth.
-/

namespace Stencil.Toml

/-- A reader of texts. -/
abbrev Reader := StateT (List Char) Option

namespace Reader

/-! ## Parts of readers -/

/-- The next character, if there is one; nothing is taken. -/
def peek : Reader (Option Char) := fun cs => some (cs.head?, cs)

/-- Takes a character with a property. -/
def satisfy (p : Char → Bool) : Reader Char
  | c :: cs => if p c then some (c, cs) else none
  | [] => none

/-- Takes a character. -/
def char (c : Char) : Reader Unit := do
  discard <| satisfy (· == c)

/-- Takes a run of characters. -/
def word : List Char → Reader Unit
  | [] => pure ()
  | c :: cs => do
    char c
    word cs

/-- Takes all characters up to the first one without a property. -/
def takeAll (p : Char → Bool) : Reader (List Char) := fun cs =>
  some (cs.takeWhile p, cs.dropWhile p)

/-- Takes what a reader takes, or nothing if it fails. -/
def attempt {α : Type} (r : Reader α) : Reader (Option α) := fun cs =>
  match r cs with
  | some (x, rest) => some (some x, rest)
  | none => some (none, cs)

/-- What a reader takes, as often as it takes something. -/
def repeatedly {α : Type} (r : Reader α) (cs : List Char) : List α × List Char :=
  match r cs with
  | none => ([], cs)
  | some (x, rest) =>
    if _h : rest.length < cs.length then
      let (xs, rest) := repeatedly r rest
      (x :: xs, rest)
    else ([], cs)
termination_by cs.length

/-- Takes what a reader takes, as often as it takes something. -/
def many {α : Type} (r : Reader α) : Reader (List α) := fun cs =>
  some (repeatedly r cs)

/-- Takes a fixed number of characters with a property. -/
def exactly (p : Char → Bool) : Nat → Reader (List Char)
  | 0 => pure []
  | n + 1 => do
    let c ← satisfy p
    let cs ← exactly p n
    return c :: cs

/-! ## Blanks and comments -/

/-- Whether a character is a space or a tab. -/
def isSpace (c : Char) : Bool :=
  c == ' ' || c == '\t'

/-- Whether a character may stand for itself: no control character but the tab. -/
def isPlain (c : Char) : Bool :=
  c == '\t' || (0x20 ≤ c.toNat && c.toNat != 0x7F)

/-- Takes spaces and tabs. -/
def spaces : Reader Unit := do
  discard <| takeAll isSpace

/-- Takes a line end. -/
def newline : Reader Unit :=
  char '\n' <|> word ['\r', '\n']

/-- Takes a comment up to its line end. -/
def comment : Reader Unit := do
  char '#'
  discard <| takeAll isPlain

/-- Takes the end of the text. -/
def endOfText : Reader Unit
  | [] => some ((), [])
  | _ :: _ => none

/-- Takes the rest of a line, which says nothing more. -/
def restOfLine : Reader Unit := do
  spaces
  discard <| attempt comment
  newline <|> endOfText

/-- Takes spaces, comments and line ends. -/
def blanks : Reader Unit := do
  discard <| many (discard (satisfy isSpace) <|> newline <|> comment)

/-! ## Strings and keys -/

/-- The number that hexadecimal digits spell. -/
def natOfHex (ds : List Char) : Nat :=
  ds.foldl (fun n c => 16 * n +
    (if c.isDigit then c.toNat - 48 else if c.toNat < 97 then c.toNat - 55 else c.toNat - 87)) 0

/-- Whether a character is a hexadecimal digit. -/
def isHexDigit (c : Char) : Bool :=
  c.isDigit || ('a' ≤ c && c ≤ 'f') || ('A' ≤ c && c ≤ 'F')

/-- The character of a code point; surrogates have none. -/
def codePoint (n : Nat) : Reader Char :=
  if n.isValidChar then pure (Char.ofNat n) else failure

/-- The character of an escape, after its backslash. -/
def escapedChar : Reader Char := do
  match ← satisfy fun _ => true with
  | 'b' => return '\x08'
  | 't' => return '\t'
  | 'n' => return '\n'
  | 'f' => return '\x0c'
  | 'r' => return '\r'
  | '"' => return '"'
  | '\\' => return '\\'
  | 'u' => codePoint (natOfHex (← exactly isHexDigit 4))
  | 'U' => codePoint (natOfHex (← exactly isHexDigit 8))
  | _ => failure

/-- A character of a string with escapes: an escape or a plain character other than a quote. -/
def basicChar : Reader Char :=
  (do char '\\'; escapedChar) <|> satisfy fun c => isPlain c && c != '"' && c != '\\'

/-- A string with escapes on one line. -/
def basicString : Reader String := do
  char '"'
  let cs ← many basicChar
  char '"'
  return String.ofList cs

/-- A string without escapes on one line. -/
def literalString : Reader String := do
  char '\x27'
  let cs ← takeAll fun c => isPlain c && c != '\x27'
  char '\x27'
  return String.ofList cs

/-- Fails where a text comes next. -/
def notBefore (cs : List Char) : Reader Unit := fun input =>
  if cs.isPrefixOf input then none else some ((), input)

/-- The quotes that end a string of several lines. Up to two quotes before the last three belong to
the string. -/
def closingQuotes (quote : Char) : Reader (List Char) := do
  word [quote, quote, quote]
  let more ← many (char quote)
  if more.length ≤ 2 then return List.replicate more.length quote else failure

/-- A piece of a string of several lines with escapes. A backslash before a line end takes all
blanks after it out of the string. -/
def basicPiece : Reader (List Char) :=
  (do notBefore ['"', '"', '"']; char '"'; return ['"']) <|>
  (do char '\\'; spaces; newline; discard <| many (discard (satisfy isSpace) <|> newline)
      return []) <|>
  (do newline; return ['\n']) <|>
  (do return [← basicChar])

/-- A string of several lines with escapes. -/
def basicLines : Reader String := do
  word ['"', '"', '"']
  discard <| attempt newline
  let pieces ← many basicPiece
  let quotes ← closingQuotes '"'
  return String.ofList (pieces.flatten ++ quotes)

/-- A piece of a string of several lines without escapes. -/
def literalPiece : Reader (List Char) :=
  (do notBefore ['\x27', '\x27', '\x27']; char '\x27'; return ['\x27']) <|>
  (do newline; return ['\n']) <|>
  (do return [← satisfy fun c => isPlain c && c != '\x27'])

/-- A string of several lines without escapes. -/
def literalLines : Reader String := do
  word ['\x27', '\x27', '\x27']
  discard <| attempt newline
  let pieces ← many literalPiece
  let quotes ← closingQuotes '\x27'
  return String.ofList (pieces.flatten ++ quotes)

/-- A part of a key. -/
def keyPart : Reader String := do
  match ← peek with
  | some '"' => basicString
  | some '\x27' => literalString
  | _ =>
    let cs ← takeAll fun c => c.isAlphanum || c == '_' || c == '-'
    if cs = [] then failure else return String.ofList cs

/-- How many arrays and inline tables may stand inside one another, and how many parts a key may
have. -/
def depthLimit : Nat := 79

/-- A key of one or more parts: all but the last one, and the last one. -/
def key : Reader (List String × String) := do
  spaces
  let first ← keyPart
  spaces
  let others ← many (do char '.'; spaces; let part ← keyPart; spaces; return part)
  if others.length + 1 ≤ depthLimit then
    let parts := first :: others
    return (parts.dropLast, others.getLastD first)
  else failure

/-! ## Numbers and dates -/

/-- Digits of some kind, with single underscores between them. -/
def digitsWith (p : Char → Bool) : Reader (List Char) := do
  let first ← satisfy p
  let others ← many (do discard <| attempt (char '_'); satisfy p)
  return first :: others

/-- Whether a minus sign was taken; a plus sign is taken, too. -/
def sign : Reader Bool :=
  (do char '-'; return true) <|> (do char '+'; return false) <|> pure false

/-- The digits of a whole number: a zero stands alone. -/
def wholeDigits : Reader (List Char) :=
  (do char '0'; return ['0']) <|> (do notBefore ['0']; digitsWith Char.isDigit)

/-- The number that decimal digits spell. -/
def natOfDecimal (ds : List Char) : Nat :=
  ds.foldl (fun n c => 10 * n + (c.toNat - 48)) 0

/-- An integer, if it fits a signed word of sixty-four bits. -/
def integerValue (n : Int) : Reader Toml :=
  if -9223372036854775808 ≤ n ∧ n < 9223372036854775808 then pure (.integer n) else failure

/-- An integer with a mark for its base. -/
def basedInteger (mark : Char) (base : Nat) (p : Char → Bool) : Reader Toml := do
  word ['0', mark]
  let ds ← digitsWith p
  let values := ds.map fun c => natOfHex [c]
  integerValue (values.foldl (fun n d => base * n + d) 0 : Nat)

/-- An integer. -/
def integer : Reader Toml :=
  basedInteger 'x' 16 isHexDigit <|>
  basedInteger 'o' 8 (fun c => '0' ≤ c && c ≤ '7') <|>
  basedInteger 'b' 2 (fun c => c == '0' || c == '1') <|> do
    let negative ← sign
    let n : Int := natOfDecimal (← wholeDigits)
    integerValue (if negative then -n else n)

/-- Whether a decimal number lies past the finite doubles. -/
def overflows (digits : List Char) (exponent : Int) : Bool :=
  let n := natOfDecimal digits
  if n = 0 then false
  else if 400 < exponent then true
  else if exponent + digits.length < 300 then false
  else
    (Decimal.Double.ofFraction? false (n * Nat.pow 10 exponent.toNat)
      (Nat.pow 10 (-exponent).toNat)).isNone

/-- The digits after a point. -/
def fraction : Reader (List Char) := do
  char '.'
  digitsWith Char.isDigit

/-- An exponent with its mark. -/
def exponent : Reader Int := do
  discard <| satisfy fun c => c == 'e' || c == 'E'
  let negative ← sign
  let n : Int := natOfDecimal (← digitsWith Char.isDigit)
  return if negative then -n else n

/-- A double. One that is too large is refused. -/
def float : Reader Toml :=
  (do
    let negative ← sign
    let whole ← wholeDigits
    let places ← attempt fraction
    let scale ← attempt exponent
    if places.isNone && scale.isNone then failure
    let places := places.getD []
    if !negative && overflows (whole ++ places) (scale.getD 0 - places.length) then failure
    return .float) <|>
  (do
    discard sign
    word ['i', 'n', 'f'] <|> word ['n', 'a', 'n']
    return .float)

/-- A number of a fixed number of digits between two bounds. -/
def bounded (width low high : Nat) : Reader Nat := do
  let n := natOfDecimal (← exactly Char.isDigit width)
  if low ≤ n && n ≤ high then return n else failure

/-- The days of a month. -/
def daysIn (year month : Nat) : Nat :=
  if month = 2 then (if year % 4 = 0 ∧ (year % 100 ≠ 0 ∨ year % 400 = 0) then 29 else 28)
  else if month ∈ [4, 6, 9, 11] then 30
  else 31

/-- A day of the calendar. -/
def date : Reader Unit := do
  let year ← bounded 4 0 9999
  char '-'
  let month ← bounded 2 1 12
  char '-'
  discard <| bounded 2 1 (daysIn year month)

/-- A time of day. -/
def time : Reader Unit := do
  discard <| bounded 2 0 23
  char ':'
  discard <| bounded 2 0 59
  char ':'
  discard <| bounded 2 0 60
  discard <| attempt (do char '.'; discard (satisfy Char.isDigit); takeAll Char.isDigit)

/-- The distance of a local time from the universal one. -/
def offset : Reader Unit :=
  char 'Z' <|> char 'z' <|> do
    char '+' <|> char '-'
    discard <| bounded 2 0 23
    char ':'
    discard <| bounded 2 0 59

/-- A date, a time, or both. -/
def datetime : Reader Toml := do
  (do
    date
    discard <| attempt (do
      discard <| satisfy fun c => c == 'T' || c == 't' || c == ' '
      time
      discard <| attempt offset)) <|> time
  return .datetime

/-! ## Values -/

/-- The table of an inline table's entries. -/
def inlineTable (entries : List (List String × String × Toml)) : Reader Toml :=
  match entries.foldlM (fun es (path, key, v) => defineDotted key v path es) [] with
  | some es => pure (.table (finishEntries es))
  | none => failure

/-- What stands between an opening and a closing mark: nothing, or values with commas between
them. -/
def listUntil {α : Type} (close : Char) (gap : Reader Unit) (r : Reader α) : Reader (List α) := do
  gap
  if (← peek) = some close then return []
  let first ← r
  let others ← many (do gap; char ','; gap; r)
  gap
  return first :: others

/-- A value without parts. -/
def scalar : Reader Toml := do
  match ← peek with
  | some '"' => return .string (← basicLines <|> basicString)
  | some '\x27' => return .string (← literalLines <|> literalString)
  | some 't' => word ['t', 'r', 'u', 'e']; return .bool true
  | some 'f' => word ['f', 'a', 'l', 's', 'e']; return .bool false
  | _ => datetime <|> float <|> integer

/-- A value in which at most `depth` arrays and inline tables stand inside one another. -/
def value : (depth : Nat) → Reader Toml
  | 0 => scalar
  | depth + 1 => do
    match ← peek with
    | some '[' =>
      char '['
      let items ← listUntil ']' blanks (value depth)
      discard <| attempt (char ',')
      blanks
      char ']'
      return .array items
    | some '\x7b' =>
      char '\x7b'
      let entries ← listUntil '\x7d' spaces (do
        let (path, name) ← key
        char '='
        spaces
        let v ← value depth
        return (path, name, v))
      spaces
      char '\x7d'
      inlineTable entries
    | _ => scalar

/-! ## Lines -/

/-- A line, and what it says if it says something. -/
def line : Reader (Option Statement) := do
  spaces
  match ← peek with
  | none => return none
  | some '#' => restOfLine; return none
  | some '\n' => newline; return none
  | some '\r' => newline; return none
  | some '[' =>
    char '['
    if (← peek) = some '[' then
      char '['
      let (path, name) ← key
      word [']', ']']
      restOfLine
      return some (.element path name)
    else
      let (path, name) ← key
      char ']'
      restOfLine
      return some (.header path name)
  | _ =>
    let (path, name) ← key
    char '='
    spaces
    let v ← value depthLimit
    restOfLine
    return some (.entry path name v)

/-- The statements of a whole text, which may start with a byte order mark. -/
def text : Reader (List Statement) := do
  discard <| attempt (char '\ufeff')
  let lines ← many line
  endOfText
  return lines.filterMap id

end Reader

/-- The entries of a settings text. -/
def read? (s : String) : Option (List (String × Toml)) := do
  let (lines, _) ← Reader.text s.toList
  let root ← statements [] [] lines
  return finishEntries root

end Stencil.Toml
