import Stencil.Node.Basic

/-!
# Directives

A source text is cut, from left to right, into directives and the text between them. A directive
starts with an at sign; the body of one never holds a brace. An at sign that starts no directive is
text. Each node tree has one canonical source: literals stand as they are, names without blanks around
them. Main statements: what a directive was read from is its text (`eq_of_directive?`), and the
canonical source of two lists in a row is that of the first and then that of the second
(`print_append`).
-/

namespace Stencil.Node

/-! ## Forms -/

/-- A directive of a source text. -/
inductive Directive where
  /-- The start of a conditional. -/
  | openIf (body : List Char)
  /-- The start of a loop. -/
  | openFor (body : List Char)
  /-- The place of a value. -/
  | place (body : List Char)
  /-- The start of the second branch. -/
  | orElse
  /-- The end of a block. -/
  | close (kind : BlockKind)
  deriving DecidableEq, Repr

/-- The text of a directive. -/
def Directive.text : Directive → List Char
  | .openIf body => '@' :: 'i' :: 'f' :: '\x7b' :: body ++ ['\x7d']
  | .openFor body => '@' :: 'f' :: 'o' :: 'r' :: '\x7b' :: body ++ ['\x7d']
  | .place body => '@' :: '\x7b' :: body ++ ['\x7d']
  | .orElse => ['@', 'e', 'l', 's', 'e']
  | .close .conditional => ['@', 'e', 'n', 'd', 'i', 'f']
  | .close .iteration => ['@', 'e', 'n', 'd', 'f', 'o', 'r']

/-- A directive or the text between two of them. -/
inductive Piece where
  | text (cs : List Char)
  | directive (d : Directive)
  deriving DecidableEq, Repr

/-- The text of a piece. -/
def Piece.chars : Piece → List Char
  | .text cs => cs
  | .directive d => d.text

/-! ## Scanning -/

/-- The text up to the next brace and the text after it, if that is a closing brace. -/
def body? : List Char → Option (List Char × List Char)
  | [] => none
  | c :: cs =>
    if c = '\x7d' then some ([], cs)
    else if c = '\x7b' then none
    else (body? cs).map fun (body, rest) => (c :: body, rest)

/-- A body is followed by its closing brace. -/
theorem eq_of_body? {cs body rest : List Char} (h : body? cs = some (body, rest)) :
    cs = body ++ '\x7d' :: rest := by
  induction cs generalizing body with
  | nil => simp [body?] at h
  | cons c cs ih =>
    rw [body?] at h
    split at h
    · next hc => simp_all
    · split at h
      · simp at h
      · obtain ⟨⟨b, r⟩, hb, he⟩ := Option.map_eq_some_iff.1 h
        simp only [Prod.mk.injEq] at he
        obtain ⟨rfl, rfl⟩ := he
        simp [ih hb]

/-- The directive that the text starts with, and the text after it. -/
def directive? : List Char → Option (Directive × List Char)
  | '@' :: '\x7b' :: cs => (body? cs).map fun (body, rest) => (.place body, rest)
  | '@' :: 'i' :: 'f' :: '\x7b' :: cs => (body? cs).map fun (body, rest) => (.openIf body, rest)
  | '@' :: 'f' :: 'o' :: 'r' :: '\x7b' :: cs =>
    (body? cs).map fun (body, rest) => (.openFor body, rest)
  | '@' :: 'e' :: 'l' :: 's' :: 'e' :: cs => some (.orElse, cs)
  | '@' :: 'e' :: 'n' :: 'd' :: 'i' :: 'f' :: cs => some (.close .conditional, cs)
  | '@' :: 'e' :: 'n' :: 'd' :: 'f' :: 'o' :: 'r' :: cs => some (.close .iteration, cs)
  | _ => none

/-- A text that starts with a directive is the directive's text and the rest. -/
theorem eq_of_directive? {cs rest : List Char} {d : Directive}
    (h : directive? cs = some (d, rest)) : cs = d.text ++ rest := by
  unfold directive? at h
  split at h
  case h_7 => simp at h
  case h_4 => simp at h; simp [← h.1, ← h.2, Directive.text]
  case h_5 => simp at h; simp [← h.1, ← h.2, Directive.text]
  case h_6 => simp at h; simp [← h.1, ← h.2, Directive.text]
  all_goals
    obtain ⟨⟨b, r⟩, hb, he⟩ := Option.map_eq_some_iff.1 h
    simp only [Prod.mk.injEq] at he
    obtain ⟨rfl, rfl⟩ := he
    simp [Directive.text, eq_of_body? hb]

/-- The text of a directive is never empty. -/
theorem Directive.length_text_pos (d : Directive) : 0 < d.text.length := by
  unfold Directive.text
  split <;> simp

/-- A directive takes at least one character. -/
theorem length_lt_of_directive? {cs rest : List Char} {d : Directive}
    (h : directive? cs = some (d, rest)) : rest.length < cs.length := by
  have := congrArg List.length (eq_of_directive? h)
  have := d.length_text_pos
  simp at *
  omega

/-- Pieces with one more character of text in front. -/
def consText (c : Char) : List Piece → List Piece
  | .text cs :: ps => .text (c :: cs) :: ps
  | ps => .text [c] :: ps

/-- The pieces of a text. No two texts come in a row, and none is empty. -/
def scan : List Char → List Piece
  | [] => []
  | c :: cs =>
    match h : directive? (c :: cs) with
    | some (d, rest) =>
      have : rest.length ≤ cs.length := Nat.le_of_lt_succ (length_lt_of_directive? h)
      .directive d :: scan rest
    | none => consText c (scan cs)
termination_by cs => cs.length

/-! ## Canonical sources -/

/-- The directive of a placeholder. -/
def placeBody (key : String) : Option String → List Char
  | none => key.toList
  | some default => key.toList ++ '=' :: default.toList

mutual

/-- The canonical source of a node. -/
def printNode : Node → List Char
  | .literal text => text.toList
  | .placeholder key default => (Directive.place (placeBody key default)).text
  | .conditional key whenTrue none =>
    (Directive.openIf key.toList).text ++ print whenTrue ++ (Directive.close .conditional).text
  | .conditional key whenTrue (some whenFalse) =>
    (Directive.openIf key.toList).text ++ print whenTrue ++ Directive.orElse.text ++
      print whenFalse ++ (Directive.close .conditional).text
  | .iteration name collection body =>
    (Directive.openFor (name.toList ++ [' ', 'i', 'n', ' '] ++ collection.toList)).text ++
      print body ++ (Directive.close .iteration).text

/-- The canonical source of a list of nodes. -/
def print : List Node → List Char
  | [] => []
  | n :: ns => printNode n ++ print ns

end

/-- The canonical source of two lists in a row. -/
theorem print_append (ms ns : List Node) : print (ms ++ ns) = print ms ++ print ns := by
  induction ms with
  | nil => simp [print]
  | cons m ms ih => simp [print, ih]

end Stencil.Node
