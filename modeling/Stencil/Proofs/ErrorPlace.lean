import Stencil.Proofs.FirstFault
import Stencil.Proofs.SourceLines

/-!
# The place of an error

An error of the parser tells where it stands by a byte offset, by a line and a column, and by a
snippet of the source. All three mean one place, and a directive starts there. Main statement:
`pointsAt_of_parse_eq_error`.
-/

namespace Stencil.Node

open Stencil.Text (IsLines Position Snippet lastLine)

/-! ## Places -/

/-- An error points at the character of a source that follows some others. -/
structure PointsAt (e : ParseError) (source before : List Char) : Prop where
  /-- The offset counts the bytes before the character. -/
  offset : e.offset = Text.byteLength before
  line : e.position.line = before.count '\n' + 1
  column : e.position.column = (lastLine before).length + 1
  /-- The lines are those of the source. -/
  lines : IsLines source e.snippet.lines
  line_le : e.position.line ≤ e.snippet.lines.length
  /-- At the line and the column there is an at sign, behind the characters before the place. -/
  sign : ∃ text, e.snippet.lines[e.position.line - 1]? = some text ∧
    lastLine before ++ ['@'] <+: text ∧ text[e.position.column - 1]? = some '@'
  /-- Each of the lines around the place is shown once, and the caret's row below its line. -/
  write : e.snippet.write =
    Snippet.numberedRows e.snippet.lines (max 1 (e.position.line - 2)) e.position.line ++
      Snippet.caretRow e.position.column ++
      Snippet.numberedRows e.snippet.lines (e.position.line + 1)
        (min (e.position.line + 2) e.snippet.lines.length)

/-- The snippet of an error is that of its position. -/
theorem snippet_ofOffset (kind : ParseErrorKind) (source : List Char) (offset : Nat) :
    (ParseError.ofOffset kind source offset).snippet =
      Snippet.ofSource source (ParseError.ofOffset kind source offset).position := rfl

/-- The position of the place behind some characters. -/
theorem position_ofOffset (kind : ParseErrorKind) (before rest : List Char) :
    (ParseError.ofOffset kind (before ++ rest) (Text.byteLength before)).position =
      ⟨before.count '\n' + 1, (lastLine before).length + 1⟩ := by
  rw [ParseError.ofOffset, Position.ofOffset, Text.takeBytes?_append, Option.getD_some,
    Text.after_eq]

/-- An error at the byte offset of an at sign points at it. -/
theorem pointsAt_ofOffset (kind : ParseErrorKind) (before rest : List Char) :
    PointsAt (.ofOffset kind (before ++ '@' :: rest) (Text.byteLength before))
      (before ++ '@' :: rest) before := by
  have hposition := position_ofOffset kind before ('@' :: rest)
  have hsnippet := snippet_ofOffset kind (before ++ '@' :: rest) (Text.byteLength before)
  generalize he : ParseError.ofOffset kind (before ++ '@' :: rest) (Text.byteLength before) = e
  rw [he] at hposition hsnippet
  have hoffset : e.offset = Text.byteLength before := by rw [← he]; rfl
  have hline : e.position.line = before.count '\n' + 1 := by rw [hposition]
  have hcolumn : e.position.column = (lastLine before).length + 1 := by rw [hposition]
  have hlines : e.snippet.lines = Text.lines (before ++ '@' :: rest) := by rw [hsnippet]; rfl
  -- the at sign ends no line, so it is in one
  obtain ⟨tail, htext⟩ := (Text.isLines_lines (before ++ '@' :: rest)).exists_line rfl
    (by decide) (by decide)
  obtain ⟨hle, _⟩ := List.getElem?_eq_some_iff.1 htext
  constructor
  case offset => exact hoffset
  case line => exact hline
  case column => exact hcolumn
  case lines =>
    rw [hlines]
    exact Text.isLines_lines _
  case line_le =>
    rw [hline, hlines]
    exact hle
  case sign =>
    refine ⟨lastLine before ++ '@' :: tail, ?_, ⟨tail, by simp⟩, ?_⟩
    · rw [hline, hlines]
      exact htext
    · rw [hcolumn]
      simp
  case write =>
    rw [hlines, hsnippet, Snippet.write_ofSource]
    · rw [hline]
      omega
    · rw [hline]
      exact hle

/-- A directive starts with an at sign. -/
theorem Directive.exists_text_eq (d : Directive) : ∃ rest, d.text = '@' :: rest := by
  cases d with
  | close kind => cases kind <;> exact ⟨_, rfl⟩
  | _ => exact ⟨_, rfl⟩

/-- An error at the byte offset of a directive points at it. -/
theorem PointsAt.of_isCut {source : List Char} {before after : List Piece} {d : Directive}
    (hcut : IsCut source (before ++ .directive d :: after)) (kind : ParseErrorKind) :
    PointsAt (.ofOffset kind source (Text.byteLength (before.flatMap Piece.chars))) source
      (before.flatMap Piece.chars) := by
  obtain ⟨rest, htext⟩ := d.exists_text_eq
  have hsource : source =
      before.flatMap Piece.chars ++ '@' :: (rest ++ after.flatMap Piece.chars) := by
    rw [← hcut.chars, List.flatMap_append, List.flatMap_cons, Piece.chars, htext, List.cons_append]
  rw [hsource]
  exact pointsAt_ofOffset kind _ _

/-! ## Errors of the parser -/

/-- The parser fails at one of the directives that the source is cut into. -/
theorem exists_directive_of_parseChars_eq_error {limit : Nat} {source : List Char}
    {kind : ParseErrorKind} {offset : Nat} (h : parseChars limit source = .error (kind, offset)) :
    ∃ before d after, IsCut source (before ++ .directive d :: after) ∧
      offset = Text.byteLength (before.flatMap Piece.chars) := by
  have hcut := isCut_scan source
  unfold parseChars at h
  split at h
  · next hrun =>
    cases h
    obtain ⟨before, d, after, hpieces, _, hoffset, _⟩ := exists_firstStuck hrun
    rw [hpieces] at hcut
    exact ⟨before, d, after, hcut, hoffset⟩
  · next hrun =>
    obtain ⟨before, d, after, _, _, hpieces, _, hoffset, _⟩ := exists_unclosed hrun h
    rw [hpieces] at hcut
    exact ⟨before, d, after, hcut, hoffset⟩

/-- The error of the parser is the one of its kind at the offset of one of these directives. -/
theorem exists_ofOffset_of_parse_eq_error {limit : Nat} {source : String} {e : ParseError}
    (h : parse limit source = .error e) :
    ∃ before d after kind, IsCut source.toList (before ++ .directive d :: after) ∧
      e = .ofOffset kind source.toList (Text.byteLength (before.flatMap Piece.chars)) := by
  unfold parse at h
  split at h
  · next kind offset hchars =>
    cases h
    obtain ⟨before, d, after, hcut, rfl⟩ := exists_directive_of_parseChars_eq_error hchars
    exact ⟨before, d, after, kind, hcut, rfl⟩
  · cases h

/-- **The place of an error.** It is the start of one of the directives that the source is cut
into. -/
theorem pointsAt_of_parse_eq_error (limit : Nat) (source : String) (e : ParseError)
    (h : parse limit source = .error e) :
    ∃ before d after, IsCut source.toList (before ++ .directive d :: after) ∧
      PointsAt e source.toList (before.flatMap Piece.chars) := by
  obtain ⟨before, d, after, kind, hcut, rfl⟩ := exists_ofOffset_of_parse_eq_error h
  exact ⟨before, d, after, hcut, .of_isCut hcut kind⟩

namespace LooseEnd

/-- The end of a conditional that was not started, behind a character of two bytes. -/
def source : String := "a\r\né @endif\nb"

/-- The parser fails at the end. -/
theorem parse_source (limit : Nat) : parse limit source =
    .error (.ofOffset (.danglingEnd .conditional none) source.toList 6) := by
  have hscan : scan source.toList = [.text ['a', '\r', '\n', 'é', ' '],
      .directive (.close .conditional), .text ['\n', 'b']] := by
    decide +kernel
  unfold parse parseChars
  rw [hscan]
  rfl

/-- The error stands in the second line, at its third character. -/
theorem pointsAt_of_parse_eq_error_endif :
    ∃ e, parse 50 source = .error e ∧ e.offset = 6 ∧ e.position = ⟨2, 3⟩ ∧
      String.ofList e.snippet.write = "   1 | a\n   2 | é @endif\n     |   ^\n   3 | b\n" ∧
      ∃ before d after, IsCut source.toList (before ++ .directive d :: after) ∧
        PointsAt e source.toList (before.flatMap Piece.chars) :=
  ⟨_, parse_source 50, rfl, rfl, rfl, pointsAt_of_parse_eq_error 50 source _ (parse_source 50)⟩

end LooseEnd

end Stencil.Node
