import Stencil.Proofs.ErrorPlace

/-!
# The caret of a snippet

A snippet sets the numbers of its lines to the right in four places, and leaves as many free before
its caret. So the caret stands under the at sign of the directive at fault in the first 9999 lines of
a source, and from there on to the left of it, by the digits that the number has beyond four. Main
statements: `caret_of_parse_eq_error`, and `Feeds.caret_left_of_sign` for a line that is too far
down.
-/

namespace Stencil

namespace Text

/-! ## Rows -/

namespace Snippet

/-- Numbered rows are whole rows. -/
theorem lastLine_numberedRows (lines : List (List Char)) (first last : Nat) :
    lastLine (numberedRows lines first last) = [] := by
  unfold numberedRows
  generalize last + 1 - first = count
  cases count with
  | zero => rfl
  | succ count =>
    rw [List.range'_concat, List.flatMap_append, List.flatMap_singleton, numberedRow,
      ← List.append_assoc, lastLine_concat, if_pos rfl]

/-- The number of a line takes four places, or as many as it has digits. -/
theorem length_lineNumber (n : Nat) :
    (lineNumber n).length = max 4 (Nat.toDigits 10 n).length := by
  rw [lineNumber, List.length_append, List.length_replicate]
  omega

/-- The number of a line holds no line feed. -/
theorem notMem_lineNumber (n : Nat) : '\n' ∉ lineNumber n := by
  intro h
  rcases List.mem_append.1 h with h | h
  · have hblank := (List.mem_replicate.1 h).2
    cases hblank
  · have hdigit := Nat.isDigit_of_mem_toDigits (by decide) (by decide) h
    cases hdigit

/-- What the row of a line has before the line. -/
def gutter (n : Nat) : List Char :=
  lineNumber n ++ [' ', '|', ' ']

/-- What the row of the caret has before the caret. -/
def margin (column : Nat) : List Char :=
  [' ', ' ', ' ', ' ', ' ', '|', ' '] ++ List.replicate (column - 1) ' '

/-- No line feed stands before a line. -/
theorem notMem_gutter (n : Nat) : '\n' ∉ gutter n := by
  rw [gutter, List.mem_append, not_or]
  exact ⟨notMem_lineNumber n, by decide⟩

/-- Blanks and a bar stand before the caret. -/
theorem eq_of_mem_margin {column : Nat} {c : Char} (h : c ∈ margin column) : c = ' ' ∨ c = '|' := by
  rcases List.mem_append.1 h with h | h
  · simp only [List.mem_cons, List.not_mem_nil, or_false] at h
    tauto
  · exact .inl (List.mem_replicate.1 h).2

/-- The caret stands as far to the left of a character as the number of the line has digits beyond
four. -/
theorem length_margin (n : Nat) (before : List Char) :
    (margin (before.length + 1)).length + ((Nat.toDigits 10 n).length - 4) =
      (gutter n ++ before).length := by
  rw [margin, gutter, List.length_append, List.length_append, List.length_append,
    length_lineNumber, List.length_replicate]
  simp only [List.length_cons, List.length_nil]
  omega

/-- A number has four digits at most if it is below ten thousand. -/
theorem length_margin_eq_iff (n : Nat) (before : List Char) :
    (margin (before.length + 1)).length = (gutter n ++ before).length ↔ n < 10000 := by
  have hdigits : (Nat.toDigits 10 n).length ≤ 4 ↔ n < 10 ^ 4 :=
    Nat.length_toDigits_le_iff (by decide) (by decide)
  have hlength := length_margin n before
  omega

end Snippet

end Text

namespace Node

open Stencil.Text (Snippet lastLine)

/-! ## Signs and carets -/

/-- A snippet shows a caret behind `margin`, in the row below one that has an at sign behind `front`
and before `back`. -/
structure ShowsCaret (snippet front back margin : List Char) : Prop where
  /-- The two rows stand below and above whole rows. -/
  rows : ∃ above below, lastLine above = [] ∧
    snippet = above ++ (front ++ '@' :: back) ++ '\n' :: (margin ++ ['^']) ++ '\n' :: below
  feed_notMem_row : '\n' ∉ front ++ '@' :: back
  feed_notMem_margin : '\n' ∉ margin
  caret_notMem_margin : '^' ∉ margin

/-- The at sign and the caret are characters of the snippet, and what stands before them in their
rows is what stands before them since the last line feed. -/
theorem ShowsCaret.exists_getElem? {snippet front back margin : List Char}
    (h : ShowsCaret snippet front back margin) :
    ∃ i j, snippet[i]? = some '@' ∧ lastLine (snippet.take i) = front ∧
      snippet[j]? = some '^' ∧ lastLine (snippet.take j) = margin := by
  obtain ⟨above, below, habove, hsnippet⟩ := h.rows
  have hsign : snippet =
      (above ++ front) ++ '@' :: (back ++ '\n' :: (margin ++ '^' :: '\n' :: below)) := by
    rw [hsnippet]
    simp
  have hcaret : snippet =
      (above ++ (front ++ '@' :: back) ++ '\n' :: margin) ++ '^' :: '\n' :: below := by
    rw [hsnippet]
    simp
  have hfront : '\n' ∉ front := fun hmem => h.feed_notMem_row (List.mem_append_left _ hmem)
  refine ⟨(above ++ front).length,
    (above ++ (front ++ '@' :: back) ++ '\n' :: margin).length, ?_, ?_, ?_, ?_⟩
  · rw [hsign, List.getElem?_append_right (Nat.le_refl _), Nat.sub_self, List.getElem?_cons_zero]
  · rw [hsign, List.take_left, Text.lastLine_append_of_notMem _ hfront, habove, List.nil_append]
  · rw [hcaret, List.getElem?_append_right (Nat.le_refl _), Nat.sub_self, List.getElem?_cons_zero]
  · rw [hcaret, List.take_left, Text.lastLine_append, Text.lastLine_of_notMem h.feed_notMem_margin]

/-- The snippet of an error shows the caret below the line of the directive that it points at. -/
theorem PointsAt.showsCaret {e : ParseError} {source before : List Char}
    (h : PointsAt e source before) :
    ∃ back, ShowsCaret e.snippet.write (Snippet.gutter e.position.line ++ lastLine before) back
      (Snippet.margin e.position.column) := by
  obtain ⟨text, hline, ⟨back, hback⟩, _⟩ := h.sign
  have htext : text = lastLine before ++ '@' :: back := by
    rw [← hback, List.append_assoc, List.singleton_append]
  have hget : e.snippet.lines.getD (e.position.line - 1) [] = text := by
    rw [List.getD_eq_getElem?_getD, hline, Option.getD_some]
  have hfirst : max 1 (e.position.line - 2) ≤ e.position.line := by
    rw [h.line]
    omega
  have hwrite : e.snippet.write =
      Snippet.numberedRows e.snippet.lines (max 1 (e.position.line - 2)) (e.position.line - 1) ++
        (Snippet.gutter e.position.line ++ lastLine before ++ '@' :: back) ++
        '\n' :: (Snippet.margin e.position.column ++ ['^']) ++
        '\n' :: Snippet.numberedRows e.snippet.lines (e.position.line + 1)
          (min (e.position.line + 2) e.snippet.lines.length) := by
    rw [h.write, Snippet.numberedRows_eq_append _ (Nat.le_max_left _ _) hfirst, hget, htext,
      Snippet.numberedRow, Snippet.caretRow, Snippet.gutter, Snippet.margin]
    simp only [List.append_assoc, List.cons_append, List.nil_append]
  refine ⟨back, ⟨_, _, Snippet.lastLine_numberedRows _ _ _, hwrite⟩, ?_, ?_, ?_⟩
  · rw [List.append_assoc, List.mem_append, not_or, ← htext]
    exact ⟨Snippet.notMem_gutter _, h.lines.notMem (List.mem_of_getElem? hline)⟩
  · intro hfeed
    exact absurd (Snippet.eq_of_mem_margin hfeed) (by decide)
  · intro hcaret
    exact absurd (Snippet.eq_of_mem_margin hcaret) (by decide)

/-- **The caret of an error.** It stands below the at sign of the directive if the number of the
line has four digits at most; otherwise to the left of it, by the digits beyond these. -/
theorem caret_of_parse_eq_error (limit : Nat) (source : String) (e : ParseError)
    (h : parse limit source = .error e) :
    ∃ before d after front back margin,
      IsCut source.toList (before ++ .directive d :: after) ∧
      e.offset = Text.byteLength (before.flatMap Piece.chars) ∧
      ShowsCaret e.snippet.write front back margin ∧
      front = Snippet.gutter e.position.line ++ lastLine (before.flatMap Piece.chars) ∧
      margin.length + ((Nat.toDigits 10 e.position.line).length - 4) = front.length ∧
      (margin.length = front.length ↔ e.position.line < 10000) := by
  obtain ⟨before, d, after, kind, hcut, rfl⟩ := exists_ofOffset_of_parse_eq_error h
  have hpoints := PointsAt.of_isCut hcut kind
  obtain ⟨back, hshows⟩ := hpoints.showsCaret
  refine ⟨before, d, after, _, back, _, hcut, hpoints.offset, hshows, rfl, ?_, ?_⟩
  · rw [hpoints.column]
    exact Snippet.length_margin _ _
  · rw [hpoints.column]
    exact Snippet.length_margin_eq_iff _ _

/-- In the second line of a source the caret stands below the at sign. -/
theorem LooseEnd.caret_of_parse_eq_error_endif :
    ∃ e, parse 50 source = .error e ∧ e.position.line = 2 ∧
      ∃ front back margin, ShowsCaret e.snippet.write front back margin ∧
        margin.length = front.length := by
  refine ⟨_, parse_source 50, rfl, ?_⟩
  obtain ⟨_, _, _, front, back, margin, _, _, hshows, _, _, hbelow⟩ :=
    caret_of_parse_eq_error 50 source _ (parse_source 50)
  exact ⟨front, back, margin, hshows, hbelow.2 (by decide)⟩

/-! ## A line far down -/

namespace Feeds

/-- The end of a conditional that was not started. -/
def closer : Directive := .close .conditional

/-- It stands behind empty lines. -/
def source (n : Nat) : String :=
  String.ofList (List.replicate n '\n' ++ closer.text)

/-- The source is its line feeds and its directive. -/
theorem scan_source {n : Nat} (hn : n ≠ 0) : scan (source n).toList =
    [.text (List.replicate n '\n'), .directive closer] := by
  have hcloser : scan closer.text = [.directive closer] := by decide +kernel
  rw [source, String.toList_ofList, scan_append_of_not_starts, hcloser]
  · rwa [Ne, List.replicate_eq_nil_iff]
  · intro ds qs h
    rw [hcloser] at h
    cases h
  · rintro i hi ⟨d, rest, _, h⟩
    obtain ⟨tail, htext⟩ := d.exists_text_eq
    rw [List.length_replicate] at hi
    obtain ⟨k, hk⟩ : ∃ k, n - i = k + 1 := ⟨n - i - 1, by omega⟩
    rw [List.drop_replicate, hk, htext] at h
    cases h

/-- The parser fails at the directive. -/
theorem parse_source (limit : Nat) {n : Nat} (hn : n ≠ 0) : parse limit (source n) =
    .error (.ofOffset (.danglingEnd .conditional none) (source n).toList
      (Text.byteLength (List.replicate n '\n'))) := by
  unfold parse parseChars
  rw [scan_source hn]
  show Except.error (ParseError.ofOffset _ _ (0 + _)) = _
  rw [Nat.zero_add]
  rfl

/-- The directive is the first of its line. -/
theorem position_source (kind : ParseErrorKind) (n : Nat) :
    (ParseError.ofOffset kind (source n).toList
      (Text.byteLength (List.replicate n '\n'))).position = ⟨n + 1, 1⟩ := by
  have hfirst : lastLine (List.replicate n '\n') = [] := by
    cases n with
    | zero => rfl
    | succ n => rw [List.replicate_succ', Text.lastLine_concat, if_pos rfl]
  rw [source, String.toList_ofList, position_ofOffset, List.count_replicate_self, hfirst]
  rfl

/-- The lines of the source are as many empty ones, and that of the directive. -/
theorem lines_source (n : Nat) :
    Text.lines (source n).toList = List.replicate n [] ++ [closer.text] := by
  rw [source, String.toList_ofList]
  induction n with
  | zero => rfl
  | succ n ih =>
    rw [List.replicate_succ, List.cons_append, Text.lines, ih]
    rfl

/-- The snippet of the source. -/
theorem write_ofSource_source (n : Nat) :
    (Snippet.ofSource (source (n + 2)).toList ⟨n + 3, 1⟩).write =
      Snippet.numberedRow (n + 1) [] ++ Snippet.numberedRow (n + 2) [] ++
        Snippet.numberedRow (n + 3) closer.text ++ Snippet.caretRow 1 := by
  have hlength : (List.replicate (n + 2) [] ++ [closer.text]).length = n + 3 := by simp
  have hempty : ∀ i < n + 2, (List.replicate (n + 2) [] ++ [closer.text]).getD i [] = [] := by
    intro i hi
    have hi' : i < (List.replicate (n + 2) ([] : List Char)).length := by
      rwa [List.length_replicate]
    rw [List.getD_eq_getElem?_getD, List.getElem?_append_left hi', List.getElem?_replicate,
      if_pos hi, Option.getD_some]
  have hlast : (List.replicate (n + 2) [] ++ [closer.text]).getD (n + 2) [] = closer.text := by
    simp
  have habove : n + 3 + 1 - max 1 (n + 3 - 2) = 3 := by omega
  have hfirst : max 1 (n + 3 - 2) = n + 1 := by omega
  have hbelow : min (n + 3 + 2) (n + 3) + 1 - (n + 3 + 1) = 0 := by omega
  rw [Snippet.write_ofSource, lines_source, hlength, Snippet.numberedRows, Snippet.numberedRows,
    habove, hfirst, hbelow]
  · show Snippet.numberedRow (n + 1) (List.getD _ n []) ++
      (Snippet.numberedRow (n + 2) (List.getD _ (n + 1) []) ++
        (Snippet.numberedRow (n + 3) (List.getD _ (n + 2) []) ++ [])) ++ _ ++ [] = _
    rw [hempty n (by omega), hempty (n + 1) (by omega), hlast]
    simp only [List.append_assoc, List.append_nil]
  · exact Nat.le_add_left 1 _
  · rw [lines_source, hlength]

/-- **A caret to the left of its sign.** In line 10000 it stands one character too far to the
left. -/
theorem caret_left_of_sign : ∃ e, parse 50 (source 9999) = .error e ∧ e.position = ⟨10000, 1⟩ ∧
    String.ofList e.snippet.write = "9998 | \n9999 | \n10000 | @endif\n     | ^\n" ∧
    ShowsCaret e.snippet.write "10000 | ".toList "endif".toList "     | ".toList ∧
    ∀ front back margin, ShowsCaret e.snippet.write front back margin →
      margin.length + 1 = front.length := by
  have hparse := parse_source 50 (show 9999 ≠ 0 by decide)
  have hposition := position_source (.danglingEnd .conditional none) 9999
  have hsnippet := snippet_ofOffset (.danglingEnd .conditional none) (source 9999).toList
    (Text.byteLength (List.replicate 9999 '\n'))
  rw [hposition] at hsnippet
  have hwrite : (Snippet.ofSource (source 9999).toList ⟨10000, 1⟩).write =
      "9998 | \n9999 | \n10000 | @endif\n     | ^\n".toList := by
    rw [write_ofSource_source 9997]
    rfl
  refine ⟨_, hparse, hposition, ?_, ?_, ?_⟩
  · rw [hsnippet, hwrite]
    rfl
  · rw [hsnippet, hwrite]
    exact ⟨⟨"9998 | \n9999 | \n".toList, [], rfl, rfl⟩, by decide, by decide, by decide⟩
  · intro front back margin h
    rw [hsnippet, hwrite] at h
    obtain ⟨i, j, hi, hfront, hj, hmargin⟩ := h.exists_getElem?
    -- the text has one at sign and one caret
    have hsign : ∀ i < 40, "9998 | \n9999 | \n10000 | @endif\n     | ^\n".toList[i]? = some '@' →
        i = 24 := by decide
    have hcaret : ∀ j < 40, "9998 | \n9999 | \n10000 | @endif\n     | ^\n".toList[j]? = some '^' →
        j = 38 := by decide
    obtain ⟨hi', _⟩ := List.getElem?_eq_some_iff.1 hi
    obtain ⟨hj', _⟩ := List.getElem?_eq_some_iff.1 hj
    rw [hsign i hi' hi] at hfront
    rw [hcaret j hj' hj] at hmargin
    rw [← hfront, ← hmargin]
    rfl

end Feeds

end Node

end Stencil
