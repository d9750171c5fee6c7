import Mathlib.Data.List.DropRight
import Stencil.Text.Position

/-!
# Lines of a source

Three views of a text agree: its lines, the line and column of a place in it, and the snippet around
that place. A line ends with a line feed, or with a carriage return and a line feed, which belong to
none of the lines; other carriage returns do. Main statements: a text has the lines that are read
off it and no others (`isLines_iff`), a character stands in the line and the column of its position
(`IsLines.exists_line`), and a snippet shows the lines around its position
(`Snippet.write_ofSource`).
-/

namespace Stencil.Text

/-! ## Lines -/

/-- What may stand behind a line to end it: a line feed alone only if the line does not end with a
carriage return, which would be part of the line's end. -/
inductive Ends (line : List Char) : List Char → Prop
  | lineFeed (h : line.getLast? ≠ some '\r') : Ends line ['\n']
  | returnFeed : Ends line ['\r', '\n']

/-- The lines of a text, line by line. The last one may have no end, and then it is not empty. -/
inductive IsLines : List Char → List (List Char) → Prop
  | nil : IsLines [] []
  | last {line : List Char} (hne : line ≠ []) (hline : '\n' ∉ line) : IsLines line [line]
  | ended {line ending rest : List Char} {ls : List (List Char)} (hline : '\n' ∉ line)
      (hending : Ends line ending) (h : IsLines rest ls) :
      IsLines (line ++ (ending ++ rest)) (line :: ls)

/-- The end of a line consists of carriage returns and line feeds. -/
theorem Ends.mem {line ending : List Char} (h : Ends line ending) {c : Char} (hc : c ∈ ending) :
    c = '\r' ∨ c = '\n' := by
  cases h with
  | lineFeed => exact .inr (List.mem_singleton.1 hc)
  | returnFeed => simpa using hc

/-- A line of a text holds no line feed. -/
theorem IsLines.notMem {cs : List Char} {ls : List (List Char)} (h : IsLines cs ls)
    {line : List Char} (hline : line ∈ ls) : '\n' ∉ line := by
  induction h with
  | nil => cases hline
  | last _ hlast =>
    rw [List.mem_singleton] at hline
    rwa [hline]
  | ended hfirst _ _ ih =>
    rcases List.mem_cons.1 hline with rfl | hline
    · exact hfirst
    · exact ih hline

section Reading

variable {c : Char} {cs : List Char}

/-- A character that is no line end is a line of its own if no text follows. -/
theorem lines_cons_of_nil (hc : c ≠ '\n') (hfeed : ∀ rest, c = '\r' → cs ≠ '\n' :: rest)
    (h : lines cs = []) : lines (c :: cs) = [[c]] := by
  rw [lines, h]
  · exact hc
  · exact hfeed

/-- A character that is no line end comes first in the line behind it. -/
theorem lines_cons_of_cons (hc : c ≠ '\n') (hfeed : ∀ rest, c = '\r' → cs ≠ '\n' :: rest)
    {line : List Char} {ls : List (List Char)} (h : lines cs = line :: ls) :
    lines (c :: cs) = (c :: line) :: ls := by
  rw [lines, h]
  · exact hc
  · exact hfeed

/-- The lines of a text with one more character in front that is no line end. -/
theorem IsLines.cons_of_nil (hc : c ≠ '\n') (h : IsLines cs []) : IsLines (c :: cs) [[c]] := by
  cases h
  exact .last (List.cons_ne_nil c []) (by simpa using Ne.symm hc)

/-- The lines of a text with one more character in front that is no line end. -/
theorem IsLines.cons_of_cons {line : List Char} {ls : List (List Char)} (hc : c ≠ '\n')
    (hfeed : ∀ rest, c = '\r' → cs ≠ '\n' :: rest) (h : IsLines cs (line :: ls)) :
    IsLines (c :: cs) ((c :: line) :: ls) := by
  have hmem : ∀ {l : List Char}, '\n' ∉ l → '\n' ∉ c :: l := by
    intro l hl
    rw [List.mem_cons, not_or]
    exact ⟨Ne.symm hc, hl⟩
  cases h with
  | last hne hline => exact .last (List.cons_ne_nil c _) (hmem hline)
  | ended hline hending h =>
    refine .ended (hmem hline) ?_ h
    cases hending with
    | returnFeed => exact .returnFeed
    | lineFeed hlast =>
      apply Ends.lineFeed
      cases line with
      | nil =>
        intro hreturn
        exact hfeed _ (by simpa using hreturn) rfl
      | cons d line => rwa [List.getLast?_cons_cons]

end Reading

/-- The lines that are read off a text are its lines. -/
theorem isLines_lines (cs : List Char) : IsLines cs (lines cs) := by
  fun_induction lines cs with
  | case1 => exact .nil
  | case2 cs ih =>
    show IsLines ([] ++ (['\n'] ++ cs)) _
    exact .ended (by simp) (.lineFeed (by simp)) ih
  | case3 cs ih =>
    show IsLines ([] ++ (['\r', '\n'] ++ cs)) _
    exact .ended (by simp) .returnFeed ih
  | case4 c cs hc hfeed h ih =>
    rw [h] at ih
    exact ih.cons_of_nil hc
  | case5 c cs hc hfeed line ls h ih =>
    rw [h] at ih
    exact ih.cons_of_cons hc hfeed

/-- A text without a line feed is read as one line. -/
theorem lines_of_notMem {line : List Char} (hne : line ≠ []) (h : '\n' ∉ line) :
    lines line = [line] := by
  induction line with
  | nil => exact absurd rfl hne
  | cons c cs ih =>
    rw [List.mem_cons, not_or] at h
    obtain ⟨hc, hcs⟩ := h
    have hfeed : ∀ rest, c = '\r' → cs ≠ '\n' :: rest := by
      rintro rest _ rfl
      exact hcs List.mem_cons_self
    by_cases hnil : cs = []
    · subst hnil
      exact lines_cons_of_nil (Ne.symm hc) hfeed rfl
    · exact lines_cons_of_cons (Ne.symm hc) hfeed (ih hnil hcs)

/-- A line with its end is read off the beginning of a text. -/
theorem lines_append {line ending : List Char} (hline : '\n' ∉ line) (hending : Ends line ending)
    (rest : List Char) : lines (line ++ (ending ++ rest)) = line :: lines rest := by
  induction line with
  | nil => cases hending <;> rfl
  | cons c cs ih =>
    rw [List.mem_cons, not_or] at hline
    obtain ⟨hc, hcs⟩ := hline
    have hends : Ends cs ending := by
      cases hending with
      | returnFeed => exact .returnFeed
      | lineFeed hlast =>
        apply Ends.lineFeed
        cases cs with
        | nil => simp
        | cons d cs => rwa [List.getLast?_cons_cons] at hlast
    refine lines_cons_of_cons (Ne.symm hc) ?_ (ih hcs hends)
    -- a carriage return and a line feed here would be the end of the line
    rintro rest' rfl hfeed
    cases cs with
    | nil =>
      cases hending with
      | returnFeed => cases hfeed
      | lineFeed hlast => exact hlast rfl
    | cons d cs =>
      obtain ⟨rfl, _⟩ := List.cons.inj hfeed
      exact hcs List.mem_cons_self

/-- **Lines are unique.** A text has the lines that are read off it, and no others. -/
theorem isLines_iff (cs : List Char) (ls : List (List Char)) : IsLines cs ls ↔ ls = lines cs := by
  constructor
  · intro h
    induction h with
    | nil => rfl
    | last hne hline => rw [lines_of_notMem hne hline]
    | ended hline hending _ ih => rw [lines_append hline hending, ih]
  · rintro rfl
    exact isLines_lines cs

/-! ## Positions -/

/-- The characters since the last line feed of a text. -/
def lastLine (cs : List Char) : List Char :=
  cs.rtakeWhile (· ≠ '\n')

/-- One more character starts a new line if it is a line feed. -/
theorem lastLine_concat (cs : List Char) (c : Char) :
    lastLine (cs ++ [c]) = if c = '\n' then [] else lastLine cs ++ [c] := by
  rw [lastLine, List.rtakeWhile_concat]
  by_cases hc : c = '\n' <;> simp [hc, lastLine]

/-- More characters without a line feed come behind those since the last one. -/
theorem lastLine_append_of_notMem (before : List Char) {after : List Char} (h : '\n' ∉ after) :
    lastLine (before ++ after) = lastLine before ++ after := by
  induction after using List.reverseRecOn with
  | nil => simp
  | append_singleton after c ih =>
    rw [List.mem_append, List.mem_singleton, not_or] at h
    rw [← List.append_assoc, lastLine_concat, if_neg (Ne.symm h.2), ih h.1, List.append_assoc]

/-- Without a line feed it is the whole text. -/
theorem lastLine_of_notMem {cs : List Char} (h : '\n' ∉ cs) : lastLine cs = cs :=
  lastLine_append_of_notMem [] h

/-- What stands before a line feed does not count. -/
theorem lastLine_append (before after : List Char) :
    lastLine (before ++ '\n' :: after) = lastLine after := by
  induction after using List.reverseRecOn with
  | nil => exact (lastLine_concat before '\n').trans (if_pos rfl)
  | append_singleton after c ih =>
    rw [← List.cons_append, ← List.append_assoc, lastLine_concat, lastLine_concat, ih]

/-- The position behind a text counts its line feeds, and the characters since the last one. -/
theorem after_eq (cs : List Char) :
    Position.after cs = ⟨cs.count '\n' + 1, (lastLine cs).length + 1⟩ := by
  induction cs using List.reverseRecOn with
  | nil => rfl
  | append_singleton cs c ih =>
    have hafter : Position.after (cs ++ [c]) = (Position.after cs).advance c := by
      rw [Position.after, List.foldl_append]
      rfl
    rw [hafter, ih, lastLine_concat, List.count_append, Position.advance]
    by_cases hc : c = '\n'
    · rw [if_pos hc, if_pos hc, hc]
      rfl
    · rw [if_neg hc, if_neg hc, List.count_singleton, if_neg (by simpa using hc)]
      simp

section Ended

variable {line ending : List Char} (hending : Ends line ending)

include hending

/-- The first line of a text with its end stands before a character that ends no line, or the
character is in it. -/
theorem Ends.before_or_inside {rest before after : List Char} {c : Char}
    (h : line ++ (ending ++ rest) = before ++ c :: after) (hfeed : c ≠ '\n') (hreturn : c ≠ '\r') :
    (∃ later, before = line ++ (ending ++ later) ∧ rest = later ++ c :: after) ∨
      ∃ inside, line = before ++ c :: inside := by
  have hnot : c ∉ ending := fun hmem => (hending.mem hmem).elim hreturn hfeed
  rcases List.append_eq_append_iff.1 h with ⟨behind, rfl, hbehind⟩ | ⟨inside, rfl, hinside⟩
  · rcases List.append_eq_append_iff.1 hbehind with ⟨later, rfl, hlater⟩ | ⟨part, rfl, hpart⟩
    · exact .inl ⟨later, rfl, hlater⟩
    · cases part with
      | nil => exact .inl ⟨[], by rw [List.append_nil, List.append_nil], hpart.symm⟩
      | cons d part =>
        obtain ⟨rfl, _⟩ := List.cons.inj hpart
        exact absurd (by simp) hnot
  · cases inside with
    | nil =>
      cases ending with
      | nil => cases hending
      | cons d ending =>
        obtain ⟨rfl, _⟩ := List.cons.inj hinside
        exact absurd List.mem_cons_self hnot
    | cons d inside =>
      obtain ⟨rfl, _⟩ := List.cons.inj hinside
      exact .inr ⟨inside, rfl⟩

/-- A line with its end has one line feed. -/
theorem Ends.count_append (hline : '\n' ∉ line) (later : List Char) :
    (line ++ (ending ++ later)).count '\n' = later.count '\n' + 1 := by
  have hcount : ending.count '\n' = 1 := by cases hending <;> rfl
  rw [List.count_append, List.count_append, List.count_eq_zero.2 hline, hcount]
  omega

/-- A line with its end does not count for the characters since the last line feed. -/
theorem Ends.lastLine_append (later : List Char) :
    lastLine (line ++ (ending ++ later)) = lastLine later := by
  cases hending with
  | lineFeed => exact Text.lastLine_append line later
  | returnFeed =>
    have hreturn : line ++ (['\r', '\n'] ++ later) = (line ++ ['\r']) ++ '\n' :: later := by simp
    rw [hreturn, Text.lastLine_append]

end Ended

/-- A character that ends no line stands in the line of its position, behind the characters since
the last line feed. -/
theorem IsLines.exists_line {text before after : List Char} {ls : List (List Char)} {c : Char}
    (h : IsLines text ls) (htext : text = before ++ c :: after) (hfeed : c ≠ '\n')
    (hreturn : c ≠ '\r') :
    ∃ rest, ls[before.count '\n']? = some (lastLine before ++ c :: rest) := by
  -- in the first line there is no line feed before the character
  have hfirst : ∀ {before inside : List Char} (ls : List (List Char)),
      '\n' ∉ before ++ c :: inside →
      ((before ++ c :: inside) :: ls)[before.count '\n']? =
        some (lastLine before ++ c :: inside) := by
    intro before inside ls hline
    have hbefore : '\n' ∉ before := fun hmem => hline (List.mem_append_left _ hmem)
    rw [List.count_eq_zero.2 hbefore, lastLine_of_notMem hbefore, List.getElem?_cons_zero]
  induction h generalizing before with
  | nil =>
    have hlength := congrArg List.length htext
    simp at hlength
  | last hne hline =>
    subst htext
    exact ⟨after, hfirst [] hline⟩
  | @ended line ending rest ls hline hending h ih =>
    rcases hending.before_or_inside htext hfeed hreturn with ⟨later, rfl, hrest⟩ | ⟨inside, rfl⟩
    · rw [hending.count_append hline, hending.lastLine_append, List.getElem?_cons_succ]
      exact ih hrest
    · exact ⟨inside, hfirst ls hline⟩

/-! ## Snippets -/

namespace Snippet

/-- The numbered rows of the lines from one to another, both included. -/
def numberedRows (lines : List (List Char)) (first last : Nat) : List Char :=
  (List.range' first (last + 1 - first)).flatMap fun n => numberedRow n (lines.getD (n - 1) [])

/-- The last row is that of the last line. -/
theorem numberedRows_eq_append (lines : List (List Char)) {first last : Nat} (hfirst : 1 ≤ first)
    (hlast : first ≤ last) : numberedRows lines first last =
      numberedRows lines first (last - 1) ++ numberedRow last (lines.getD (last - 1) []) := by
  have hcount : last + 1 - first = last - 1 + 1 - first + 1 := by omega
  have hnumber : first + 1 * (last - 1 + 1 - first) = last := by omega
  rw [numberedRows, hcount, List.range'_concat, hnumber, List.flatMap_append,
    List.flatMap_singleton]
  rfl

variable (s : Snippet)

/-- The lines shown are those from the first to the last number. -/
theorem shown_eq (hfirst : 1 ≤ s.first) (hlast : s.last ≤ s.lines.length) :
    s.shown = (List.range' s.first (s.last + 1 - s.first)).map fun n =>
      (n, s.lines.getD (n - 1) []) := by
  have hlength : ((s.lines.drop (s.first - 1)).take (s.last + 1 - s.first)).length =
      s.last + 1 - s.first := by
    rw [List.length_take, List.length_drop]
    omega
  rw [shown, hlength]
  apply List.ext_getElem
  · rw [List.length_zip, List.length_range', hlength, List.length_map, List.length_range',
      Nat.min_self]
  · intro i hi _
    rw [List.length_zip, List.length_range', hlength, Nat.min_self] at hi
    have hline : s.first + 1 * i - 1 < s.lines.length := by omega
    have hindex : s.first - 1 + i = s.first + 1 * i - 1 := by omega
    rw [List.getElem_zip, List.getElem_map, List.getElem_range', List.getElem_take,
      List.getElem_drop, ← List.getElem_eq_getD (h := hline)]
    simp only [hindex]

/-- No caret stands among the rows of lines that are not the line of the error. -/
theorem flatMap_rows (first last : Nat)
    (h : ∀ n, first ≤ n → n ≤ last → n ≠ s.position.line) :
    ((List.range' first (last + 1 - first)).flatMap fun n =>
      s.rows n (s.lines.getD (n - 1) [])) = numberedRows s.lines first last := by
  apply List.flatMap_congr
  intro n hn
  rw [List.mem_range'_1] at hn
  have hne : n ≠ s.position.line := h n hn.1 (by omega)
  rw [rows, if_neg hne, List.append_nil]

/-- The rows of a snippet whose position is in a line that it shows. -/
theorem write_eq (hfirst : 1 ≤ s.first) (hlast : s.last ≤ s.lines.length)
    (habove : s.first ≤ s.position.line) (hbelow : s.position.line ≤ s.last) :
    s.write = numberedRows s.lines s.first s.position.line ++ caretRow s.position.column ++
      numberedRows s.lines (s.position.line + 1) s.last := by
  have hnumbers : List.range' s.first (s.last + 1 - s.first) =
      List.range' s.first (s.position.line - 1 + 1 - s.first) ++ s.position.line ::
        List.range' (s.position.line + 1) (s.last + 1 - (s.position.line + 1)) := by
    have hcount : s.last + 1 - s.first =
        s.position.line - 1 + 1 - s.first + (s.last + 1 - (s.position.line + 1) + 1) := by omega
    have hline : s.first + (s.position.line - 1 + 1 - s.first) = s.position.line := by omega
    rw [hcount, ← List.range'_append_1, hline, List.range'_succ]
  have hwrite : s.write = (List.range' s.first (s.last + 1 - s.first)).flatMap fun n =>
      s.rows n (s.lines.getD (n - 1) []) := by
    rw [write, s.shown_eq hfirst hlast, List.flatMap_map]
  rw [hwrite, hnumbers, List.flatMap_append, List.flatMap_cons, s.flatMap_rows, s.flatMap_rows,
    rows, if_pos rfl, numberedRows_eq_append s.lines hfirst habove]
  · simp only [List.append_assoc]
  · intro n hn _
    omega
  · intro n _ hn
    omega

/-- **The rows of a snippet.** It shows the lines from two before its position to two behind it, as
far as there are such lines, each once and in order, and the caret's row behind that of its line. -/
theorem write_ofSource (source : List Char) (p : Position) (hline : 1 ≤ p.line)
    (hlines : p.line ≤ (Text.lines source).length) :
    (ofSource source p).write =
      numberedRows (Text.lines source) (max 1 (p.line - 2)) p.line ++ caretRow p.column ++
        numberedRows (Text.lines source) (p.line + 1)
          (min (p.line + 2) (Text.lines source).length) := by
  have hfirst : (ofSource source p).first = max 1 (p.line - 2) := Nat.max_comm _ _
  have hlast : (ofSource source p).last = min (p.line + 2) (Text.lines source).length := by
    show max (min (p.line + 2) (Text.lines source).length) (max (p.line - 2) 1) = _
    omega
  rw [write_eq, hfirst, hlast]
  · rfl
  · rw [hfirst]
    exact Nat.le_max_left _ _
  · rw [hlast]
    exact Nat.min_le_right _ _
  · rw [hfirst]
    exact Nat.max_le.2 ⟨hline, Nat.sub_le _ _⟩
  · rw [hlast]
    exact Nat.le_min.2 ⟨Nat.le_add_right _ _, hlines⟩

end Snippet

end Stencil.Text
