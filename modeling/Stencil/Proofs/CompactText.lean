import Stencil.Proofs.Documents

/-!
# Compact texts

The text of a document without any space between its tokens. Nothing but the character behind it
ends a number there, so a number is scanned whole as long as this character does not go on with it;
a comma, a bracket and a brace never do. An integer is spelled by its sign and its digits, which is
no spelling of a double, and so it comes back as the same integer. Main statement: a document whose
numbers are integers is read back from its compact text if it nests no deeper than the reader
allows (`read_compact`).
-/

namespace Stencil.Json

/-! ## Integers -/

namespace Number

/-- The digits of a number spell it. -/
theorem natOfDigits_toDigits (n : Nat) : natOfDigits (Nat.toDigits 10 n) = n := by
  have hvalue : Nat.ofDigitChars 10 (Nat.toDigits 10 n) 0 = n := Nat.ofDigitChars_ten_toDigits
  rw [Nat.ofDigitChars_eq_foldl] at hvalue
  exact hvalue

/-- No number but zero starts with the digit zero. -/
theorem toDigits_ne_zero_cons {n : Nat} (hn : 0 < n) (cs : List Char) :
    Nat.toDigits 10 n ≠ '0' :: cs := by
  induction n using Nat.strongRecOn generalizing cs with
  | ind n ih =>
    rw [Nat.toDigits_eq_if (by decide)]
    split
    · next hsmall =>
      have hdigit : ∀ d < 10, 0 < d → Nat.digitChar d ≠ '0' := by decide
      intro heq
      exact hdigit n hsmall hn (List.cons.inj heq).1
    · next hlarge =>
      -- the first digit is the one of a tenth of the number
      obtain ⟨d, ds, hds⟩ := List.exists_cons_of_ne_nil (Nat.toDigits_ne_nil (n := n / 10) (b := 10))
      intro heq
      rw [hds, List.cons_append] at heq
      rw [(List.cons.inj heq).1] at hds
      exact ih (n / 10) (by omega) (by omega) ds hds

/-- The sign and the magnitude of an integer in range are those of the integer. -/
theorem integer?_natAbs (n : Int) (h : Word.least ≤ n ∧ n < Word.count) :
    integer? (decide (n < 0)) n.natAbs = some (.integer n h) := by
  have hzero : (decide (n < 0) && n.natAbs == 0) = false := by
    rw [Bool.and_eq_false_iff, decide_eq_false_iff_not, beq_eq_false_iff_ne]
    omega
  have hvalue : (if decide (n < 0) = true then -(n.natAbs : Int) else (n.natAbs : Int)) = n := by
    simp only [decide_eq_true_eq]
    split <;> omega
  rw [integer?, hzero]
  simp only [Bool.false_eq_true, if_false, hvalue, dif_pos h]

/-- The digits of an integer in range are read as the integer. -/
theorem ofWhole?_toDigits (n : Int) (h : Word.least ≤ n ∧ n < Word.count) :
    ofWhole? (decide (n < 0)) (Nat.toDigits 10 n.natAbs) = some (.integer n h) := by
  rw [ofWhole?, natOfDigits_toDigits, integer?_natAbs n h]

end Number

/-! ## Numbers inside a text -/

/-- What a text goes on with does not go on with a number. -/
def EndsNumber (rest : List Char) : Prop :=
  ∀ c ∈ rest.head?, c.isDigit = false ∧ c ≠ '.' ∧ c ≠ 'e' ∧ c ≠ 'E'

/-- A number ends where the text ends. -/
theorem endsNumber_nil : EndsNumber [] := by
  intro c hc
  cases hc

/-- A number ends in front of a character that has no place in a number. -/
theorem endsNumber_cons {c : Char}
    (h : c.isDigit = false ∧ c ≠ '.' ∧ c ≠ 'e' ∧ c ≠ 'E') (rest : List Char) :
    EndsNumber (c :: rest) := by
  intro d hd
  obtain rfl : c = d := Option.some.inj hd
  exact h

/-- Digits are cut off whole. -/
theorem digits?_append {ds rest : List Char} (hne : ds ≠ []) (hds : ∀ c ∈ ds, c.isDigit = true)
    (hrest : EndsNumber rest) : Token.digits? (ds ++ rest) = some (ds, rest) := by
  have htake : (ds ++ rest).takeWhile Char.isDigit = ds := by
    rw [List.takeWhile_append_of_pos hds]
    cases rest with
    | nil => simp
    | cons c rest => simp [(hrest c rfl).1]
  have hdrop : (ds ++ rest).dropWhile Char.isDigit = rest := by
    rw [List.dropWhile_append_of_pos hds]
    cases rest with
    | nil => rfl
    | cons c rest => simp [(hrest c rfl).1]
  rw [Token.digits?, htake, hdrop]
  split
  · exact absurd rfl hne
  · rfl

/-- The digits of a number are cut off whole. -/
theorem wholeDigits?_toDigits (n : Nat) {rest : List Char} (hrest : EndsNumber rest) :
    Token.wholeDigits? (Nat.toDigits 10 n ++ rest) = some (Nat.toDigits 10 n, rest) := by
  rcases Nat.eq_zero_or_pos n with rfl | hn
  · rw [Nat.toDigits_zero]
    rfl
  · have hne : Nat.toDigits 10 n ≠ [] := Nat.toDigits_ne_nil
    have hdigits : ∀ c ∈ Nat.toDigits 10 n, c.isDigit = true := fun c hc =>
      Nat.isDigit_of_mem_toDigits (by decide) (by decide) hc
    unfold Token.wholeDigits?
    split
    · next cs heq =>
      obtain ⟨d, ds, hds⟩ := List.exists_cons_of_ne_nil hne
      rw [hds, List.cons_append] at heq
      exact absurd ((List.cons.inj heq).1 ▸ hds) (Number.toDigits_ne_zero_cons hn ds)
    · exact digits?_append hne hdigits hrest

/-- No fraction comes where a number ends. -/
theorem fractionDigits?_of_endsNumber {rest : List Char} (h : EndsNumber rest) :
    Token.fractionDigits? rest = some (none, rest) := by
  unfold Token.fractionDigits?
  split
  · exact absurd rfl (h _ rfl).2.1
  · rfl

/-- No exponent comes where a number ends. -/
theorem exponent?_of_endsNumber {rest : List Char} (h : EndsNumber rest) :
    Token.exponent? rest = some (none, rest) := by
  cases rest with
  | nil => rfl
  | cons c rest =>
    obtain ⟨-, -, hlower, hupper⟩ := h c rfl
    unfold Token.exponent?
    exact if_neg (by simp [hlower, hupper])

/-- The digits of an integer in range are cut off as the integer. -/
theorem magnitude?_toDigits (n : Int) (h : Word.least ≤ n ∧ n < Word.count)
    {rest : List Char} (hrest : EndsNumber rest) :
    Token.magnitude? (decide (n < 0)) (Nat.toDigits 10 n.natAbs ++ rest) =
      some (.integer n h, rest) := by
  rw [Token.magnitude?, wholeDigits?_toDigits n.natAbs hrest]
  show (Token.fractionDigits? rest >>= _) = _
  rw [fractionDigits?_of_endsNumber hrest]
  show (Token.exponent? rest >>= _) = _
  rw [exponent?_of_endsNumber hrest]
  show (Number.ofWhole? (decide (n < 0)) (Nat.toDigits 10 n.natAbs)).map (·, rest) = _
  rw [Number.ofWhole?_toDigits n h]
  rfl

/-- A digit differs from any character that is none. -/
theorem ne_of_isDigit {c d : Char} (hc : c.isDigit = true) (hd : d.isDigit = false) : c ≠ d := by
  rintro rfl
  rw [hc] at hd
  cases hd

/-- A digit is no blank. -/
theorem isSpace_of_isDigit {c : Char} (h : c.isDigit = true) : Token.isSpace c = false := by
  have hne := fun {d : Char} (hd : d.isDigit = false) => ne_of_isDigit h hd
  simp [Token.isSpace, hne]

/-- A digit starts a number without a sign. -/
theorem token?_of_isDigit {c : Char} (h : c.isDigit = true) (cs : List Char) :
    Token.token? (c :: cs) =
      (Token.magnitude? false (c :: cs)).map fun found => (.number found.1, found.2) := by
  unfold Token.token?
  split
  case h_12 => rfl
  all_goals
    next heq => exact absurd (List.cons.inj heq).1 (ne_of_isDigit h (by decide))

/-- An integer is one token where a number ends behind it. -/
theorem scan_writeInt (n : Int) (h : Word.least ≤ n ∧ n < Word.count) {rest : List Char}
    (hrest : EndsNumber rest) :
    Token.scan (Number.writeInt n ++ rest) = .number (.integer n h) :: Token.scan rest := by
  have hmagnitude := magnitude?_toDigits n h hrest
  by_cases hn : n < 0
  · have htext : Number.writeInt n ++ rest = '-' :: (Nat.toDigits 10 n.natAbs ++ rest) := by
      simp [Number.writeInt, hn]
    rw [decide_eq_true hn] at hmagnitude
    rw [htext]
    apply scan_of_token? (by decide)
    show (Token.magnitude? true _).map (fun found => (Token.number found.1, found.2)) = _
    rw [hmagnitude]
    rfl
  · have htext : Number.writeInt n ++ rest = Nat.toDigits 10 n.natAbs ++ rest := by
      simp [Number.writeInt, hn]
    obtain ⟨d, ds, hds⟩ :=
      List.exists_cons_of_ne_nil (Nat.toDigits_ne_nil (n := n.natAbs) (b := 10))
    have hdigit : d.isDigit = true :=
      Nat.isDigit_of_mem_toDigits (by decide) (by decide) (hds ▸ List.mem_cons_self)
    rw [decide_eq_false hn, hds, List.cons_append] at hmagnitude
    rw [htext, hds, List.cons_append]
    apply scan_of_token? (isSpace_of_isDigit hdigit)
    rw [token?_of_isDigit hdigit, hmagnitude]
    rfl

/-! ## Documents -/

mutual

/-- Every number of a document is an integer. -/
def Integral : Json → Prop
  | .null => True
  | .bool _ => True
  | .number (.integer _ _) => True
  | .number (.float _) => False
  | .string _ => True
  | .array items => ItemsIntegral items
  | .object entries => EntriesIntegral entries

/-- Every number in the elements of an array is an integer. -/
def ItemsIntegral : List Json → Prop
  | [] => True
  | v :: vs => Integral v ∧ ItemsIntegral vs

/-- Every number in the entries of an object is an integer. -/
def EntriesIntegral : List (String × Json) → Prop
  | [] => True
  | (_, v) :: es => Integral v ∧ EntriesIntegral es

end

/-- A comma, a bracket and a brace end a number. -/
theorem endsNumber_punctuation {c : Char} (h : c = ',' ∨ c = ']' ∨ c = '\x7d')
    (rest : List Char) : EndsNumber (c :: rest) := by
  apply endsNumber_cons
  rcases h with rfl | rfl | rfl <;> decide

mutual

/-- **The compact text of a document.** What is written for a document whose numbers are integers is
scanned into the tokens of the document, where a number would end behind it. -/
theorem scan_writeCompact : ∀ (v : Json) (rest : List Char), v.Integral → EndsNumber rest →
    Token.scan (writeCompact v ++ rest) = v.tokens ++ Token.scan rest
  | .null, rest, _, _ => scan_writeIndented .null 0 rest trivial
  | .bool b, rest, _, _ => scan_writeIndented (.bool b) 0 rest trivial
  | .number (.integer n hn), _, _, hrest => scan_writeInt n hn hrest
  | .number (.float _), _, h, _ => h.elim
  | .string s, rest, _, _ => scan_writeString s rest
  | .array items, rest, h, _ => by
    have hitems := scan_writeItems items (']' :: rest) h (endsNumber_punctuation (by simp) rest)
    have htext : writeCompact (.array items) ++ rest =
        '[' :: (writeItems items ++ ']' :: rest) := by
      simp [writeCompact]
    rw [htext, scan_of_token? (by decide) rfl, hitems, scan_of_token? (by decide) rfl]
    simp [tokens]
  | .object entries, rest, h, _ => by
    have hentries := scan_writeEntries entries ('\x7d' :: rest) h
      (endsNumber_punctuation (by simp) rest)
    have htext : writeCompact (.object entries) ++ rest =
        '\x7b' :: (writeEntries entries ++ '\x7d' :: rest) := by
      simp [writeCompact]
    rw [htext, scan_of_token? (by decide) rfl, hentries, scan_of_token? (by decide) rfl]
    simp [tokens]

/-- The elements of an array are scanned into their tokens. -/
theorem scan_writeItems : ∀ (items : List Json) (rest : List Char), ItemsIntegral items →
    EndsNumber rest → Token.scan (writeItems items ++ rest) = itemTokens items ++ Token.scan rest
  | [], _, _, _ => rfl
  | [v], rest, h, hrest => scan_writeCompact v rest h.1 hrest
  | v :: w :: vs, rest, h, hrest => by
    have hlater := scan_writeItems (w :: vs) rest h.2 hrest
    have hfirst := scan_writeCompact v (',' :: (writeItems (w :: vs) ++ rest)) h.1
      (endsNumber_punctuation (by simp) _)
    have htext : writeItems (v :: w :: vs) ++ rest =
        writeCompact v ++ ',' :: (writeItems (w :: vs) ++ rest) := by
      simp [writeItems]
    rw [htext, hfirst, scan_of_token? (by decide) rfl, hlater]
    simp [itemTokens]

/-- The entries of an object are scanned into their tokens. -/
theorem scan_writeEntries : ∀ (entries : List (String × Json)) (rest : List Char),
    EntriesIntegral entries → EndsNumber rest →
    Token.scan (writeEntries entries ++ rest) = entryTokens entries ++ Token.scan rest
  | [], _, _, _ => rfl
  | [(name, v)], rest, h, hrest => by
    have hvalue := scan_writeCompact v rest h.1 hrest
    have htext : writeEntries [(name, v)] ++ rest =
        writeString name ++ ':' :: (writeCompact v ++ rest) := by
      simp [writeEntries]
    rw [htext, scan_writeString, scan_of_token? (by decide) rfl, hvalue]
    rfl
  | (name, v) :: e :: es, rest, h, hrest => by
    have hlater := scan_writeEntries (e :: es) rest h.2 hrest
    have hvalue := scan_writeCompact v (',' :: (writeEntries (e :: es) ++ rest)) h.1
      (endsNumber_punctuation (by simp) _)
    have htext : writeEntries ((name, v) :: e :: es) ++ rest =
        writeString name ++ ':' :: (writeCompact v ++
          ',' :: (writeEntries (e :: es) ++ rest)) := by
      simp [writeEntries]
    rw [htext, scan_writeString, scan_of_token? (by decide) rfl, hvalue,
      scan_of_token? (by decide) rfl, hlater]
    simp [entryTokens]

end

/-- **Reading a compact text back.** A document whose numbers are integers is what is read from its
compact text, if it nests no deeper than the reader allows. -/
theorem read_compact {limit : Nat} {v : Json} (hnumbers : v.Integral) (hdepth : v.nesting ≤ limit) :
    read limit v.compact = .ok v := by
  have hscan := scan_writeCompact v [] hnumbers endsNumber_nil
  rw [List.append_nil, Token.scan, List.append_nil] at hscan
  apply read_of_scan _ hdepth
  rw [compact, String.toList_ofList, hscan]

end Stencil.Json
