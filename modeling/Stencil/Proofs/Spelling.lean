import Stencil.Json.Reader
import Stencil.Json.Writer

/-!
# The spelling of documents

The tokens of a document, and how they are found again in its indented text. A string is written
character by character, each as itself or as an escape that stands for it alone; between tokens
there are only blanks and line breaks, which do not count. Main statement: the text of a document
without numbers is scanned into the tokens of the document (`scan_writeIndented`).
-/

namespace Stencil.Json

/-! ## Strings -/

/-- The hexadecimal digit of a small number is read as this number. -/
theorem hexValue?_digitChar {d : Nat} (h : d < 16) : Token.hexValue? (Nat.digitChar d) = some d := by
  have hall : ∀ d < 16, Token.hexValue? (Nat.digitChar d) = some d := by decide
  exact hall d h

/-- The long escape of a control character is read as its number. -/
theorem hexUnit?_digitChar {n : Nat} (h : n < 32) :
    Token.hexUnit? '0' '0' (Nat.digitChar (n / 16)) (Nat.digitChar (n % 16)) = some n := by
  have hzero : Token.hexValue? '0' = some 0 := by decide
  have hhigh := hexValue?_digitChar (d := n / 16) (by omega)
  have hlow := hexValue?_digitChar (d := n % 16) (by omega)
  have hsum : 4096 * 0 + 256 * 0 + 16 * (n / 16) + n % 16 = n := by omega
  rw [Token.hexUnit?, hzero, hhigh, hlow]
  exact congrArg some hsum

/-- What is written for a character in a string: a short escape, the long escape of a control
character, or the character itself, which has no meaning of its own then. -/
theorem escapeChar_cases (c : Char) :
    (∃ e, escapeChar c = ['\\', e] ∧ e ≠ 'u' ∧ Token.shortEscape? e = some c) ∨
    (c.toNat < 32 ∧ escapeChar c =
      ['\\', 'u', '0', '0', Nat.digitChar (c.toNat / 16), Nat.digitChar (c.toNat % 16)]) ∨
    (escapeChar c = [c] ∧ c ≠ '"' ∧ c ≠ '\\' ∧ ¬c.toNat < 32) := by
  unfold escapeChar
  split
  · next h => exact Or.inl ⟨_, rfl, by decide, by rw [h]; rfl⟩
  split
  · next h => exact Or.inl ⟨_, rfl, by decide, by rw [h]; rfl⟩
  split
  · next h => exact Or.inl ⟨_, rfl, by decide, by rw [h]; rfl⟩
  split
  · next h => exact Or.inl ⟨_, rfl, by decide, by rw [h]; rfl⟩
  split
  · next h => exact Or.inl ⟨_, rfl, by decide, by rw [h]; rfl⟩
  split
  · next h => exact Or.inl ⟨_, rfl, by decide, by rw [h]; rfl⟩
  split
  · next h => exact Or.inl ⟨_, rfl, by decide, by rw [h]; rfl⟩
  split
  · next h => exact Or.inr (Or.inl ⟨h, rfl⟩)
  · next hquote hslash _ _ _ _ _ hplain => exact Or.inr (Or.inr ⟨rfl, hquote, hslash, hplain⟩)

/-- What is written for a character in a string is read as this character. -/
theorem stringChar?_escapeChar (c : Char) (rest : List Char) :
    Token.stringChar? (escapeChar c ++ rest) = some (c, rest) := by
  rcases escapeChar_cases c with ⟨e, htext, hu, hshort⟩ | ⟨hsmall, htext⟩ | ⟨htext, _, hslash, hlarge⟩
  · rw [htext, List.cons_append, List.singleton_append]
    unfold Token.stringChar?
    split
    · next heq => exact absurd (List.cons.inj (List.cons.inj heq).2).1 hu
    · next heq =>
      obtain ⟨rfl, rfl⟩ := List.cons.inj (List.cons.inj heq).2
      rw [hshort]
      rfl
    · next heq => cases heq
    · next hnot _ heq =>
      obtain ⟨hslash, htail⟩ := List.cons.inj heq
      exact (hnot _ _ hslash.symm htail.symm).elim
    · next heq => cases heq
  · -- the number is too small for a surrogate
    have hlow : ¬(0xD800 ≤ c.toNat ∧ c.toNat < 0xDC00) := by omega
    have hhigh : ¬(0xDC00 ≤ c.toNat ∧ c.toNat < 0xE000) := by omega
    rw [htext]
    simp only [List.cons_append, List.nil_append, Token.stringChar?, hexUnit?_digitChar hsmall,
      if_neg hlow, if_neg hhigh, Char.ofNat_toNat]
  · rw [htext, List.singleton_append]
    unfold Token.stringChar?
    split
    · next heq => exact absurd (List.cons.inj heq).1 hslash
    · next heq => exact absurd (List.cons.inj heq).1 hslash
    · next heq => exact absurd (List.cons.inj heq).1 hslash
    · next heq =>
      obtain ⟨rfl, rfl⟩ := List.cons.inj heq
      rw [if_neg hlarge]
    · next heq => cases heq

/-- What is written for a character never starts with a quote. -/
theorem exists_escapeChar_eq (c : Char) : ∃ d ds, escapeChar c = d :: ds ∧ d ≠ '"' := by
  rcases escapeChar_cases c with ⟨e, htext, _⟩ | ⟨_, htext⟩ | ⟨htext, hquote, _⟩
  · exact ⟨_, _, htext, by decide⟩
  · exact ⟨_, _, htext, by decide⟩
  · exact ⟨_, _, htext, hquote⟩

/-- What is written for a string, up to its closing quote, is read as the string. -/
theorem stringRest?_escape (cs rest : List Char) :
    Token.stringRest? (escape cs ++ '"' :: rest) = some (cs, rest) := by
  induction cs with
  | nil =>
    show Token.stringRest? ('"' :: rest) = _
    rw [Token.stringRest?, if_pos rfl]
  | cons c cs ih =>
    obtain ⟨d, ds, hd, hne⟩ := exists_escapeChar_eq c
    have hchar := stringChar?_escapeChar c (escape cs ++ '"' :: rest)
    have htext : escape (c :: cs) ++ '"' :: rest =
        escapeChar c ++ (escape cs ++ '"' :: rest) := by
      simp [escape]
    rw [hd, List.cons_append] at hchar
    rw [htext, hd, List.cons_append, Token.stringRest?, if_neg hne]
    split
    · next hnone =>
      rw [hchar] at hnone
      cases hnone
    · next hsome =>
      rw [hchar] at hsome
      cases hsome
      rw [ih]
      rfl

/-! ## The tokens of a document -/

mutual

/-- The tokens of a document. -/
def tokens : Json → List Token
  | .null => [.null]
  | .bool b => [.bool b]
  | .number n => [.number n]
  | .string s => [.string s]
  | .array items => .openBracket :: itemTokens items ++ [.closeBracket]
  | .object entries => .openBrace :: entryTokens entries ++ [.closeBrace]

/-- The tokens of the elements of an array, a comma between any two. -/
def itemTokens : List Json → List Token
  | [] => []
  | [v] => tokens v
  | v :: vs => tokens v ++ .comma :: itemTokens vs

/-- The tokens of the entries of an object, a comma between any two. -/
def entryTokens : List (String × Json) → List Token
  | [] => []
  | [(name, v)] => .string name :: .colon :: tokens v
  | (name, v) :: es => .string name :: .colon :: tokens v ++ .comma :: entryTokens es

end

mutual

/-- There is no number in a document. -/
def NumberFree : Json → Prop
  | .null => True
  | .bool _ => True
  | .number _ => False
  | .string _ => True
  | .array items => ItemsNumberFree items
  | .object entries => EntriesNumberFree entries

/-- There is no number in the elements of an array. -/
def ItemsNumberFree : List Json → Prop
  | [] => True
  | v :: vs => NumberFree v ∧ ItemsNumberFree vs

/-- There is no number in the entries of an object. -/
def EntriesNumberFree : List (String × Json) → Prop
  | [] => True
  | (_, v) :: es => NumberFree v ∧ EntriesNumberFree es

end

/-! ## Scanning -/

/-- A blank between tokens does not count. -/
theorem scan_of_isSpace {c : Char} (h : Token.isSpace c = true) (rest : List Char) :
    Token.scan (c :: rest) = Token.scan rest := by
  rw [Token.scan, if_pos h]

/-- A token that starts the text comes first. -/
theorem scan_of_token? {c : Char} {cs rest : List Char} {t : Token}
    (hspace : Token.isSpace c = false) (h : Token.token? (c :: cs) = some (t, rest)) :
    Token.scan (c :: cs) = t :: Token.scan rest := by
  rw [Token.scan, if_neg (by simp [hspace])]
  split
  · next hnone =>
    rw [h] at hnone
    cases hnone
  · next hsome =>
    rw [h] at hsome
    cases hsome
    rfl

/-- The start of a line does not count. -/
theorem scan_newLine (depth : Nat) (rest : List Char) :
    Token.scan (newLine depth ++ rest) = Token.scan rest := by
  have hblanks : ∀ n, Token.scan (List.replicate n ' ' ++ rest) = Token.scan rest := by
    intro n
    induction n with
    | zero => rfl
    | succ n ih => rw [List.replicate_succ, List.cons_append, scan_of_isSpace (by decide), ih]
  rw [newLine, List.cons_append, scan_of_isSpace (by decide), hblanks]

/-- A string with its quotes is one token. -/
theorem scan_writeString (s : String) (rest : List Char) :
    Token.scan (writeString s ++ rest) = .string s :: Token.scan rest := by
  have htext : writeString s ++ rest = '"' :: (escape s.toList ++ '"' :: rest) := by
    simp [writeString]
  rw [htext]
  apply scan_of_token? (by decide)
  show (Token.stringRest? (escape s.toList ++ '"' :: rest)).map
    (fun found => (Token.string (String.ofList found.1), found.2)) = some (.string s, rest)
  rw [stringRest?_escape, Option.map_some, String.ofList_toList]

mutual

/-- **The text of a document.** What is written for a document without numbers, however deep it
stands, is scanned into the tokens of the document. -/
theorem scan_writeIndented : ∀ (v : Json) (depth : Nat) (rest : List Char), v.NumberFree →
    Token.scan (writeIndented depth v ++ rest) = v.tokens ++ Token.scan rest
  | .null, _, rest, _ => by
    show Token.scan ('n' :: 'u' :: 'l' :: 'l' :: rest) = .null :: Token.scan rest
    exact scan_of_token? (by decide) rfl
  | .bool true, _, rest, _ => by
    show Token.scan ('t' :: 'r' :: 'u' :: 'e' :: rest) = .bool true :: Token.scan rest
    exact scan_of_token? (by decide) rfl
  | .bool false, _, rest, _ => by
    show Token.scan ('f' :: 'a' :: 'l' :: 's' :: 'e' :: rest) = .bool false :: Token.scan rest
    exact scan_of_token? (by decide) rfl
  | .number _, _, _, h => h.elim
  | .string s, _, rest, _ => scan_writeString s rest
  | .array [], _, rest, _ => by
    show Token.scan ('[' :: ']' :: rest) = .openBracket :: .closeBracket :: Token.scan rest
    rw [scan_of_token? (by decide) rfl, scan_of_token? (by decide) rfl]
  | .array (v :: vs), depth, rest, h => by
    have hlines := scan_writeItemLines (v :: vs) (depth + 1) (newLine depth ++ ']' :: rest) h
    have htext : writeIndented depth (.array (v :: vs)) ++ rest =
        '[' :: (writeItemLines (depth + 1) (v :: vs) ++ (newLine depth ++ ']' :: rest)) := by
      simp [writeIndented]
    rw [htext, scan_of_token? (by decide) rfl, hlines, scan_newLine,
      scan_of_token? (by decide) rfl]
    simp [tokens]
  | .object [], _, rest, _ => by
    show Token.scan ('\x7b' :: '\x7d' :: rest) = .openBrace :: .closeBrace :: Token.scan rest
    rw [scan_of_token? (by decide) rfl, scan_of_token? (by decide) rfl]
  | .object (e :: es), depth, rest, h => by
    have hlines := scan_writeEntryLines (e :: es) (depth + 1) (newLine depth ++ '\x7d' :: rest) h
    have htext : writeIndented depth (.object (e :: es)) ++ rest =
        '\x7b' :: (writeEntryLines (depth + 1) (e :: es) ++ (newLine depth ++ '\x7d' :: rest)) := by
      simp [writeIndented]
    rw [htext, scan_of_token? (by decide) rfl, hlines, scan_newLine,
      scan_of_token? (by decide) rfl]
    simp [tokens]

/-- The lines of the elements of an array are scanned into the tokens of the elements. -/
theorem scan_writeItemLines : ∀ (items : List Json) (depth : Nat) (rest : List Char),
    ItemsNumberFree items →
    Token.scan (writeItemLines depth items ++ rest) = itemTokens items ++ Token.scan rest
  | [], _, _, _ => rfl
  | [v], depth, rest, h => by
    rw [writeItemLines, List.append_assoc, scan_newLine, scan_writeIndented v depth rest h.1]
    rfl
  | v :: w :: vs, depth, rest, h => by
    have hlater := scan_writeItemLines (w :: vs) depth rest h.2
    have htext : writeItemLines depth (v :: w :: vs) ++ rest =
        newLine depth ++ (writeIndented depth v ++
          ',' :: (writeItemLines depth (w :: vs) ++ rest)) := by
      simp [writeItemLines]
    rw [htext, scan_newLine, scan_writeIndented v depth _ h.1, scan_of_token? (by decide) rfl,
      hlater]
    simp [itemTokens]

/-- The lines of the entries of an object are scanned into the tokens of the entries. -/
theorem scan_writeEntryLines : ∀ (entries : List (String × Json)) (depth : Nat)
    (rest : List Char), EntriesNumberFree entries →
    Token.scan (writeEntryLines depth entries ++ rest) = entryTokens entries ++ Token.scan rest
  | [], _, _, _ => rfl
  | [(name, v)], depth, rest, h => by
    have hvalue := scan_writeIndented v depth rest h.1
    have htext : writeEntryLines depth [(name, v)] ++ rest =
        newLine depth ++ (writeString name ++ ':' :: ' ' :: (writeIndented depth v ++ rest)) := by
      simp [writeEntryLines]
    rw [htext, scan_newLine, scan_writeString, scan_of_token? (by decide) rfl,
      scan_of_isSpace (by decide), hvalue]
    rfl
  | (name, v) :: e :: es, depth, rest, h => by
    have hlater := scan_writeEntryLines (e :: es) depth rest h.2
    have htext : writeEntryLines depth ((name, v) :: e :: es) ++ rest =
        newLine depth ++ (writeString name ++ ':' :: ' ' :: (writeIndented depth v ++
          ',' :: (writeEntryLines depth (e :: es) ++ rest))) := by
      simp [writeEntryLines]
    rw [htext, scan_newLine, scan_writeString, scan_of_token? (by decide) rfl,
      scan_of_isSpace (by decide), scan_writeIndented v depth _ h.1,
      scan_of_token? (by decide) rfl, hlater]
    simp [entryTokens]

end

end Stencil.Json
