import Stencil.Json.Basic

/-!
# Tokens of a document

The text of a document is cut into tokens before it is read. A text that stops making sense gives
the tokens up to that point and then the token `invalid`, so that a reader meets the error where it
stands. Main statement: every token takes at least one character (`length_lt_of_token?`).
-/

namespace Stencil.Json

/-- A token of a document. -/
inductive Token where
  | openBracket
  | closeBracket
  | openBrace
  | closeBrace
  | comma
  | colon
  | null
  | bool (b : Bool)
  | number (n : Number)
  | string (s : String)
  /-- No token starts here. -/
  | invalid
  deriving DecidableEq, Repr

namespace Token

/-! ## Strings -/

/-- The value of a hexadecimal digit. -/
def hexValue? (c : Char) : Option Nat :=
  if '0' ≤ c ∧ c ≤ '9' then some (c.toNat - 48)
  else if 'a' ≤ c ∧ c ≤ 'f' then some (c.toNat - 87)
  else if 'A' ≤ c ∧ c ≤ 'F' then some (c.toNat - 55)
  else none

/-- The number of four hexadecimal digits. -/
def hexUnit? (a b c d : Char) : Option Nat := do
  let a ← hexValue? a
  let b ← hexValue? b
  let c ← hexValue? c
  let d ← hexValue? d
  return 4096 * a + 256 * b + 16 * c + d

/-- The character of a one-letter escape. -/
def shortEscape? : Char → Option Char
  | '"' => some '"'
  | '\\' => some '\\'
  | '/' => some '/'
  | 'b' => some '\x08'
  | 'f' => some '\x0c'
  | 'n' => some '\n'
  | 'r' => some '\r'
  | 't' => some '\t'
  | _ => none

/-- The character that the text starts with, which is a plain one or an escape. A character beyond
the basic plane is escaped as a pair of surrogates; a surrogate that stands alone is no character,
nor may a control character stand for itself. -/
def stringChar? : List Char → Option (Char × List Char)
  | '\\' :: 'u' :: a :: b :: c :: d :: cs =>
    match hexUnit? a b c d with
    | none => none
    | some high =>
      if 0xD800 ≤ high ∧ high < 0xDC00 then
        match cs with
        | '\\' :: 'u' :: e :: f :: g :: h :: cs =>
          match hexUnit? e f g h with
          | none => none
          | some low =>
            if 0xDC00 ≤ low ∧ low < 0xE000 then
              some (Char.ofNat (0x10000 + 1024 * (high - 0xD800) + (low - 0xDC00)), cs)
            else none
        | _ => none
      else if 0xDC00 ≤ high ∧ high < 0xE000 then none
      else some (Char.ofNat high, cs)
  | '\\' :: c :: cs => (shortEscape? c).map (·, cs)
  | '\\' :: [] => none
  | c :: cs => if c.toNat < 0x20 then none else some (c, cs)
  | [] => none

/-- A character of a string takes at least one character of text. -/
theorem length_lt_of_stringChar? {cs rest : List Char} {c : Char}
    (h : stringChar? cs = some (c, rest)) : rest.length < cs.length := by
  unfold stringChar? at h
  split at h
  · split at h
    · simp at h
    · split at h
      · split at h
        · split at h
          · simp at h
          · split at h <;> simp at h
            simp [← h.2]; omega
        · simp at h
      · split at h <;> simp at h
        simp [← h.2]; omega
  · simp at h
    obtain ⟨_, _, _, rfl⟩ := h
    simp only [List.length_cons]
    omega
  · simp at h
  · split at h <;> simp at h
    simp [← h.2]
  · simp at h

/-- The rest of a string after its opening quote, and the text after its closing one. -/
def stringRest? : List Char → Option (List Char × List Char)
  | [] => none
  | c :: cs =>
    if c = '"' then some ([], cs)
    else
      match h : stringChar? (c :: cs) with
      | none => none
      | some (d, rest) =>
        have : rest.length ≤ cs.length := Nat.le_of_lt_succ (length_lt_of_stringChar? h)
        (stringRest? rest).map fun (s, rest) => (d :: s, rest)
termination_by cs => cs.length

/-- A string takes at least its closing quote. -/
theorem length_lt_of_stringRest? {cs s rest : List Char}
    (h : stringRest? cs = some (s, rest)) : rest.length < cs.length := by
  fun_induction stringRest? cs generalizing s with
  | case1 => simp at h
  | case2 => simp_all
  | case3 => simp at h
  | case4 c cs _ d r hc _ ih =>
    obtain ⟨⟨s', r'⟩, hs, he⟩ := Option.map_eq_some_iff.1 h
    obtain rfl : r' = rest := congrArg Prod.snd he
    exact Nat.lt_trans (ih hs) (length_lt_of_stringChar? hc)

/-! ## Numbers -/

/-- Cuts off the digits at the start, of which there must be one. -/
def digits? (cs : List Char) : Option (List Char × List Char) :=
  match cs.takeWhile Char.isDigit with
  | [] => none
  | ds => some (ds, cs.dropWhile Char.isDigit)

/-- The digits before the point: a zero stands alone. -/
def wholeDigits? : List Char → Option (List Char × List Char)
  | '0' :: cs => some (['0'], cs)
  | cs => digits? cs

/-- The digits after the point, if a point comes next. -/
def fractionDigits? : List Char → Option (Option (List Char) × List Char)
  | '.' :: cs => (digits? cs).map fun (ds, rest) => (some ds, rest)
  | cs => some (none, cs)

/-- The exponent, if its mark comes next. -/
def exponent? : List Char → Option (Option Int × List Char)
  | c :: cs =>
    if c = 'e' ∨ c = 'E' then
      match cs with
      | '-' :: cs =>
        (digits? cs).map fun (ds, rest) => (some (-(Number.natOfDigits ds : Int)), rest)
      | '+' :: cs => (digits? cs).map fun (ds, rest) => (some (Number.natOfDigits ds : Int), rest)
      | cs => (digits? cs).map fun (ds, rest) => (some (Number.natOfDigits ds : Int), rest)
    else some (none, c :: cs)
  | [] => some (none, [])

/-- A number without its sign. One that lies past the finite doubles is none. -/
def magnitude? (negative : Bool) (cs : List Char) : Option (Number × List Char) := do
  let (whole, cs) ← wholeDigits? cs
  let (fraction, cs) ← fractionDigits? cs
  let (exponent, cs) ← exponent? cs
  match fraction, exponent with
  | none, none => (Number.ofWhole? negative whole).map (·, cs)
  | _, _ =>
    (Number.floatOfParts? negative whole (fraction.getD []) (exponent.getD 0)).map (.float ·, cs)

/-- The digits cut off and the rest are shorter together than the text. -/
theorem length_lt_of_digits? {cs ds rest : List Char} (h : digits? cs = some (ds, rest)) :
    rest.length < cs.length := by
  unfold digits? at h
  split at h
  · simp at h
  · next hne =>
    simp at h
    rw [← h.2]
    have hlen :
        (cs.takeWhile Char.isDigit).length + (cs.dropWhile Char.isDigit).length = cs.length := by
      rw [← List.length_append, List.takeWhile_append_dropWhile]
    have hpos : 0 < (cs.takeWhile Char.isDigit).length := List.length_pos_iff.2 hne
    omega

/-- The digits before the point take at least one character. -/
theorem length_lt_of_wholeDigits? {cs ds rest : List Char}
    (h : wholeDigits? cs = some (ds, rest)) : rest.length < cs.length := by
  unfold wholeDigits? at h
  split at h
  · simp at h
    simp [← h.2]
  · exact length_lt_of_digits? h

/-- A fraction never adds text. -/
theorem length_le_of_fractionDigits? {cs rest : List Char} {ds : Option (List Char)}
    (h : fractionDigits? cs = some (ds, rest)) : rest.length ≤ cs.length := by
  unfold fractionDigits? at h
  split at h
  · obtain ⟨⟨a, b⟩, hd, he⟩ := Option.map_eq_some_iff.1 h
    obtain rfl : b = rest := congrArg Prod.snd he
    have := length_lt_of_digits? hd
    simp; omega
  · simp at h
    simp [h.2]

/-- An exponent never adds text. -/
theorem length_le_of_exponent? {cs rest : List Char} {e : Option Int}
    (h : exponent? cs = some (e, rest)) : rest.length ≤ cs.length := by
  unfold exponent? at h
  split at h
  · split at h
    · split at h <;>
      · obtain ⟨⟨a, b⟩, hd, he⟩ := Option.map_eq_some_iff.1 h
        obtain rfl : b = rest := congrArg Prod.snd he
        have := length_lt_of_digits? hd
        simp at this ⊢; omega
    · simp at h
      simp [← h.2]
  · simp at h
    simp [← h.2]

/-- A number takes at least one character. -/
theorem length_lt_of_magnitude? {negative : Bool} {cs rest : List Char} {n : Number}
    (h : magnitude? negative cs = some (n, rest)) : rest.length < cs.length := by
  simp only [magnitude?, Option.bind_eq_bind, Option.bind_eq_some_iff] at h
  obtain ⟨⟨w, c₁⟩, hw, ⟨f, c₂⟩, hf, ⟨e, c₃⟩, he, h⟩ := h
  have h₁ := length_lt_of_wholeDigits? hw
  have h₂ := length_le_of_fractionDigits? hf
  have h₃ := length_le_of_exponent? he
  have hr : c₃ = rest := by
    split at h <;>
    · obtain ⟨_, _, he⟩ := Option.map_eq_some_iff.1 h
      exact congrArg Prod.snd he
  subst hr
  simp only at h₂ h₃
  omega

/-! ## Tokens -/

/-- Whether a character may stand between tokens. -/
def isSpace (c : Char) : Bool :=
  c == ' ' || c == '\t' || c == '\n' || c == '\r'

/-- The token that the text starts with, and the text after it. -/
def token? : List Char → Option (Token × List Char)
  | '[' :: cs => some (.openBracket, cs)
  | ']' :: cs => some (.closeBracket, cs)
  | '\x7b' :: cs => some (.openBrace, cs)
  | '\x7d' :: cs => some (.closeBrace, cs)
  | ',' :: cs => some (.comma, cs)
  | ':' :: cs => some (.colon, cs)
  | 'n' :: 'u' :: 'l' :: 'l' :: cs => some (.null, cs)
  | 't' :: 'r' :: 'u' :: 'e' :: cs => some (.bool true, cs)
  | 'f' :: 'a' :: 'l' :: 's' :: 'e' :: cs => some (.bool false, cs)
  | '"' :: cs => (stringRest? cs).map fun (s, rest) => (.string (String.ofList s), rest)
  | '-' :: cs => (magnitude? true cs).map fun (n, rest) => (.number n, rest)
  | cs => (magnitude? false cs).map fun (n, rest) => (.number n, rest)

/-- Every token takes at least one character. -/
theorem length_lt_of_token? {cs rest : List Char} {t : Token} (h : token? cs = some (t, rest)) :
    rest.length < cs.length := by
  unfold token? at h
  split at h
  case h_10 =>
    simp at h
    obtain ⟨s, hs, -⟩ := h
    have := length_lt_of_stringRest? hs
    simp; omega
  case h_11 =>
    simp at h
    obtain ⟨n, hn, -⟩ := h
    have := length_lt_of_magnitude? hn
    simp; omega
  case h_12 =>
    simp at h
    obtain ⟨n, hn, -⟩ := h
    exact length_lt_of_magnitude? hn
  all_goals
    simp at h
    simp [← h.2] <;> omega

/-- The tokens of a text. -/
def scan : List Char → List Token
  | [] => []
  | c :: cs =>
    if isSpace c then scan cs
    else
      match h : token? (c :: cs) with
      | none => [.invalid]
      | some (t, rest) =>
        have : rest.length ≤ cs.length := Nat.le_of_lt_succ (length_lt_of_token? h)
        t :: scan rest
termination_by cs => cs.length

end Token

end Stencil.Json
