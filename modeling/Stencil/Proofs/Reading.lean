import Stencil.Node.Token
import Mathlib.Data.List.Forall2

/-!
# Readings of pieces

Which token a piece of a source is read as, said by the parts of its body and not by how they are
found: a placeholder's body is cut at its first equals sign, a loop's body at the one separator in
it, and blanks around a part do not count. Main statements: a piece is read as its token and as
nothing else, and a loop that names no element and collection is read as nothing (`reads_iff`).
-/

namespace Stencil.Node

open Stencil.Text (trimChars cutAt eq_of_cutAt cutAt_append not_mem_of_cutAt cutAt_eq_none_iff)

/-! ## Splits at the separator -/

/-- What stands between the name and the collection of a loop. -/
def separator : List Char := [' ', 'i', 'n', ' ']

/-- A text splits in two: the separator occurs after the left part for the first time, and not
again after it. -/
structure SplitsInTwo (content left right : List Char) : Prop where
  eq : content = left ++ separator ++ right
  first : ¬separator <:+: left ++ [' ', 'i', 'n']
  last : ¬separator <:+: right

/-- The separator is split off where it stands. -/
theorem splitIn_separator_append (cs : List Char) :
    splitIn (separator ++ cs) = ([], (splitIn cs).1 :: (splitIn cs).2) := rfl

/-- Any other character goes to the first part. -/
theorem splitIn_cons {c : Char} {cs : List Char} (h : ¬separator <+: c :: cs) :
    splitIn (c :: cs) = (c :: (splitIn cs).1, (splitIn cs).2) := by
  rw [splitIn]
  rintro cs' rfl rfl
  exact h ⟨cs', rfl⟩

/-- A text without the separator is one part. -/
theorem splitIn_of_not_infix {cs : List Char} (h : ¬separator <:+: cs) : splitIn cs = (cs, []) := by
  induction cs with
  | nil => rfl
  | cons c cs ih =>
    rw [List.infix_cons_iff, not_or] at h
    rw [splitIn_cons h.1, ih h.2]

/-- A text that is one part has no separator. -/
theorem not_infix_of_splitIn {cs part : List Char} (h : splitIn cs = (part, [])) :
    part = cs ∧ ¬separator <:+: cs := by
  induction cs generalizing part with
  | nil =>
    obtain rfl : [] = part := (Prod.mk.inj h).1
    exact ⟨rfl, by decide⟩
  | cons c cs ih =>
    by_cases hp : separator <+: c :: cs
    · obtain ⟨rest, hrest⟩ := hp
      rw [← hrest, splitIn_separator_append] at h
      exact absurd (Prod.mk.inj h).2 (List.cons_ne_nil _ _)
    · rw [splitIn_cons hp] at h
      obtain ⟨rfl, hothers⟩ := Prod.mk.inj h
      obtain ⟨hpart, hcs⟩ := ih (Prod.ext rfl hothers)
      rw [List.infix_cons_iff, not_or]
      exact ⟨congrArg (c :: ·) hpart, hp, hcs⟩

/-- A text is split at the first separator in it. -/
theorem splitIn_append {left : List Char} (rest : List Char)
    (h : ¬separator <:+: left ++ [' ', 'i', 'n']) :
    splitIn (left ++ separator ++ rest) = (left, (splitIn rest).1 :: (splitIn rest).2) := by
  induction left with
  | nil => exact splitIn_separator_append rest
  | cons c cs ih =>
    rw [List.cons_append, List.infix_cons_iff, not_or] at h
    -- a separator here would end before the one behind `cs` does
    have hp : ¬separator <+: c :: (cs ++ separator ++ rest) := by
      intro hp
      refine h.1 (List.prefix_of_prefix_length_le hp ⟨' ' :: rest, ?_⟩ ?_)
      · simp [separator]
      · simp [separator]
    rw [List.cons_append, List.cons_append, splitIn_cons hp, ih h.2]

/-- The first part of a split ends at the first separator. -/
theorem eq_of_splitIn {cs left right : List Char} {others : List (List Char)}
    (h : splitIn cs = (left, right :: others)) :
    ∃ rest, cs = left ++ separator ++ rest ∧ ¬separator <:+: left ++ [' ', 'i', 'n'] ∧
      splitIn rest = (right, others) := by
  -- the first part grows by a character at a time until a separator starts
  induction cs generalizing left with
  | nil => exact absurd (Prod.mk.inj h).2 (List.cons_ne_nil _ _).symm
  | cons c cs ih =>
    by_cases hp : separator <+: c :: cs
    · obtain ⟨rest, hrest⟩ := hp
      rw [← hrest, splitIn_separator_append] at h
      obtain ⟨rfl, hothers⟩ := Prod.mk.inj h
      obtain ⟨h₁, h₂⟩ := List.cons.inj hothers
      exact ⟨rest, hrest.symm, by decide, Prod.ext h₁ h₂⟩
    · rw [splitIn_cons hp] at h
      obtain ⟨rfl, hothers⟩ := Prod.mk.inj h
      obtain ⟨rest, hcs, hfirst, hrest⟩ := ih (Prod.ext rfl hothers)
      refine ⟨rest, by rw [List.cons_append, List.cons_append, ← hcs], ?_, hrest⟩
      rw [List.cons_append, List.infix_cons_iff, not_or]
      refine ⟨fun hp' => hp ?_, hfirst⟩
      rw [hcs]
      refine hp'.trans ⟨' ' :: rest, ?_⟩
      simp [separator]

/-- The parts of a text are two exactly if it splits in two. -/
theorem splitIn_eq_two_iff (content left right : List Char) :
    splitIn content = (left, [right]) ↔ SplitsInTwo content left right := by
  constructor
  · intro h
    obtain ⟨rest, heq, hfirst, hrest⟩ := eq_of_splitIn h
    obtain ⟨rfl, hlast⟩ := not_infix_of_splitIn hrest
    exact ⟨heq, hfirst, hlast⟩
  · rintro ⟨rfl, hfirst, hlast⟩
    rw [splitIn_append right hfirst, splitIn_of_not_infix hlast]

/-! ## Tokens -/

/-- What a piece is read as. There is no reading for the start of a loop whose body does not split
in two parts, neither of them blank. -/
inductive Reads : Piece → Token → Prop where
  | text (cs : List Char) : Reads (.text cs) (.literal (String.ofList cs))
  | place (body : List Char) (h : '=' ∉ body) :
    Reads (.directive (.place body)) (.placeholder (String.ofList (trimChars body)) none)
  | placeDefault (key default : List Char) (h : '=' ∉ key) :
    Reads (.directive (.place (key ++ '=' :: default)))
      (.placeholder (String.ofList (trimChars key)) (some (String.ofList (trimChars default))))
  | openIf (body : List Char) :
    Reads (.directive (.openIf body)) (.openIf (String.ofList (trimChars body)))
  | openFor (body left right : List Char) (h : SplitsInTwo (trimChars body) left right)
    (hleft : trimChars left ≠ []) (hright : trimChars right ≠ []) :
    Reads (.directive (.openFor body))
      (.openFor (String.ofList (trimChars left)) (String.ofList (trimChars right)))
  | orElse : Reads (.directive .orElse) .orElse
  | close (kind : BlockKind) : Reads (.directive (.close kind)) (.close kind)

/-- The body of a placeholder is never read as a malformed loop. -/
theorem reads_ofPlace (body : List Char) : Reads (.directive (.place body)) (.ofPlace body) := by
  unfold Token.ofPlace
  cases hcut : cutAt '=' body with
  | none => exact Reads.place body ((cutAt_eq_none_iff '=' body).1 hcut)
  | some p =>
    obtain ⟨key, default⟩ := p
    have hbody := eq_of_cutAt '=' body key default hcut
    subst hbody
    exact Reads.placeDefault key default (not_mem_of_cutAt hcut)

/-- The body of a loop is read as its token unless that is malformed. -/
theorem reads_ofFor (body : List Char) :
    Reads (.directive (.openFor body)) (.ofFor body) ∨
      ∃ content, Token.ofFor body = .malformedFor content := by
  simp only [Token.ofFor]
  split
  · next left right hsplit =>
    split
    · exact Or.inr ⟨_, rfl⟩
    · next hblank =>
      rw [not_or] at hblank
      exact Or.inl (Reads.openFor body left right ((splitIn_eq_two_iff _ _ _).1 hsplit) hblank.1
        hblank.2)
  · exact Or.inr ⟨_, rfl⟩

/-- What a piece is read as is its token. -/
theorem ofPiece_of_reads {p : Piece} {t : Token} (h : Reads p t) : Token.ofPiece p = t := by
  cases h with
  | text cs => rfl
  | place body h => rw [Token.ofPiece, Token.ofPlace, (cutAt_eq_none_iff '=' body).2 h]
  | placeDefault key default h => rw [Token.ofPiece, Token.ofPlace, cutAt_append default h]
  | openIf body => rfl
  | openFor body left right h hleft hright =>
    have hblank : ¬(trimChars left = [] ∨ trimChars right = []) := not_or.2 ⟨hleft, hright⟩
    simp only [Token.ofPiece, Token.ofFor, (splitIn_eq_two_iff _ _ _).2 h]
    rw [if_neg hblank]
  | orElse => rfl
  | close kind => rfl

/-- Nothing is read as a malformed loop. -/
theorem ne_malformedFor_of_reads {p : Piece} {t : Token} (h : Reads p t) (body : String) :
    t ≠ .malformedFor body := by
  rintro rfl
  cases h

/-- **Readings.** A piece is read as its token and nothing else, unless that is a malformed loop. -/
theorem reads_iff (p : Piece) (t : Token) :
    Reads p t ↔ Token.ofPiece p = t ∧ ∀ body, t ≠ .malformedFor body := by
  constructor
  · intro h
    exact ⟨ofPiece_of_reads h, ne_malformedFor_of_reads h⟩
  · rintro ⟨rfl, h⟩
    cases p with
    | text cs => exact Reads.text cs
    | directive d =>
      cases d with
      | openIf body => exact Reads.openIf body
      | openFor body =>
        rcases reads_ofFor body with hreads | ⟨content, hcontent⟩
        · exact hreads
        · exact absurd hcontent (h content)
      | place body => exact reads_ofPlace body
      | orElse => exact Reads.orElse
      | close kind => exact Reads.close kind

/-- Pieces are read as some tokens exactly if those are their tokens and no loop is malformed. -/
theorem forall₂_reads_iff (ps : List Piece) (ts : List Token) :
    List.Forall₂ Reads ps ts ↔
      ps.map Token.ofPiece = ts ∧ ∀ t ∈ ts, ∀ body, t ≠ .malformedFor body := by
  induction ps generalizing ts with
  | nil =>
    rw [List.forall₂_nil_left_iff, List.map_nil]
    constructor
    · rintro rfl
      exact ⟨rfl, by simp⟩
    · rintro ⟨rfl, _⟩
      rfl
  | cons p ps ih =>
    rw [List.forall₂_cons_left_iff, List.map_cons]
    constructor
    · rintro ⟨t, us, hread, hreads, rfl⟩
      obtain ⟨rfl, ht⟩ := (reads_iff p t).1 hread
      obtain ⟨rfl, hus⟩ := (ih us).1 hreads
      exact ⟨rfl, List.forall_mem_cons.2 ⟨ht, hus⟩⟩
    · rintro ⟨rfl, hts⟩
      obtain ⟨ht, hus⟩ := List.forall_mem_cons.1 hts
      exact ⟨_, _, (reads_iff p _).2 ⟨rfl, ht⟩, (ih _).2 ⟨rfl, hus⟩, rfl⟩

end Stencil.Node
