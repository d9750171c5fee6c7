import Mathlib.Computability.Language
import Stencil.Node.Parser
import Stencil.Proofs.Cut

/-!
# Leftmost directives

The pieces of a source against a regular language. The forms of directives make up a language, of
which at most one word starts at any place of a text. Whoever looks for the leftmost word of it in a
source, goes on behind that word, and keeps what is passed over as text visits the pieces of the
scan and no others. Main statement: these pieces are the source, each directive is a word of the
language, and no word starts inside of a text (`scan_leftmost`).
-/

namespace Stencil.Node

open scoped Computability

/-! ## The language of directives -/

/-- The language of a single word. -/
def word (s : String) : Language Char :=
  {s.toList}

/-- The language of the single characters that are no braces. -/
def noBrace : Language Char :=
  {cs | ∃ c, c ≠ '\x7b' ∧ c ≠ '\x7d' ∧ cs = [c]}

/-- The texts of directives. -/
def forms : Language Char :=
  word "@" * (word "if" + word "for") * word "\x7b" * noBrace∗ * word "\x7d" +
    word "@" * word "else" +
    word "@" * (word "endif" + word "endfor") +
    word "@" * word "\x7b" * noBrace∗ * word "\x7d"

/-- A text consists of characters that are no braces if it holds no brace. -/
theorem mem_kstar_noBrace_iff (cs : List Char) :
    cs ∈ noBrace∗ ↔ '\x7b' ∉ cs ∧ '\x7d' ∉ cs := by
  rw [Language.mem_kstar]
  constructor
  · rintro ⟨parts, rfl, hparts⟩
    have hne : ∀ c ∈ parts.flatten, c ≠ '\x7b' ∧ c ≠ '\x7d' := by
      intro c hc
      obtain ⟨part, hpart, hc⟩ := List.mem_flatten.1 hc
      obtain ⟨c', hopen, hclose, rfl⟩ := hparts part hpart
      rw [List.mem_singleton.1 hc]
      exact ⟨hopen, hclose⟩
    exact ⟨fun h => (hne _ h).1 rfl, fun h => (hne _ h).2 rfl⟩
  · rintro ⟨hopen, hclose⟩
    refine ⟨cs.map fun c => [c], ?_, ?_⟩
    · rw [← List.flatMap_def, List.flatMap_singleton']
    · intro part hpart
      obtain ⟨c, hc, rfl⟩ := List.mem_map.1 hpart
      exact ⟨c, fun h => hopen (h ▸ hc), fun h => hclose (h ▸ hc), rfl⟩

/-- A word in front of a text of a language. -/
theorem mem_word_mul_iff (s : String) (l : Language Char) (cs : List Char) :
    cs ∈ word s * l ↔ ∃ rest ∈ l, s.toList ++ rest = cs := by
  rw [Language.mem_mul]
  constructor
  · rintro ⟨_, rfl, rest, hrest, rfl⟩
    exact ⟨rest, hrest, rfl⟩
  · rintro ⟨rest, hrest, rfl⟩
    exact ⟨_, rfl, rest, hrest, rfl⟩

/-- A body without braces and its closing brace. -/
theorem mem_kstar_mul_word_iff (cs : List Char) :
    cs ∈ noBrace∗ * word "\x7d" ↔
      ∃ body, ('\x7b' ∉ body ∧ '\x7d' ∉ body) ∧ body ++ ['\x7d'] = cs := by
  rw [Language.mem_mul]
  constructor
  · rintro ⟨body, hbody, _, rfl, rfl⟩
    exact ⟨body, (mem_kstar_noBrace_iff body).1 hbody, rfl⟩
  · rintro ⟨body, hbody, rfl⟩
    exact ⟨body, (mem_kstar_noBrace_iff body).2 hbody, _, rfl, rfl⟩

/-- The forms are the texts of the directives whose bodies hold no brace. -/
theorem mem_forms_iff (cs : List Char) :
    cs ∈ forms ↔ ∃ d : Directive, d.BraceFree ∧ d.text = cs := by
  simp only [forms, mul_assoc, add_mul, mul_add, Language.mem_add, mem_word_mul_iff,
    mem_kstar_mul_word_iff]
  constructor
  · rintro ((((⟨_, ⟨_, ⟨_, ⟨body, hbody, rfl⟩, rfl⟩, rfl⟩, rfl⟩ |
      ⟨_, ⟨_, ⟨_, ⟨body, hbody, rfl⟩, rfl⟩, rfl⟩, rfl⟩) | ⟨_, rfl, rfl⟩) |
      ⟨_, rfl, rfl⟩ | ⟨_, rfl, rfl⟩) | ⟨_, ⟨_, ⟨body, hbody, rfl⟩, rfl⟩, rfl⟩)
    · exact ⟨.openIf body, hbody, rfl⟩
    · exact ⟨.openFor body, hbody, rfl⟩
    · exact ⟨.orElse, trivial, rfl⟩
    · exact ⟨.close .conditional, trivial, rfl⟩
    · exact ⟨.close .iteration, trivial, rfl⟩
    · exact ⟨.place body, hbody, rfl⟩
  · rintro ⟨d, hd, rfl⟩
    cases d with
    | openIf body => exact .inl (.inl (.inl (.inl ⟨_, ⟨_, ⟨_, ⟨body, hd, rfl⟩, rfl⟩, rfl⟩, rfl⟩)))
    | openFor body => exact .inl (.inl (.inl (.inr ⟨_, ⟨_, ⟨_, ⟨body, hd, rfl⟩, rfl⟩, rfl⟩, rfl⟩)))
    | place body => exact .inr ⟨_, ⟨_, ⟨body, hd, rfl⟩, rfl⟩, rfl⟩
    | orElse => exact .inl (.inl (.inr ⟨_, rfl, rfl⟩))
    | close kind =>
      cases kind with
      | conditional => exact .inl (.inr (.inl ⟨_, rfl, rfl⟩))
      | iteration => exact .inl (.inr (.inr ⟨_, rfl, rfl⟩))

/-- A directive is told by its text. -/
theorem Directive.text_injective : Function.Injective Directive.text := by
  intro d d' h
  -- the forms differ in their first letters, and a body stands between fixed ends
  rcases d with body | body | body | _ | (_ | _) <;>
    rcases d' with body' | body' | body' | _ | (_ | _) <;>
    simp_all [Directive.text]

/-- The text of a directive is a form exactly if its body holds no brace. -/
theorem Directive.text_mem_forms_iff (d : Directive) : d.text ∈ forms ↔ d.BraceFree := by
  rw [mem_forms_iff]
  constructor
  · rintro ⟨d', hd', htext⟩
    exact Directive.text_injective htext ▸ hd'
  · exact fun hd => ⟨d, hd, rfl⟩

/-- A directive starts a text exactly if some form does. -/
theorem starts_iff (cs : List Char) : Starts cs ↔ ∃ form ∈ forms, form <+: cs := by
  constructor
  · rintro ⟨d, rest, hd, rfl⟩
    exact ⟨d.text, (mem_forms_iff _).2 ⟨d, hd, rfl⟩, rest, rfl⟩
  · rintro ⟨form, hform, rest, rfl⟩
    obtain ⟨d, hd, rfl⟩ := (mem_forms_iff form).1 hform
    exact ⟨d, rest, hd, rfl⟩

/-- **One form at a place.** No text starts with two forms, so what is found at a place does not
depend on which form is tried first. -/
theorem form_unique {cs form form' : List Char} (hform : form ∈ forms) (hform' : form' ∈ forms)
    (hstarts : form <+: cs) (hstarts' : form' <+: cs) : form = form' := by
  obtain ⟨d, hd, rfl⟩ := (mem_forms_iff form).1 hform
  obtain ⟨d', hd', rfl⟩ := (mem_forms_iff form').1 hform'
  obtain ⟨rest, rfl⟩ := hstarts
  obtain ⟨rest', hrest⟩ := hstarts'
  have hread := directive?_text_append rest' hd'
  rw [hrest, directive?_text_append rest hd] at hread
  cases hread
  rfl

/-! ## The loop over the matches -/

/-- The piece of a text, unless it is empty. -/
def textPiece (cs : List Char) : List Piece :=
  if cs = [] then [] else [.text cs]

/-- No form starts in a text with another text behind it, not even one that runs on into that. -/
def NoForm (cs rest : List Char) : Prop :=
  ∀ i < cs.length, ∀ form ∈ forms, ¬form <+: (cs ++ rest).drop i

/-- What is visited by a loop over a source that looks for the leftmost form and goes on behind it:
the text that is passed over, then the directive; and in the end the text that is left. -/
inductive Visits : List Char → List Piece → Prop where
  /-- No form is left. -/
  | done {left : List Char} (hnone : NoForm left []) : Visits left (textPiece left)
  /-- The leftmost form stands behind a gap. -/
  | next {gap rest : List Char} {d : Directive} {ps : List Piece} (hform : d.text ∈ forms)
    (hfirst : NoForm gap (d.text ++ rest)) (hrest : Visits rest ps) :
    Visits (gap ++ (d.text ++ rest)) (textPiece gap ++ .directive d :: ps)

/-- No form starts in a text exactly if no directive starts at any place of it. -/
theorem noForm_iff (cs rest : List Char) :
    NoForm cs rest ↔ ∀ i < cs.length, ¬Starts (cs.drop i ++ rest) := by
  refine forall₂_congr fun i hi => ?_
  rw [starts_iff, ← List.drop_append_of_le_length hi.le]
  simp only [not_exists, not_and]

/-- A cut goes on in front with a gap in which no form starts, if no text follows. -/
theorem IsCut.gap {gap rest : List Char} {ps : List Piece} (h : IsCut rest ps)
    (hapart : ∀ ds qs, ps ≠ .text ds :: qs) (hgap : NoForm gap rest) :
    IsCut (gap ++ rest) (textPiece gap ++ ps) := by
  unfold textPiece
  split
  · next hnil =>
    rw [hnil]
    exact h
  · next hne =>
    refine IsCut.text hne hapart ?_ h
    rw [h.chars]
    exact (noForm_iff gap rest).1 hgap

/-- What is visited is a cut of the source. -/
theorem Visits.isCut {source : List Char} {pieces : List Piece} (h : Visits source pieces) :
    IsCut source pieces := by
  induction h with
  | @done left hnone =>
    have hcut := IsCut.nil.gap (by simp) hnone
    rwa [List.append_nil, List.append_nil] at hcut
  | next hform hfirst _ ih =>
    have hcut := IsCut.directive ((Directive.text_mem_forms_iff _).1 hform) ih
    exact hcut.gap (by simp) hfirst

/-- No form starts in a text of a cut. -/
theorem IsCut.noForm {source cs : List Char} {ps : List Piece} (h : IsCut source (.text cs :: ps)) :
    NoForm cs (ps.flatMap Piece.chars) :=
  (noForm_iff _ _).2 (h.not_starts [] cs ps rfl)

/-- A cut of a source is what is visited in it. -/
theorem IsCut.visits : ∀ {pieces : List Piece} {source : List Char}, IsCut source pieces →
    Visits source pieces
  | [], source, h => by
    rw [← h.chars]
    exact Visits.done fun i hi => absurd hi (Nat.not_lt_zero i)
  | .directive d :: ps, source, h => by
    have hform := d.text_mem_forms_iff.2 (h.braceFree d List.mem_cons_self)
    have hnone : NoForm [] (d.text ++ ps.flatMap Piece.chars) :=
      fun i hi => absurd hi (Nat.not_lt_zero i)
    have hvisits := Visits.next hform hnone h.tail.visits
    rw [← h.chars]
    exact hvisits
  | [.text cs], source, h => by
    have hvisits := Visits.done h.noForm
    rw [textPiece, if_neg (h.text_ne_nil cs List.mem_cons_self)] at hvisits
    rw [← h.chars, List.flatMap_singleton]
    exact hvisits
  | .text cs :: .directive d :: ps, source, h => by
    have hform := d.text_mem_forms_iff.2 (h.tail.braceFree d List.mem_cons_self)
    have hvisits := Visits.next hform h.noForm h.tail.tail.visits
    rw [textPiece, if_neg (h.text_ne_nil cs List.mem_cons_self)] at hvisits
    rw [← h.chars]
    exact hvisits
  | .text cs :: .text ds :: ps, source, h => absurd rfl (h.apart [] cs ds ps)

/-- **The loop and the scan.** A loop over the leftmost forms of a source visits the pieces that the
scan yields, and nothing else can be visited. -/
theorem visits_iff (source : List Char) (pieces : List Piece) :
    Visits source pieces ↔ pieces = scan source := by
  rw [← isCut_iff]
  exact ⟨Visits.isCut, IsCut.visits⟩

/-- What stands in the source from a place inside of a piece on. -/
theorem IsCut.drop_eq {source : List Char} {before after : List Piece} {p : Piece}
    (h : IsCut source (before ++ p :: after)) (i : Nat) :
    source.drop ((before.flatMap Piece.chars).length + i) =
      (p.chars ++ after.flatMap Piece.chars).drop i := by
  rw [← h.chars, List.flatMap_append, List.flatMap_cons, List.drop_length_add_append]

/-! ## The main statement -/

/-- **The scan is the exact leftmost partition of a source.** At most one form starts at any place.
A loop over the leftmost forms of the source visits exactly the pieces of the scan, and the parser
runs over these. The pieces, one after the other, are the source; each directive is one of the
forms; and no form starts at any place inside of a text, not even one that runs on behind it. -/
theorem scan_leftmost (source : List Char) :
    (∀ i, ∀ form ∈ forms, ∀ form' ∈ forms,
      form <+: source.drop i → form' <+: source.drop i → form = form') ∧
    (∀ pieces, Visits source pieces ↔ pieces = scan source) ∧
    (∀ limit pieces, Visits source pieces →
      parseChars limit source = Progress.start.run limit 0 pieces >>= Progress.finish) ∧
    (scan source).flatMap Piece.chars = source ∧
    (∀ d, .directive d ∈ scan source → d.text ∈ forms) ∧
    ∀ before cs after, scan source = before ++ .text cs :: after →
      cs ≠ [] ∧ ∀ i < cs.length, ∀ form ∈ forms,
        ¬form <+: source.drop ((before.flatMap Piece.chars).length + i) := by
  have hcut := isCut_scan source
  refine ⟨?_, visits_iff source, ?_, hcut.chars, ?_, ?_⟩
  · intro i form hform form' hform' hstarts hstarts'
    exact form_unique hform hform' hstarts hstarts'
  · intro limit pieces hvisits
    rw [(visits_iff source pieces).1 hvisits, parseChars]
    cases Progress.start.run limit 0 (scan source) <;> rfl
  · intro d hd
    exact d.text_mem_forms_iff.2 (hcut.braceFree d hd)
  · intro before cs after hpieces
    rw [hpieces] at hcut
    refine ⟨hcut.text_ne_nil cs (by simp), fun i hi form hform => ?_⟩
    rw [hcut.drop_eq]
    exact (noForm_iff _ _).2 (hcut.not_starts before cs after rfl) i hi form hform

/-- An opener that is not finished before the next directive is text. -/
example : scan "@if\x7b@\x7ba\x7d".toList =
    [.text "@if\x7b".toList, .directive (.place ['a'])] := by decide +kernel

/-- A directive needs nothing behind it. -/
example : scan "@elsewhere".toList = [.directive .orElse, .text "where".toList] := by decide +kernel

end Stencil.Node
