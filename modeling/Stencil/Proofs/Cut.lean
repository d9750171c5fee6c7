import Stencil.Node.Directive

/-!
# Cuts of a source

When a list of pieces is the cut of a source text, said without the scan: the pieces are the text,
directives have bodies without braces, texts are not empty and do not stand side by side, and no
directive starts inside of a text, not even one that runs on behind it. Main statement: the pieces
that the scan yields are such a cut, and there is no other (`isCut_iff`).
-/

namespace Stencil.Node

/-! ## Directives in a text -/

/-- The body of a directive holds no brace. -/
def Directive.BraceFree : Directive → Prop
  | .openIf body => '\x7b' ∉ body ∧ '\x7d' ∉ body
  | .openFor body => '\x7b' ∉ body ∧ '\x7d' ∉ body
  | .place body => '\x7b' ∉ body ∧ '\x7d' ∉ body
  | .orElse => True
  | .close _ => True

/-- A directive starts at the beginning of a text. -/
def Starts (cs : List Char) : Prop :=
  ∃ d rest, Directive.BraceFree d ∧ cs = d.text ++ rest

/-- A text without braces is the body up to the closing brace behind it. -/
theorem body?_append {body : List Char} (rest : List Char)
    (h : '\x7b' ∉ body ∧ '\x7d' ∉ body) :
    body? (body ++ '\x7d' :: rest) = some (body, rest) := by
  induction body with
  | nil => rfl
  | cons c cs ih =>
    simp only [List.mem_cons, not_or] at h
    obtain ⟨⟨hopen, hopens⟩, hclose, hcloses⟩ := h
    rw [List.cons_append, body?, if_neg (Ne.symm hclose), if_neg (Ne.symm hopen),
      ih ⟨hopens, hcloses⟩]
    rfl

/-- A body holds no brace. -/
theorem braceFree_of_body? {cs body rest : List Char} (h : body? cs = some (body, rest)) :
    '\x7b' ∉ body ∧ '\x7d' ∉ body := by
  induction cs generalizing body with
  | nil => simp [body?] at h
  | cons c cs ih =>
    rw [body?] at h
    split at h
    · simp only [Option.some.injEq, Prod.mk.injEq] at h
      simp [← h.1]
    · next hclose =>
      split at h
      · simp at h
      · next hopen =>
        obtain ⟨⟨b, r⟩, hb, he⟩ := Option.map_eq_some_iff.1 h
        simp only [Prod.mk.injEq] at he
        obtain ⟨rfl, rfl⟩ := he
        obtain ⟨hopens, hcloses⟩ := ih hb
        simp only [List.mem_cons, not_or]
        exact ⟨⟨Ne.symm hopen, hopens⟩, Ne.symm hclose, hcloses⟩

/-- A directive is read where its text stands. -/
theorem directive?_text_append {d : Directive} (rest : List Char) (h : d.BraceFree) :
    directive? (d.text ++ rest) = some (d, rest) := by
  cases d with
  | openIf body =>
    have := body?_append rest h
    simp [Directive.text, directive?, this]
  | openFor body =>
    have := body?_append rest h
    simp [Directive.text, directive?, this]
  | place body =>
    have := body?_append rest h
    simp [Directive.text, directive?, this]
  | orElse => rfl
  | close kind => cases kind <;> rfl

/-- A directive that is read has a body without braces. -/
theorem braceFree_of_directive? {cs rest : List Char} {d : Directive}
    (h : directive? cs = some (d, rest)) : d.BraceFree := by
  unfold directive? at h
  split at h
  case h_7 => simp at h
  case h_4 => simp only [Option.some.injEq, Prod.mk.injEq] at h; simp [← h.1, Directive.BraceFree]
  case h_5 => simp only [Option.some.injEq, Prod.mk.injEq] at h; simp [← h.1, Directive.BraceFree]
  case h_6 => simp only [Option.some.injEq, Prod.mk.injEq] at h; simp [← h.1, Directive.BraceFree]
  all_goals
    obtain ⟨⟨b, r⟩, hb, he⟩ := Option.map_eq_some_iff.1 h
    simp only [Prod.mk.injEq] at he
    obtain ⟨rfl, rfl⟩ := he
    exact braceFree_of_body? hb

/-- No directive is read exactly where none starts. -/
theorem directive?_eq_none_iff (cs : List Char) : directive? cs = none ↔ ¬Starts cs := by
  constructor
  · rintro h ⟨d, rest, hd, rfl⟩
    rw [directive?_text_append rest hd] at h
    cases h
  · intro h
    cases hd : directive? cs with
    | none => rfl
    | some p =>
      obtain ⟨d, rest⟩ := p
      exact absurd ⟨d, rest, braceFree_of_directive? hd, eq_of_directive? hd⟩ h

/-! ## The scan, step by step -/

/-- Where a directive starts, the scan yields it and goes on behind it. -/
theorem scan_text_append (d : Directive) (rest : List Char) (h : d.BraceFree) :
    scan (d.text ++ rest) = .directive d :: scan rest := by
  have hd := directive?_text_append rest h
  generalize hcs : d.text ++ rest = cs at hd
  cases cs with
  | nil =>
    have hlength := congrArg List.length hcs
    rw [List.length_append, List.length_nil] at hlength
    have := d.length_text_pos
    omega
  | cons c cs =>
    rw [scan]
    split
    · next d' rest' hd' =>
      rw [hd] at hd'
      simp only [Option.some.injEq, Prod.mk.injEq] at hd'
      rw [hd'.1, hd'.2]
    · next hd' =>
      rw [hd] at hd'
      cases hd'

/-- Where no directive starts, the scan yields one more character of text. -/
theorem scan_cons_of_not_starts (c : Char) (cs : List Char) (h : ¬Starts (c :: cs)) :
    scan (c :: cs) = consText c (scan cs) := by
  rw [scan]
  split
  · next d rest hd =>
    rw [(directive?_eq_none_iff _).2 h] at hd
    cases hd
  · rfl

/-! ## Cuts -/

/-- The pieces are the source, cut at its leftmost directives. -/
structure IsCut (source : List Char) (pieces : List Piece) : Prop where
  /-- Nothing is lost, doubled or moved. -/
  chars : pieces.flatMap Piece.chars = source
  braceFree : ∀ d, .directive d ∈ pieces → d.BraceFree
  text_ne_nil : ∀ cs, .text cs ∈ pieces → cs ≠ []
  /-- No two texts stand side by side. -/
  apart : ∀ before cs ds after, pieces ≠ before ++ .text cs :: .text ds :: after
  /-- No directive starts inside of a text. -/
  not_starts : ∀ before cs after, pieces = before ++ .text cs :: after →
    ∀ i < cs.length, ¬Starts (cs.drop i ++ after.flatMap Piece.chars)

namespace IsCut

/-- The empty source has no pieces. -/
theorem nil : IsCut [] [] where
  chars := rfl
  braceFree := by simp
  text_ne_nil := by simp
  apart := by simp
  not_starts := by simp

/-- A cut goes on in front with a directive. -/
theorem directive {d : Directive} {rest : List Char} {ps : List Piece} (hd : d.BraceFree)
    (h : IsCut rest ps) : IsCut (d.text ++ rest) (.directive d :: ps) where
  chars := by rw [List.flatMap_cons, h.chars]; rfl
  braceFree := by
    intro e he
    rcases List.mem_cons.1 he with he | he
    · cases he
      exact hd
    · exact h.braceFree e he
  text_ne_nil := by
    intro cs hcs
    rcases List.mem_cons.1 hcs with hcs | hcs
    · cases hcs
    · exact h.text_ne_nil cs hcs
  apart := by
    intro before cs ds after he
    cases before with
    | nil => simp at he
    | cons p before => exact h.apart before cs ds after (List.cons.inj he).2
  not_starts := by
    intro before cs after he
    cases before with
    | nil => simp at he
    | cons p before => exact h.not_starts before cs after (List.cons.inj he).2

/-- A cut goes on in front with a text, if no directive starts in it and no text follows. -/
theorem text {cs : List Char} {ps : List Piece} (hcs : cs ≠ [])
    (hapart : ∀ ds qs, ps ≠ .text ds :: qs)
    (hstarts : ∀ i < cs.length, ¬Starts (cs.drop i ++ ps.flatMap Piece.chars)) {rest : List Char}
    (h : IsCut rest ps) : IsCut (cs ++ rest) (.text cs :: ps) where
  chars := by rw [List.flatMap_cons, h.chars]; rfl
  braceFree := by
    intro e he
    rcases List.mem_cons.1 he with he | he
    · cases he
    · exact h.braceFree e he
  text_ne_nil := by
    intro ds hds
    rcases List.mem_cons.1 hds with hds | hds
    · cases hds
      exact hcs
    · exact h.text_ne_nil ds hds
  apart := by
    intro before ds es after he
    cases before with
    | nil => exact hapart es after (List.cons.inj he).2
    | cons p before => exact h.apart before ds es after (List.cons.inj he).2
  not_starts := by
    intro before ds after he
    cases before with
    | nil =>
      obtain ⟨hp, rfl⟩ := List.cons.inj he
      cases hp
      exact hstarts
    | cons p before => exact h.not_starts before ds after (List.cons.inj he).2

/-- The pieces after the first one are a cut of the text after it. -/
theorem tail {source : List Char} {p : Piece} {ps : List Piece} (h : IsCut source (p :: ps)) :
    IsCut (ps.flatMap Piece.chars) ps where
  chars := rfl
  braceFree d hd := h.braceFree d (List.mem_cons_of_mem p hd)
  text_ne_nil cs hcs := h.text_ne_nil cs (List.mem_cons_of_mem p hcs)
  apart := by
    rintro before cs ds after rfl
    exact h.apart (p :: before) cs ds after rfl
  not_starts := by
    rintro before cs after rfl
    exact h.not_starts (p :: before) cs after rfl

/-- A cut goes on in front with a character of text, if no directive starts there. -/
theorem char {c : Char} {cs : List Char} {ps : List Piece} (hc : ¬Starts (c :: cs))
    (h : IsCut cs ps) : IsCut (c :: cs) (consText c ps) := by
  have hchars := h.chars
  unfold consText
  split
  · next ds qs =>
    rw [List.flatMap_cons] at hchars
    rw [← hchars]
    refine text (List.cons_ne_nil c ds) (fun es rs he => ?_) (fun i hi => ?_) h.tail
    · exact h.apart [] ds es rs (by rw [he]; rfl)
    · cases i with
      | zero =>
        rw [← hchars] at hc
        exact hc
      | succ i => exact h.not_starts [] ds qs rfl i (Nat.lt_of_succ_lt_succ hi)
  · next hps =>
    refine text (List.cons_ne_nil c []) hps (fun i hi => ?_) h
    have hi : i = 0 := by simpa using hi
    rw [hi, List.drop_zero, hchars]
    exact hc

end IsCut

/-- The scan yields a cut. -/
theorem isCut_scan (cs : List Char) : IsCut cs (scan cs) := by
  fun_induction scan cs with
  | case1 => exact IsCut.nil
  | case2 c cs d rest h _ ih =>
    rw [eq_of_directive? h]
    exact IsCut.directive (braceFree_of_directive? h) ih
  | case3 c cs h ih => exact IsCut.char ((directive?_eq_none_iff _).1 h) ih

/-- The scan passes over a text in which no directive starts. -/
theorem scan_append_of_not_starts (cs rest : List Char) (hcs : cs ≠ [])
    (hapart : ∀ ds qs, scan rest ≠ .text ds :: qs)
    (hstarts : ∀ i < cs.length, ¬Starts (cs.drop i ++ rest)) :
    scan (cs ++ rest) = .text cs :: scan rest := by
  induction cs with
  | nil => exact absurd rfl hcs
  | cons c cs ih =>
    -- the first character is text, and it joins the text that is scanned behind it
    have hc : ¬Starts (c :: (cs ++ rest)) := hstarts 0 (Nat.succ_pos _)
    rw [List.cons_append, scan_cons_of_not_starts c _ hc]
    by_cases hnil : cs = []
    · subst hnil
      rw [List.nil_append]
      unfold consText
      split
      · next ds qs he => exact absurd he (hapart ds qs)
      · rfl
    · rw [ih hnil fun i hi => hstarts (i + 1) (Nat.succ_lt_succ hi)]
      rfl

/-- **Cuts are unique.** A source has one cut, and the scan yields it. -/
theorem isCut_iff (source : List Char) (pieces : List Piece) :
    IsCut source pieces ↔ pieces = scan source := by
  constructor
  · intro h
    -- the first piece can only be the one that the scan yields, and the others are a cut again
    induction pieces generalizing source with
    | nil => rw [← h.chars, List.flatMap_nil, scan]
    | cons p ps ih =>
      have hps := ih _ h.tail
      rw [← h.chars, List.flatMap_cons]
      cases p with
      | directive d =>
        rw [Piece.chars, scan_text_append d _ (h.braceFree d (by simp)), ← hps]
      | text cs =>
        have hapart : ∀ ds qs, scan (ps.flatMap Piece.chars) ≠ .text ds :: qs := by
          intro ds qs he
          rw [← hps] at he
          exact h.apart [] cs ds qs (by rw [he]; rfl)
        rw [Piece.chars, scan_append_of_not_starts cs _ (h.text_ne_nil cs (by simp)) hapart
          (h.not_starts [] cs ps rfl), ← hps]
  · rintro rfl
    exact isCut_scan source

end Stencil.Node
