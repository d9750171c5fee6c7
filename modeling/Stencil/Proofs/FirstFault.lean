import Stencil.Proofs.OpenBlocks

/-!
# The first fault of a source

Where a source goes wrong and how, said without the parser. If some of its directives cannot be
completed whatever follows, then the last directive of the shortest such beginning is at fault, for
a reason that depends on the blocks that are open before it; otherwise a block is open at the end.
Main statement: this is the error that the parser gives (`firstFault_of_parse_eq_error`).
-/

namespace Stencil.Node

open Stencil.Text (trimChars byteLength)

/-! ## Faults -/

/-- The shortest beginning of some directives that cannot be completed. -/
structure FirstStuck (limit : Nat) (all stuck : List Directive) : Prop where
  begins : stuck <+: all
  not_viable : ¬Viable limit stuck
  shortest : ∀ ds, ds <+: all → ¬Viable limit ds → stuck.length ≤ ds.length

/-- What is wrong with a directive that cannot follow some others. The ceiling on open blocks comes
before what is wrong with the body of a loop. -/
inductive Fault (limit : Nat) (ds : List Directive) : Directive → ParseErrorKind → Prop where
  | nestingExceeded {d : Directive} (hd : d.isOpener = true) (h : openCount ds = limit) :
    Fault limit ds d (.nestingExceeded limit)
  | invalidIteration {body : List Char} (hroom : openCount ds < limit) (h : ¬NamesLoop body) :
    Fault limit ds (.openFor body) (.invalidIteration (String.ofList (trimChars body)))
  | duplicateElse (h : Innermost ds .whenFalse) : Fault limit ds .orElse .duplicateElse
  | danglingElse (h : ¬Innermost ds .whenFalse) : Fault limit ds .orElse .danglingElse
  | danglingEnd {part : Part} (kind : BlockKind) (h : Innermost ds part) :
    Fault limit ds (.close kind) (.danglingEnd kind (some part.kind))
  | danglingEndOutside (kind : BlockKind) (h : ∀ part, ¬Innermost ds part) :
    Fault limit ds (.close kind) (.danglingEnd kind none)

/-- A directive has one fault at most, if no two blocks can be the innermost one. -/
theorem Fault.eq {limit : Nat} {ds : List Directive} {d : Directive} {kind kind' : ParseErrorKind}
    (hinner : ∀ part part', Innermost ds part → Innermost ds part' → part = part')
    (h : Fault limit ds d kind) (h' : Fault limit ds d kind') : kind = kind' := by
  cases h with
  | nestingExceeded hd hcount =>
    cases h' with
    | nestingExceeded => rfl
    | invalidIteration hroom => omega
    | _ => cases hd
  | invalidIteration hroom =>
    cases h' with
    | nestingExceeded _ hcount => omega
    | invalidIteration => rfl
  | duplicateElse hsecond =>
    cases h' with
    | nestingExceeded hd => cases hd
    | duplicateElse => rfl
    | danglingElse hnot => exact absurd hsecond hnot
  | danglingElse hnot =>
    cases h' with
    | nestingExceeded hd => cases hd
    | duplicateElse hsecond => exact absurd hsecond hnot
    | danglingElse => rfl
  | danglingEnd kind hpart =>
    cases h' with
    | nestingExceeded hd => cases hd
    | danglingEnd _ hpart' => rw [hinner _ _ hpart hpart']
    | danglingEndOutside _ hnone => exact absurd hpart (hnone _)
  | danglingEndOutside kind hnone =>
    cases h' with
    | nestingExceeded hd => cases hd
    | danglingEnd _ hpart => exact absurd hpart (hnone _)
    | danglingEndOutside => rfl

/-! ## Steps that fail -/

section Steps

variable {limit offset : Nat} {before : List Piece} {q : Progress}

/-- No two blocks are the innermost one after what the parser takes. -/
theorem innermost_unique (h : Progress.start.run limit 0 before = .ok q) {part part' : Part}
    (hpart : Innermost (directives before) part) (hpart' : Innermost (directives before) part') :
    part = part' := by
  rw [innermost_iff h] at hpart hpart'
  exact Option.some.inj (hpart.symm.trans hpart')

/-- The ceiling is reached when the levels reach it. -/
theorem openCount_eq (h : Progress.start.run limit 0 before = .ok q)
    (hroom : limit ≤ q.levels.length) : openCount (directives before) = limit := by
  obtain ⟨room, hopened⟩ := exists_opened h
  have hlength := hopened.room_add_length
  rw [← length_levels h]
  omega

/-- The start of a loop is refused for the ceiling first and for its body after that. -/
theorem fault_of_openFor (h : Progress.start.run limit 0 before = .ok q) {body : List Char}
    {kind : ParseErrorKind} (hstep : q.step limit offset (.ofFor body) = .error kind) :
    Fault limit (directives before) (.openFor body) kind := by
  rcases ofFor_cases body with ⟨_, name, collection, htoken⟩ | ⟨hnot, htoken⟩
  · rw [htoken, Progress.step] at hstep
    split at hstep
    · next hroom =>
      cases hstep
      exact .nestingExceeded rfl (openCount_eq h hroom)
    · cases hstep
  · rw [htoken, Progress.step] at hstep
    split at hstep
    · next hroom =>
      cases hstep
      exact .nestingExceeded rfl (openCount_eq h hroom)
    · next hroom =>
      cases hstep
      refine .invalidIteration ?_ hnot
      rw [← length_levels h]
      omega

/-- A second branch is refused in a second branch, and where no conditional is innermost. -/
theorem fault_of_orElse (h : Progress.start.run limit 0 before = .ok q) {kind : ParseErrorKind}
    (hstep : q.orElse = .error kind) : Fault limit (directives before) .orElse kind := by
  have hinner := innermost_iff h .whenFalse
  unfold Progress.orElse at hstep
  split at hstep
  · cases hstep
  · next hlevels =>
    cases hstep
    rw [hlevels] at hinner
    exact .duplicateElse (hinner.2 rfl)
  · next hnot =>
    cases hstep
    refine .danglingElse fun hpart => ?_
    have hhead := hinner.1 hpart
    cases hlevels : q.levels with
    | nil =>
      rw [hlevels] at hhead
      cases hhead
    | cons level levels =>
      rw [hlevels] at hhead
      obtain ⟨branch, opened, nodes⟩ := level
      cases branch with
      | whenFalse key first => exact hnot key first opened nodes levels hlevels
      | _ => cases hhead

/-- The end of a block is refused where another block is innermost, or none. -/
theorem fault_of_close (h : Progress.start.run limit 0 before = .ok q) {closer : BlockKind}
    {kind : ParseErrorKind} (hstep : q.close closer = .error kind) :
    Fault limit (directives before) (.close closer) kind := by
  have hinner := innermost_iff h
  unfold Progress.close at hstep
  split at hstep
  · next hlevels =>
    cases hstep
    refine .danglingEndOutside closer fun part hpart => ?_
    have hhead := (hinner part).1 hpart
    rw [hlevels] at hhead
    cases hhead
  · next level levels hlevels =>
    split at hstep
    · cases hstep
    · cases hstep
      rw [← Branch.kind_part]
      refine .danglingEnd closer ((hinner _).2 ?_)
      rw [hlevels]
      rfl

/-- A step that fails has the fault of its directive. -/
theorem fault_of_step (h : Progress.start.run limit 0 before = .ok q) {d : Directive}
    {kind : ParseErrorKind}
    (hstep : q.step limit offset (.ofPiece (.directive d)) = .error kind) :
    Fault limit (directives before) d kind := by
  cases d with
  | place body =>
    obtain ⟨key, default, htoken⟩ := ofPlace_eq body
    rw [Token.ofPiece, htoken] at hstep
    cases hstep
  | openIf body =>
    rw [Token.ofPiece, Progress.step] at hstep
    split at hstep
    · next hroom =>
      cases hstep
      exact .nestingExceeded rfl (openCount_eq h hroom)
    · cases hstep
  | openFor body => exact fault_of_openFor h hstep
  | orElse => exact fault_of_orElse h hstep
  | close closer => exact fault_of_close h hstep

/-- **The fault of a step.** It is the only one that the directive has. -/
theorem fault_iff (h : Progress.start.run limit 0 before = .ok q) {d : Directive}
    {kind : ParseErrorKind}
    (hstep : q.step limit offset (.ofPiece (.directive d)) = .error kind)
    (kind' : ParseErrorKind) : Fault limit (directives before) d kind' ↔ kind = kind' := by
  constructor
  · exact (fault_of_step h hstep).eq fun _ _ => innermost_unique h
  · rintro rfl
    exact fault_of_step h hstep

end Steps

/-! ## Runs that fail -/

/-- A run fails at a piece after those that it takes. -/
theorem exists_of_run_eq_error {limit offset : Nat} {p : Progress} {pieces : List Piece}
    {kind : ParseErrorKind} {place : Nat} (h : p.run limit offset pieces = .error (kind, place)) :
    ∃ before piece after q, pieces = before ++ piece :: after ∧
      p.run limit offset before = .ok q ∧
      place = offset + byteLength (before.flatMap Piece.chars) ∧
      q.step limit place (.ofPiece piece) = .error kind := by
  induction pieces generalizing p offset with
  | nil => cases h
  | cons piece pieces ih =>
    rw [Progress.run] at h
    split at h
    · next hstep =>
      cases h
      exact ⟨[], piece, pieces, p, rfl, rfl, rfl, hstep⟩
    · next p' hstep =>
      obtain ⟨before, piece', after, q, rfl, hrun, hplace, hstep'⟩ := ih h
      refine ⟨piece :: before, piece', after, q, rfl, ?_, ?_, hstep'⟩
      · rw [Progress.run, hstep]
        exact hrun
      · rw [hplace, List.flatMap_cons, Text.byteLength_append, Nat.add_assoc]

/-- What the parser takes before the piece at which it fails is as long as can be completed. -/
theorem firstStuck_of_step {limit offset : Nat} {before after : List Piece} {d : Directive}
    {q : Progress} {kind : ParseErrorKind} (h : Progress.start.run limit 0 before = .ok q)
    (hoffset : offset = 0 + byteLength (before.flatMap Piece.chars))
    (hstep : q.step limit offset (.ofPiece (.directive d)) = .error kind) :
    FirstStuck limit (directives (before ++ .directive d :: after)) (directives before ++ [d]) where
  begins := by
    rw [directives_append, directives_cons]
    exact ⟨directives after, by simp⟩
  not_viable := by
    have hds : directives before ++ [d] = directives (before ++ [.directive d]) := by simp; rfl
    rw [hds, viable_iff, run_append h, Progress.run, ← hoffset, hstep]
    rintro ⟨_, hrun⟩
    cases hrun
  shortest := by
    intro ds hds hnot
    rw [directives_append, directives_cons] at hds
    rw [List.length_append, List.length_singleton]
    by_contra hshort
    -- a shorter beginning is one of what the parser takes
    have htaken : ds <+: directives before :=
      List.prefix_of_prefix_length_le hds (List.prefix_append _ _) (by omega)
    obtain ⟨more, hmore⟩ := htaken
    have hviable := (viable_iff limit before).2 ⟨q, h⟩
    rw [← hmore] at hviable
    exact hnot hviable.of_append

/-! ## Errors of the parser -/

/-- The parser fails where its run fails or where a block is open after it. -/
theorem parseChars_of_parse_eq_error {limit : Nat} {source : String} {e : ParseError}
    (h : parse limit source = .error e) :
    parseChars limit source.toList = .error (e.kind, e.offset) := by
  unfold parse at h
  split at h
  · next hchars =>
    cases h
    exact hchars
  · cases h

/-- A run that fails stands at the directive at which the pieces are first stuck. -/
theorem exists_firstStuck {limit offset : Nat} {pieces : List Piece} {kind : ParseErrorKind}
    (h : Progress.start.run limit 0 pieces = .error (kind, offset)) :
    ∃ before d after, pieces = before ++ .directive d :: after ∧
      FirstStuck limit (directives pieces) (directives before ++ [d]) ∧
      offset = byteLength (before.flatMap Piece.chars) ∧
      ∀ kind', Fault limit (directives before) d kind' ↔ kind = kind' := by
  obtain ⟨before, piece, after, q, rfl, hbefore, hoffset, hstep⟩ := exists_of_run_eq_error h
  cases piece with
  | text cs => cases hstep
  | directive d =>
    refine ⟨before, d, after, rfl, firstStuck_of_step hbefore hoffset hstep, ?_,
      fault_iff hbefore hstep⟩
    rw [hoffset, Nat.zero_add]

/-- A run that gets through but cannot finish stands at the innermost block that is open. -/
theorem exists_unclosed {limit offset : Nat} {pieces : List Piece} {q : Progress}
    {kind : ParseErrorKind} (h : Progress.start.run limit 0 pieces = .ok q)
    (hfinish : q.finish = .error (kind, offset)) :
    ∃ before d inner part room, pieces = before ++ .directive d :: inner ∧
      Reaches room d (directives inner) part ∧
      offset = byteLength (before.flatMap Piece.chars) ∧ kind = .unclosedBlock part.kind := by
  obtain ⟨room, hopened⟩ := exists_opened h
  unfold Progress.finish at hfinish
  split at hfinish
  · cases hfinish
  · next level levels hlevels =>
    rw [hlevels] at hopened
    obtain ⟨hkind, hoffset⟩ := Prod.mk.inj (Except.error.inj hfinish)
    cases hopened with
    | inside _ hplace hreaches =>
      refine ⟨_, _, _, _, _, rfl, hreaches, ?_, ?_⟩
      · rw [← hoffset, hplace]
      · rw [← hkind, Branch.kind_part]

/-- **The error of the parser.** It stands at the last directive of the shortest beginning that
cannot be completed, and tells the fault of this directive; if there is no such beginning, it stands
at the innermost block that is open at the end, and tells its kind. -/
theorem firstFault_of_parse_eq_error (limit : Nat) (source : String) (e : ParseError)
    (h : parse limit source = .error e) (pieces : List Piece)
    (hcut : IsCut source.toList pieces) :
    ((∃ ds, ds <+: directives pieces ∧ ¬Viable limit ds) →
      ∃ before d after, pieces = before ++ .directive d :: after ∧
        FirstStuck limit (directives pieces) (directives before ++ [d]) ∧
        e.offset = byteLength (before.flatMap Piece.chars) ∧
        ∀ kind, Fault limit (directives before) d kind ↔ e.kind = kind) ∧
    ((∀ ds, ds <+: directives pieces → Viable limit ds) →
      ∃ before d inner part room, pieces = before ++ .directive d :: inner ∧
        Reaches room d (directives inner) part ∧
        e.offset = byteLength (before.flatMap Piece.chars) ∧
        e.kind = .unclosedBlock part.kind) := by
  have herror := parseChars_of_parse_eq_error h
  rw [parseChars, ← (isCut_iff _ _).1 hcut] at herror
  constructor
  · rintro ⟨ds, ⟨more, hmore⟩, hnot⟩
    cases hrun : Progress.start.run limit 0 pieces with
    | ok q =>
      -- what is taken can be completed, and so can all that it begins with
      have hviable := (viable_iff limit pieces).2 ⟨q, hrun⟩
      rw [← hmore] at hviable
      exact absurd hviable.of_append hnot
    | error fault =>
      rw [hrun] at herror
      cases herror
      exact exists_firstStuck hrun
  · intro hall
    obtain ⟨q, hrun⟩ := (viable_iff limit pieces).1 (hall _ (List.prefix_refl _))
    rw [hrun] at herror
    exact exists_unclosed hrun herror

/-! ## A loop at the ceiling -/

namespace Ceiling

/-- A loop that names no collection starts inside of a conditional. -/
def source : String := "@if\x7ba\x7d@for\x7bb\x7d"

/-- Its directives. -/
def pieces : List Piece := [.directive (.openIf ['a']), .directive (.openFor ['b'])]

/-- The source is cut into its two directives. -/
theorem isCut_source : IsCut source.toList pieces := by
  have hsource : source.toList =
    (Directive.openIf ['a']).text ++ ((Directive.openFor ['b']).text ++ []) := rfl
  have hopenIf : (Directive.openIf ['a']).BraceFree := ⟨by decide, by decide⟩
  have hopenFor : (Directive.openFor ['b']).BraceFree := ⟨by decide, by decide⟩
  rw [isCut_iff, hsource, scan_text_append _ _ hopenIf, scan_text_append _ _ hopenFor, scan]
  rfl

/-- Where one block may be open, the run fails at the loop. -/
theorem run_pieces : Progress.start.run 1 0 pieces = .error (.nestingExceeded 1, 6) := rfl

/-- The loop is refused for the ceiling, though its body names no collection. -/
theorem firstFault_of_parse_eq_error_ceiling :
    ∃ e, parse 1 source = .error e ∧ IsCut source.toList pieces ∧
      (∃ ds, ds <+: directives pieces ∧ ¬Viable 1 ds) ∧ ¬NamesLoop ['b'] ∧
      FirstStuck 1 (directives pieces) [.openIf ['a'], .openFor ['b']] ∧ e.offset = 6 ∧
      ∀ kind, Fault 1 [.openIf ['a']] (.openFor ['b']) kind ↔ .nestingExceeded 1 = kind := by
  have hparse : parse 1 source =
      .error (.ofOffset (.nestingExceeded 1) source.toList 6) := by
    rw [parse, parseChars, ← (isCut_iff _ _).1 isCut_source, run_pieces]
  have hstuck : ∃ ds, ds <+: directives pieces ∧ ¬Viable 1 ds := by
    refine ⟨directives pieces, List.prefix_refl _, ?_⟩
    rw [viable_iff, run_pieces]
    rintro ⟨_, hrun⟩
    cases hrun
  have hbody : ¬NamesLoop ['b'] := by
    rcases ofFor_cases ['b'] with ⟨_, _, _, htoken⟩ | ⟨hnot, _⟩
    · cases htoken
    · exact hnot
  refine ⟨_, hparse, isCut_source, hstuck, hbody, ?_⟩
  obtain ⟨before, d, after, hpieces, hfirst, hoffset, hfault⟩ :=
    (firstFault_of_parse_eq_error 1 source _ hparse pieces isCut_source).1 hstuck
  -- the first directive alone ends at the offset of the second one
  rcases before with _ | ⟨first, _ | ⟨second, before⟩⟩
  · cases hpieces
    cases hoffset
  · cases hpieces
    exact ⟨hfirst, rfl, hfault⟩
  · simp [pieces] at hpieces

end Ceiling

end Stencil.Node
