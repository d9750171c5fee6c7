import Stencil.Proofs.FirstFault
import Stencil.Proofs.Creating

/-!
# The ceiling on open blocks

The same source under two ceilings. A lower ceiling makes no difference to what is built, and it
stops the parser at the first directive that opens a block where as many are open as may be; whether
there is one can be told from how deep the tree nests that a higher ceiling lets through. Main
statement: the ceiling is a filter on sources and nothing else, and no engine compiles a tree that
is too deep for it (`parse_eq_or_exceeded`).
-/

namespace Stencil.Node

open Stencil.Text (byteLength)

/-! ## Two runs -/

/-- A token does the same below two ceilings, unless it exceeds the lower one. -/
theorem step_eq_or_exceeded {limit limit' : Nat} (hlimit : limit ≤ limit') (p : Progress)
    (offset : Nat) (t : Token) :
    p.step limit offset t = p.step limit' offset t ∨
      p.step limit offset t = .error (.nestingExceeded limit) := by
  by_cases hfull : limit ≤ p.levels.length
  · -- whatever opens a block exceeds the lower ceiling, and the other tokens do not look at it
    cases t with
    | openIf key => exact Or.inr (if_pos hfull)
    | openFor name collection => exact Or.inr (if_pos hfull)
    | malformedFor body => exact Or.inr (if_pos hfull)
    | literal text => exact Or.inl rfl
    | placeholder key default => exact Or.inl rfl
    | orElse => exact Or.inl rfl
    | close kind => exact Or.inl rfl
  · have hroom : ¬limit' ≤ p.levels.length := by omega
    left
    cases t with
    | openIf key => rw [Progress.step, Progress.step, if_neg hfull, if_neg hroom]
    | openFor name collection => rw [Progress.step, Progress.step, if_neg hfull, if_neg hroom]
    | malformedFor body => rw [Progress.step, Progress.step, if_neg hfull, if_neg hroom]
    | literal text => rfl
    | placeholder key default => rfl
    | orElse => rfl
    | close kind => rfl

/-- **Two runs side by side.** They are the same, unless the lower ceiling is exceeded. -/
theorem run_eq_or_exceeded {limit limit' : Nat} (hlimit : limit ≤ limit') (p : Progress)
    (offset : Nat) (pieces : List Piece) :
    p.run limit offset pieces = p.run limit' offset pieces ∨
      ∃ place, p.run limit offset pieces = .error (.nestingExceeded limit, place) := by
  induction pieces generalizing p offset with
  | nil => exact Or.inl rfl
  | cons piece pieces ih =>
    rw [Progress.run, Progress.run]
    rcases step_eq_or_exceeded hlimit p offset (.ofPiece piece) with hstep | hstep
    · rw [hstep]
      cases p.step limit' offset (.ofPiece piece) with
      | error kind => exact Or.inl rfl
      | ok q => exact ih q _
    · rw [hstep]
      exact Or.inr ⟨offset, rfl⟩

/-- A source is parsed alike below two ceilings, unless the lower one is exceeded. -/
theorem parseChars_eq_or_exceeded {limit limit' : Nat} (hlimit : limit ≤ limit')
    (source : List Char) :
    parseChars limit source = parseChars limit' source ∨
      ∃ place, parseChars limit source = .error (.nestingExceeded limit, place) := by
  unfold parseChars
  rcases run_eq_or_exceeded hlimit .start 0 (scan source) with hrun | ⟨place, hrun⟩
  · left
    rw [hrun]
  · right
    rw [hrun]
    exact ⟨place, rfl⟩

/-! ## Where the ceiling is exceeded -/

/-- The first directive of some pieces that opens a block where `limit` blocks are open: `d`, which
stands behind `before`. -/
structure FirstExceeding (limit : Nat) (pieces before : List Piece) (d : Directive) : Prop where
  stands : before ++ [.directive d] <+: pieces
  opens : d.isOpener = true
  full : openCount (directives before) = limit
  first : ∀ (earlier : List Piece) (d' : Directive), earlier ++ [.directive d'] <+: pieces →
    d'.isOpener = true → openCount (directives earlier) = limit → before.length ≤ earlier.length

/-- A directive that opens a block is refused where the levels reach the ceiling. -/
theorem step_of_isOpener {limit offset : Nat} {p : Progress} {d : Directive}
    (hd : d.isOpener = true) (hfull : limit ≤ p.levels.length) :
    p.step limit offset (.ofPiece (.directive d)) = .error (.nestingExceeded limit) := by
  cases d with
  | openIf body => exact if_pos hfull
  | openFor body =>
    show p.step limit offset (.ofFor body) = _
    rcases ofFor_cases body with ⟨_, name, collection, htoken⟩ | ⟨_, htoken⟩
    · rw [htoken]
      exact if_pos hfull
    · rw [htoken]
      exact if_pos hfull
  | place body => cases hd
  | orElse => cases hd
  | close kind => cases hd

/-- Only a directive that opens a block exceeds the ceiling, and only where the levels reach it. -/
theorem isOpener_of_exceeded {limit offset : Nat} {p : Progress} {d : Directive}
    (h : p.step limit offset (.ofPiece (.directive d)) = .error (.nestingExceeded limit)) :
    d.isOpener = true ∧ limit ≤ p.levels.length := by
  cases d with
  | openIf body =>
    refine ⟨rfl, ?_⟩
    by_contra hroom
    rw [Token.ofPiece, Progress.step, if_neg hroom] at h
    cases h
  | openFor body =>
    refine ⟨rfl, ?_⟩
    by_contra hroom
    rcases ofFor_cases body with ⟨_, name, collection, htoken⟩ | ⟨_, htoken⟩
    · rw [Token.ofPiece, htoken, Progress.step, if_neg hroom] at h
      cases h
    · rw [Token.ofPiece, htoken, Progress.step, if_neg hroom] at h
      cases h
  | place body =>
    obtain ⟨key, default, htoken⟩ := ofPlace_eq body
    rw [Token.ofPiece, htoken] at h
    cases h
  | orElse =>
    have h : p.orElse = .error (.nestingExceeded limit) := h
    unfold Progress.orElse at h
    split at h <;> cases h
  | close kind =>
    have h : p.close kind = .error (.nestingExceeded limit) := h
    unfold Progress.close at h
    split at h
    · cases h
    · split at h <;> cases h

/-- **Where the ceiling is exceeded.** A run that exceeds it stops at the first directive that opens
a block where the ceiling is reached. -/
theorem exists_firstExceeding {limit place : Nat} {pieces : List Piece}
    (h : Progress.start.run limit 0 pieces = .error (.nestingExceeded limit, place)) :
    ∃ before d, FirstExceeding limit pieces before d ∧
      place = byteLength (before.flatMap Piece.chars) := by
  obtain ⟨before, piece, after, q, rfl, hbefore, hplace, hstep⟩ := exists_of_run_eq_error h
  rw [Nat.zero_add] at hplace
  cases piece with
  | text cs => cases hstep
  | directive d =>
    obtain ⟨hopens, hfull⟩ := isOpener_of_exceeded hstep
    refine ⟨before, d, ⟨⟨after, by simp⟩, hopens, openCount_eq hbefore hfull, ?_⟩, hplace⟩
    intro earlier d' hstands hopens' hfull'
    by_contra hshort
    -- what the run takes begins with the earlier directive, which it would have refused
    have hbegins : earlier ++ [.directive d'] <+: before := by
      refine List.prefix_of_prefix_length_le hstands (List.prefix_append _ _) ?_
      rw [List.length_append, List.length_singleton]
      omega
    obtain ⟨between, rfl⟩ := hbegins
    obtain ⟨p, hp, _⟩ := exists_of_run_append hbefore
    obtain ⟨p', hp', hlast⟩ := exists_of_run_append hp
    have hlevels : limit ≤ p'.levels.length := by
      rw [length_levels hp']
      exact Nat.le_of_eq hfull'.symm
    rw [Progress.run, step_of_isOpener hopens' hlevels] at hlast
    cases hlast

/-- A parser that exceeds the ceiling does so while it runs. -/
theorem run_of_parseChars_exceeded {limit place : Nat} {source : List Char}
    (h : parseChars limit source = .error (.nestingExceeded limit, place)) :
    Progress.start.run limit 0 (scan source) = .error (.nestingExceeded limit, place) := by
  unfold parseChars at h
  split at h
  · next hrun =>
    cases h
    exact hrun
  · next q hrun =>
    -- a block that is open at the end is another error
    unfold Progress.finish at h
    split at h <;> cases h

/-! ## Trees of a higher ceiling -/

/-- A source that has a tree has the same tree below any ceiling that the tree fits under. -/
theorem parse_of_depth_le {limit limit' : Nat} {source : String} {nodes : List Node}
    (h : parse limit' source = .ok nodes) (hdepth : listDepth nodes ≤ limit) :
    parse limit source = .ok nodes := by
  rw [parse_eq_ok_iff_parseChars, parseChars_eq_ok_iff] at h ⊢
  exact ⟨hdepth, h.2⟩

/-- A source whose tree does not fit under a ceiling exceeds it. -/
theorem parse_of_lt_depth {limit limit' : Nat} (hlimit : limit ≤ limit') {source : String}
    {nodes : List Node} (h : parse limit' source = .ok nodes) (hdepth : limit < listDepth nodes) :
    ∃ pieces before d, IsCut source.toList pieces ∧ FirstExceeding limit pieces before d ∧
      parse limit source = .error (.ofOffset (.nestingExceeded limit) source.toList
        (byteLength (before.flatMap Piece.chars))) := by
  have hchars := (parse_eq_ok_iff_parseChars limit' source nodes).1 h
  rcases parseChars_eq_or_exceeded hlimit source.toList with hsame | ⟨place, hexceeded⟩
  · -- the lower ceiling would have let the tree through
    have hdepth' := ((parseChars_eq_ok_iff _ _ _).1 (hsame.trans hchars)).1
    omega
  · have hrun := run_of_parseChars_exceeded hexceeded
    obtain ⟨before, d, hfirst, hplace⟩ := exists_firstExceeding hrun
    refine ⟨scan source.toList, before, d, isCut_scan source.toList, hfirst, ?_⟩
    rw [parse, hexceeded, hplace]

/-- A tree that the parser yields fits under its ceiling. -/
theorem listDepth_of_parse {limit : Nat} {source : String} {nodes : List Node}
    (h : parse limit source = .ok nodes) : listDepth nodes ≤ limit :=
  ((parseChars_eq_ok_iff _ _ _).1 ((parse_eq_ok_iff_parseChars _ _ _).1 h)).1

end Stencil.Node

namespace Stencil

/-! ## Engines -/

/-- A cache that is missing gives an answer, so an error comes from a cache. -/
theorem Session.error_of_withCache {α : Type} {s s' : Session} {id : CacheId} {missing : α}
    {request : Cache → Except Error α × Cache} {err : Error}
    (h : s.withCache id missing request = (.error err, s')) :
    ∃ c, (request c).1 = .error err := by
  unfold withCache at h
  split at h
  · cases h
  · next c _ => exact ⟨c, congrArg Prod.fst h⟩

/-- A cache that does not answer refuses to be read. -/
theorem Cache.error_of_get {c : Cache} {key : String} {err : Error}
    (h : (c.get key).1 = .error err) : err = .cache .get := by
  unfold Cache.get at h
  split at h
  · exact (Except.error.inj h).symm
  · cases h

/-- A cache that does not store refuses to do so. -/
theorem Cache.error_of_set {c : Cache} {key : String} {t : Template} {err : Error}
    (h : (c.set key t).1 = .error err) : err = .cache .set := by
  unfold Cache.set at h
  split at h
  · exact (Except.error.inj h).symm
  · cases h

namespace Engine

/-- What the engine's own parser yields the engine compiles into the block of the nodes. -/
theorem compile_eq_of_parse {e : Engine} {source : String} {nodes : List Node}
    (h : e.parse source = .ok nodes) :
    e.compile nodes = .ok (Block.ofNodes e.config.keyValidation ∅ ∅ nodes) := by
  unfold parse at h
  split at h
  · cases h
  · next hparse =>
    cases h
    have hdepth := Node.listDepth_of_parse hparse
    rw [compile, Block.compile_eq_ok hdepth]

/-- What the engine's own parser yields the engine compiles. -/
theorem compile_of_parse {e : Engine} {source : String} {nodes : List Node}
    (h : e.parse source = .ok nodes) : ∃ b, e.compile nodes = .ok b :=
  ⟨_, compile_eq_of_parse h⟩

/-- A source that is not parsed has an error of the parser. -/
theorem error_of_parse {e : Engine} {source : String} {err : Error}
    (h : e.parse source = .error err) : ∃ cause, err = .parse cause := by
  unfold parse at h
  split at h
  · next cause hparse => exact ⟨cause, (Except.error.inj h).symm⟩
  · cases h

/-- A source that is parsed is compiled. -/
theorem compileSource_ne_compile (e : Engine) (source : String) (err : CompileError) :
    e.compileSource source ≠ .error (.compile err) := by
  intro h
  unfold compileSource at h
  cases hparse : e.parse source with
  | error err' =>
    obtain ⟨cause, rfl⟩ := error_of_parse hparse
    rw [hparse] at h
    cases h
  | ok nodes =>
    obtain ⟨b, hb⟩ := compile_of_parse hparse
    rw [hparse] at h
    have h : e.compile nodes = .error (.compile err) := h
    rw [hb] at h
    cases h

/-- A source that does not become a template has an error of the parser. -/
theorem error_of_build {e : Engine} {source : String} {s : Session} {err : Error}
    (h : (e.build source s).1 = .error err) : ∃ cause, err = .parse cause := by
  unfold build at h
  split at h
  · next hparse =>
    cases h
    exact error_of_parse hparse
  · next nodes hparse =>
    obtain ⟨b, hb⟩ := compile_of_parse hparse
    rw [compileNodes, hb] at h
    cases h

/-- A request for a template fails because of the source or because of the cache. -/
theorem error_of_createTemplate {e : Engine} {source : String} {s : Session} {err : Error}
    (h : (e.createTemplate source s).1 = .error err) :
    (∃ cause, err = .parse cause) ∨ ∃ request, err = .cache request := by
  unfold createTemplate at h
  split at h
  · exact .inl (error_of_build h)
  · next id hid =>
    split at h
    · next err' s' hget =>
      cases h
      obtain ⟨c, hc⟩ := Session.error_of_withCache hget
      exact .inr ⟨_, Cache.error_of_get hc⟩
    · cases h
    · next s' hget =>
      split at h
      · next err' s'' hbuild =>
        cases h
        have hbuild : (e.build source s').1 = .error err := by rw [hbuild]
        exact .inl (error_of_build hbuild)
      · next t s'' hbuild =>
        split at h
        · next err' s''' hset =>
          cases h
          obtain ⟨c, hc⟩ := Session.error_of_withCache hset
          exact .inr ⟨_, Cache.error_of_set hc⟩
        · cases h

/-- A request for a template never fails because a tree is too deep, whatever its cache does. -/
theorem createTemplate_ne_compile (e : Engine) (source : String) (s : Session)
    (err : CompileError) : (e.createTemplate source s).1 ≠ .error (.compile err) := by
  intro h
  rcases error_of_createTemplate h with ⟨cause, herr⟩ | ⟨request, herr⟩
  · cases herr
  · cases herr

end Engine

/-! ## The main statement -/

/-- **The ceiling is a filter.** Below a lower ceiling a source is parsed as it is below a higher
one, unless it exceeds the lower one. If the higher one lets a tree through, then the lower one does
so exactly if the tree fits, and is exceeded otherwise at the first directive that opens a block
where as many are open as may be. An engine parses and compiles under one ceiling, so no tree that
it parses is too deep to be compiled. -/
theorem parse_eq_or_exceeded (source : String) (limit limit' : Nat) (h : limit ≤ limit') :
    (Node.parse limit source = Node.parse limit' source ∨
      ∃ e, Node.parse limit source = .error e ∧ e.kind = .nestingExceeded limit) ∧
    (∀ nodes, Node.parse limit' source = .ok nodes →
      (Node.listDepth nodes ≤ limit → Node.parse limit source = .ok nodes) ∧
      (limit < Node.listDepth nodes →
        ∃ pieces before d, Node.IsCut source.toList pieces ∧
          Node.FirstExceeding limit pieces before d ∧
          Node.parse limit source = .error (.ofOffset (.nestingExceeded limit) source.toList
            (Text.byteLength (before.flatMap Node.Piece.chars))))) ∧
    ∀ (e : Engine) (s : Session) (err : CompileError),
      e.compileSource source ≠ .error (.compile err) ∧
        (e.createTemplate source s).1 ≠ .error (.compile err) := by
  refine ⟨?_, ?_, ?_⟩
  · rcases Node.parseChars_eq_or_exceeded h source.toList with hsame | ⟨place, hexceeded⟩
    · left
      rw [Node.parse, Node.parse, hsame]
    · right
      refine ⟨.ofOffset (.nestingExceeded limit) source.toList place, ?_, rfl⟩
      rw [Node.parse, hexceeded]
  · intro nodes hnodes
    constructor
    · intro hdepth
      exact Node.parse_of_depth_le hnodes hdepth
    · intro hdepth
      exact Node.parse_of_lt_depth h hnodes hdepth
  · intro e s err
    constructor
    · exact e.compileSource_ne_compile source err
    · exact e.createTemplate_ne_compile source s err

/-- A conditional in a loop in the second branch of a conditional, whose first branch holds a
conditional too. -/
def thirdBlock : String :=
  "@if\x7ba\x7d@if\x7bb\x7d@endif@else@for\x7bx in xs\x7d@if\x7bc\x7d@endif@endfor@endif"

/-- Where two blocks may be open, the third one is where the ceiling is exceeded: the block in the
first branch is closed before it starts. -/
theorem parse_eq_or_exceeded_third :
    2 ≤ 3 ∧ ∃ nodes, Node.parse 3 thirdBlock = .ok nodes ∧ 2 < Node.listDepth nodes ∧
      ∃ pieces before d, Node.IsCut thirdBlock.toList pieces ∧
        Node.FirstExceeding 2 pieces before d ∧
        Node.parse 2 thirdBlock = .error (.ofOffset (.nestingExceeded 2) thirdBlock.toList
          (Text.byteLength (before.flatMap Node.Piece.chars))) := by
  have hnodes : Node.parse 3 thirdBlock = .ok [.conditional "a" [.conditional "b" [] none]
      (some [.iteration "x" "xs" [.conditional "c" [] none]])] := by
    rw [Node.parse_eq_ok_iff_parseChars, Node.parseChars_eq_ok_iff]
    exact ⟨by decide, by decide +kernel⟩
  have hdepth : 2 < Node.listDepth [.conditional "a" [.conditional "b" [] none]
      (some [.iteration "x" "xs" [.conditional "c" [] none]])] := by decide
  refine ⟨by decide, _, hnodes, hdepth, ?_⟩
  exact ((parse_eq_or_exceeded thirdBlock 2 3 (by decide)).2.1 _ hnodes).2 hdepth

end Stencil
