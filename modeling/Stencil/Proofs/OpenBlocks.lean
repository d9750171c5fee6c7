import Stencil.Proofs.Balance

/-!
# Open blocks

The blocks that the parser holds open, and those that are open after the directives it has taken.
What it has taken falls apart into the openers of its levels and what is balanced between them, so
closing the levels completes it; and what can be completed it can take, since it gets through
whatever is balanced. Main statements: the parser takes some pieces exactly if their directives can
be completed (`viable_iff`), its innermost level is then the innermost open block
(`innermost_iff`), and it has as many levels as blocks are open (`length_levels`).
-/

namespace Stencil.Node

open Stencil.Text (trimChars byteLength)

/-! ## Open blocks of the parser -/

/-- The part of a block that is being filled. -/
def Branch.part : Branch → Part
  | .whenTrue _ => .whenTrue
  | .whenFalse _ _ => .whenFalse
  | .body _ _ => .body

/-- A block is of the kind of its part. -/
theorem Branch.kind_part (branch : Branch) : branch.part.kind = branch.kind := by
  cases branch <;> rfl

/-- Pieces after which the blocks of some levels are open, with room for `room` more: each block
stands where its level says, and between the blocks everything is balanced. -/
inductive Opened (limit : Nat) : Nat → List Level → List Piece → Prop where
  | root {pieces : List Piece} (h : Balanced limit (directives pieces)) :
    Opened limit limit [] pieces
  | inside {room : Nat} {level : Level} {levels : List Level} {before inner : List Piece}
    {d : Directive} (outer : Opened limit (room + 1) levels before)
    (hoffset : level.offset = byteLength (before.flatMap Piece.chars))
    (hreaches : Reaches room d (directives inner) level.branch.part) :
    Opened limit room (level :: levels) (before ++ .directive d :: inner)

namespace Opened

variable {limit room : Nat} {levels : List Level} {pieces : List Piece}

/-- The open blocks take the room that is gone. -/
theorem room_add_length (h : Opened limit room levels pieces) : room + levels.length = limit := by
  induction h with
  | root => rfl
  | inside _ _ _ ih =>
    rw [List.length_cons]
    omega

/-- Balanced pieces leave the blocks open where they are. -/
theorem append (h : Opened limit room levels pieces) {block : List Piece}
    (hblock : Balanced room (directives block)) : Opened limit room levels (pieces ++ block) := by
  cases h with
  | root h =>
    refine .root ?_
    rw [directives_append]
    exact h.append hblock
  | inside outer hoffset hreaches =>
    rw [List.append_assoc, List.cons_append]
    refine .inside outer hoffset ?_
    rw [directives_append]
    exact hreaches.append hblock

/-- A block starts. -/
theorem openBlock (h : Opened limit room levels pieces) (hroom : levels.length < limit)
    {d : Directive} {branch : Branch} (hreaches : ∀ room, Reaches room d [] branch.part)
    (before : List Node) :
    ∃ room', Opened limit room'
      (⟨branch, byteLength (pieces.flatMap Piece.chars), before⟩ :: levels)
      (pieces ++ [.directive d]) := by
  have hlength := h.room_add_length
  obtain ⟨room', rfl⟩ : ∃ room', room = room' + 1 := ⟨room - 1, by omega⟩
  exact ⟨room', .inside h rfl (hreaches room')⟩

/-- The innermost conditional goes on with its second branch. -/
theorem orElse {key : String} {offset : Nat} {first before before' : List Node}
    (h : Opened limit room (⟨.whenTrue key, offset, before⟩ :: levels) pieces) :
    Opened limit room (⟨.whenFalse key first, offset, before'⟩ :: levels)
      (pieces ++ [.directive .orElse]) := by
  cases h with
  | inside outer hoffset hreaches =>
    rw [List.append_assoc, List.cons_append]
    refine .inside outer hoffset ?_
    rw [directives_append]
    exact hreaches.orElse

/-- The innermost block ends. -/
theorem close {level : Level} (h : Opened limit room (level :: levels) pieces) :
    Opened limit (room + 1) levels (pieces ++ [.directive (.close level.branch.kind)]) := by
  cases h with
  | inside outer hoffset hreaches =>
    rw [List.append_assoc, List.cons_append]
    refine outer.append ?_
    rw [directives_cons, directives_append, ← Branch.kind_part]
    exact hreaches.close

/-- **The open blocks after one more piece.** -/
theorem step {p q : Progress} {piece : Piece} (h : Opened limit room p.levels pieces)
    (hstep : p.step limit (byteLength (pieces.flatMap Piece.chars)) (.ofPiece piece) = .ok q) :
    ∃ room', Opened limit room' q.levels (pieces ++ [piece]) := by
  have hadvances := (step_eq_ok_iff _ _ _ _ _).1 hstep
  cases piece with
  | text cs =>
    cases hadvances with
    | literal => exact ⟨room, h.append (.nil room)⟩
  | directive d =>
    cases d with
    | place body =>
      obtain ⟨key, default, htoken⟩ := ofPlace_eq body
      rw [Token.ofPiece, htoken] at hadvances
      cases hadvances with
      | placeholder => exact ⟨room, h.append (.place body (.nil room))⟩
    | openIf body =>
      cases hadvances with
      | openIf p offset key hroom =>
        exact h.openBlock hroom (fun room => .whenTrue body (.nil room)) _
    | openFor body =>
      rcases ofFor_cases body with ⟨hbody, name, collection, htoken⟩ | ⟨_, htoken⟩
      · rw [Token.ofPiece, htoken] at hadvances
        cases hadvances with
        | openFor p offset name collection hroom =>
          exact h.openBlock hroom (fun room => .body hbody (.nil room)) _
      · rw [Token.ofPiece, htoken] at hadvances
        cases hadvances
    | orElse =>
      cases hadvances with
      | orElse => exact ⟨room, orElse h⟩
    | close kind =>
      cases hadvances with
      | close => exact ⟨room + 1, close h⟩

/-- **The open blocks after a run.** -/
theorem run {p q : Progress} {more : List Piece} (h : Opened limit room p.levels pieces)
    (hrun : p.run limit (byteLength (pieces.flatMap Piece.chars)) more = .ok q) :
    ∃ room', Opened limit room' q.levels (pieces ++ more) := by
  induction more generalizing p room pieces with
  | nil =>
    cases hrun
    rw [List.append_nil]
    exact ⟨room, h⟩
  | cons piece more ih =>
    rw [Progress.run] at hrun
    split at hrun
    · cases hrun
    · next p' hstep =>
      obtain ⟨room', h'⟩ := h.step hstep
      have hoffset : byteLength (pieces.flatMap Piece.chars) + byteLength piece.chars =
          byteLength ((pieces ++ [piece]).flatMap Piece.chars) := by
        simp
      rw [hoffset] at hrun
      obtain ⟨room'', h''⟩ := ih h' hrun
      rw [List.append_assoc, List.singleton_append] at h''
      exact ⟨room'', h''⟩

/-- **Open blocks can be closed.** -/
theorem viable (h : Opened limit room levels pieces) : Viable limit (directives pieces) := by
  induction levels generalizing room pieces with
  | nil =>
    cases h with
    | root h => exact ⟨[], by rwa [List.append_nil]⟩
  | cons level levels ih =>
    -- the innermost block is closed first, and then the others
    have hclosed := ih h.close
    rw [directives_append] at hclosed
    exact hclosed.of_append

/-- The innermost block has come to the part that its level is at. -/
theorem innermost {level : Level} (h : Opened limit room (level :: levels) pieces) :
    Innermost (directives pieces) level.branch.part := by
  cases h with
  | inside _ _ hreaches =>
    rw [directives_append, directives_cons]
    exact ⟨_, _, _, _, rfl, hreaches⟩

end Opened

/-! ## What the parser takes -/

/-- A run that fails on some pieces fails there whatever follows. -/
theorem run_append_of_error {limit offset : Nat} {p : Progress} {first : List Piece}
    {e : ParseErrorKind × Nat} (h : p.run limit offset first = .error e) (second : List Piece) :
    p.run limit offset (first ++ second) = .error e := by
  induction first generalizing p offset with
  | nil => cases h
  | cons piece pieces ih =>
    rw [Progress.run] at h
    rw [List.cons_append, Progress.run]
    split at h
    · exact h
    · exact ih h

/-- A run over two lists of pieces takes the first one and then the second one. -/
theorem exists_of_run_append {limit offset : Nat} {p q : Progress} {first second : List Piece}
    (h : p.run limit offset (first ++ second) = .ok q) :
    ∃ p', p.run limit offset first = .ok p' ∧
      p'.run limit (offset + byteLength (first.flatMap Piece.chars)) second = .ok q := by
  cases hfirst : p.run limit offset first with
  | error e =>
    rw [run_append_of_error hfirst] at h
    cases h
  | ok p' =>
    rw [run_append hfirst] at h
    exact ⟨p', rfl, h⟩

/-- After a run the blocks of the levels are open. -/
theorem exists_opened {limit : Nat} {q : Progress} {pieces : List Piece}
    (h : Progress.start.run limit 0 pieces = .ok q) :
    ∃ room, Opened limit room q.levels pieces := by
  have hstart : Opened limit limit Progress.start.levels [] := .root (.nil limit)
  exact hstart.run h

/-- **The parser takes what can be completed.** -/
theorem viable_iff (limit : Nat) (pieces : List Piece) :
    Viable limit (directives pieces) ↔ ∃ q, Progress.start.run limit 0 pieces = .ok q := by
  constructor
  · rintro ⟨more, hmore⟩
    have hpieces : directives (pieces ++ more.map .directive) = directives pieces ++ more := by
      simp
    have hroom : limit + Progress.start.levels.length ≤ limit := Nat.le_refl _
    obtain ⟨nodes, hrun⟩ := (Fits.of_balanced hmore hpieces).run Progress.start hroom 0
    obtain ⟨q, hq, _⟩ := exists_of_run_append hrun
    exact ⟨q, hq⟩
  · rintro ⟨q, hq⟩
    obtain ⟨room, hopened⟩ := exists_opened hq
    exact hopened.viable

/-! ## The innermost open block -/

/-- What a token does below one limit it does below a higher one. -/
theorem Advances.mono {limit limit' offset : Nat} {p q : Progress} {t : Token}
    (h : Advances limit p offset t q) (hlimit : limit ≤ limit') :
    Advances limit' p offset t q := by
  cases h with
  | literal => exact .literal ..
  | placeholder => exact .placeholder ..
  | openIf _ _ _ hroom => exact .openIf _ _ _ (Nat.lt_of_lt_of_le hroom hlimit)
  | openFor _ _ _ _ hroom => exact .openFor _ _ _ _ (Nat.lt_of_lt_of_le hroom hlimit)
  | orElse => exact .orElse ..
  | close => exact .close ..

/-- What the parser takes below one limit it takes below a higher one. -/
theorem run_mono {limit limit' offset : Nat} {p q : Progress} {pieces : List Piece}
    (h : p.run limit offset pieces = .ok q) (hlimit : limit ≤ limit') :
    p.run limit' offset pieces = .ok q := by
  induction pieces generalizing p offset with
  | nil => exact h
  | cons piece pieces ih =>
    rw [Progress.run] at h
    split at h
    · cases h
    · next p' hstep =>
      rw [run_cons (((step_eq_ok_iff _ _ _ _ _).1 hstep).mono hlimit)]
      exact ih h

/-- What fits leaves the innermost level at its part. -/
theorem Fits.run_level {limit room : Nat} {pieces : List Piece} (h : Fits room pieces)
    {nodes : List Node} {level : Level} {levels : List Level}
    (hroom : room + (levels.length + 1) ≤ limit) (offset : Nat) :
    ∃ nodes' level', Progress.run limit ⟨nodes, level :: levels⟩ offset pieces =
      .ok ⟨nodes', level' :: levels⟩ ∧ level'.branch.part = level.branch.part := by
  obtain ⟨nodes', hrun⟩ := h.run ⟨nodes, level :: levels⟩ hroom offset
  exact ⟨nodes', level, hrun, rfl⟩

/-- A block that has come to a part is one more level at that part. -/
theorem run_reaches {limit room : Nat} {p : Progress} {d : Directive} {inner : List Piece}
    {part : Part} (h : Reaches room d (directives inner) part)
    (hroom : room + (p.levels.length + 1) ≤ limit) (offset : Nat) :
    ∃ nodes level, p.run limit offset (.directive d :: inner) = .ok ⟨nodes, level :: p.levels⟩ ∧
      level.branch.part = part := by
  have hlevel : p.levels.length < limit := by omega
  generalize hds : directives inner = ds at h
  cases h with
  | whenTrue key hinner =>
    rw [run_cons (Advances.openIf p offset _ hlevel)]
    exact (Fits.of_balanced hinner hds).run_level hroom _
  | whenFalse key hfirst hsecond =>
    obtain ⟨first, second, rfl, hds₁, hds₂⟩ := exists_of_directives_eq hds
    rw [run_cons (Advances.openIf p offset _ hlevel)]
    obtain ⟨nodes, hrun⟩ := (Fits.of_balanced hfirst hds₁).run
      (p.openBlock (.whenTrue (String.ofList (trimChars key))) offset) hroom _
    rw [run_append hrun]
    have horElse := fun offset' => @Advances.orElse limit nodes p.nodes
      (String.ofList (trimChars key)) offset offset' p.levels
    rw [Progress.openBlock, run_cons (horElse _)]
    exact (Fits.of_balanced hsecond hds₂).run_level hroom _
  | @body body _ hbody hinner =>
    rcases ofFor_cases body with ⟨_, name, collection, htoken⟩ | ⟨hnot, _⟩
    · have hopener : Token.ofPiece (.directive (.openFor body)) = .openFor name collection := htoken
      rw [run_cons (hopener ▸ Advances.openFor p offset name collection hlevel)]
      exact (Fits.of_balanced hinner hds).run_level hroom _
    · exact absurd hbody hnot

/-- **The innermost open block.** After a run it is that of the innermost level. -/
theorem innermost_iff {limit : Nat} {q : Progress} {pieces : List Piece}
    (h : Progress.start.run limit 0 pieces = .ok q) (part : Part) :
    Innermost (directives pieces) part ↔
      q.levels.head?.map (fun level => level.branch.part) = some part := by
  constructor
  · rintro ⟨room, before, d, inner, hds, hreaches⟩
    obtain ⟨first, second, rfl, _, rfl⟩ := exists_of_directives_eq hds
    obtain ⟨p, hfirst, hsecond⟩ := exists_of_run_append h
    obtain ⟨room', hopened⟩ := exists_opened hfirst
    have hlength := hopened.room_add_length
    -- nothing is known of the blocks inside the innermost one, so the limit is raised for them
    have hraised : limit ≤ limit + room + 1 := by omega
    obtain ⟨nodes, level, hrun, hpart⟩ := run_reaches hreaches
      (by omega : room + (p.levels.length + 1) ≤ limit + room + 1)
      (0 + byteLength (first.flatMap Piece.chars))
    rw [run_mono hsecond hraised] at hrun
    cases hrun
    exact congrArg some hpart
  · intro hpart
    obtain ⟨room, hopened⟩ := exists_opened h
    cases hlevels : q.levels with
    | nil =>
      rw [hlevels] at hpart
      cases hpart
    | cons level levels =>
      rw [hlevels] at hopened hpart
      obtain rfl : level.branch.part = part := Option.some.inj hpart
      exact hopened.innermost

/-! ## The number of open blocks -/

/-- Whether a directive opens a block. -/
def Directive.isOpener : Directive → Bool
  | .openIf _ => true
  | .openFor _ => true
  | _ => false

/-- Whether a directive closes a block. -/
def Directive.isCloser : Directive → Bool
  | .close _ => true
  | _ => false

/-- The number of blocks that are open after some directives. -/
def openCount (ds : List Directive) : Nat :=
  ds.countP Directive.isOpener - ds.countP Directive.isCloser

/-- As many blocks are closed as are opened in balanced directives. -/
theorem Balanced.countP_isOpener {room : Nat} {ds : List Directive} (h : Balanced room ds) :
    ds.countP Directive.isOpener = ds.countP Directive.isCloser := by
  induction h with
  | nil => rfl
  | place body _ ih => simpa [List.countP_cons, Directive.isOpener, Directive.isCloser] using ih
  | conditional key _ _ ihInner ih =>
    simp [List.countP_cons, Directive.isOpener, Directive.isCloser, ihInner, ih]
    omega
  | alternative key _ _ _ ihFirst ihSecond ih =>
    simp [List.countP_cons, Directive.isOpener, Directive.isCloser, ihFirst, ihSecond, ih]
    omega
  | iteration _ _ _ ihInner ih =>
    simp [List.countP_cons, Directive.isOpener, Directive.isCloser, ihInner, ih]
    omega

/-- One more block is opened than closed where a block is open. -/
theorem Reaches.countP_isOpener {room : Nat} {d : Directive} {ds : List Directive} {part : Part}
    (h : Reaches room d ds part) :
    (d :: ds).countP Directive.isOpener = (d :: ds).countP Directive.isCloser + 1 := by
  cases h with
  | whenTrue key h =>
    simp [List.countP_cons, Directive.isOpener, Directive.isCloser, h.countP_isOpener]
  | whenFalse key hfirst hsecond =>
    simp [List.countP_cons, Directive.isOpener, Directive.isCloser, hfirst.countP_isOpener,
      hsecond.countP_isOpener]
  | body hbody h =>
    simp [List.countP_cons, Directive.isOpener, Directive.isCloser, h.countP_isOpener]

/-- As many more blocks are opened than closed as there are levels. -/
theorem Opened.countP_isOpener {limit room : Nat} {levels : List Level} {pieces : List Piece}
    (h : Opened limit room levels pieces) :
    (directives pieces).countP Directive.isOpener =
      (directives pieces).countP Directive.isCloser + levels.length := by
  induction h with
  | root h => exact h.countP_isOpener
  | inside _ _ hreaches ih =>
    have hinner := hreaches.countP_isOpener
    rw [directives_append, directives_cons, List.countP_append, List.countP_append, ih, hinner,
      List.length_cons]
    omega

/-- **The number of open blocks.** After a run it is that of the levels. -/
theorem length_levels {limit : Nat} {q : Progress} {pieces : List Piece}
    (h : Progress.start.run limit 0 pieces = .ok q) :
    q.levels.length = openCount (directives pieces) := by
  obtain ⟨room, hopened⟩ := exists_opened h
  rw [openCount, hopened.countP_isOpener]
  omega

end Stencil.Node
