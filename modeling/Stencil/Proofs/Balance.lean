import Stencil.Proofs.Grammar

/-!
# Balanced directives

Which sequences of directives are those of whole templates, said without the parser, and which
blocks are open after the beginning of one. Main statement: the parser gets through whatever is
balanced, and leaves the blocks that were open before as they were (`Fits.of_balanced`).
-/

namespace Stencil.Node

open Stencil.Text (trimChars byteLength)

/-! ## Directives of a source -/

/-- The directive of a piece. -/
def Piece.directive? : Piece → Option Directive
  | .text _ => none
  | .directive d => some d

/-- The directives among some pieces. -/
def directives (pieces : List Piece) : List Directive :=
  pieces.filterMap Piece.directive?

/-- The directives of two lists in a row. -/
@[simp] theorem directives_append (first second : List Piece) :
    directives (first ++ second) = directives first ++ directives second :=
  List.filterMap_append

/-- A directive comes before those of the other pieces. -/
@[simp] theorem directives_cons (d : Directive) (pieces : List Piece) :
    directives (.directive d :: pieces) = d :: directives pieces := rfl

/-- Some directives are those of pieces without texts. -/
@[simp] theorem directives_map (ds : List Directive) : directives (ds.map .directive) = ds := by
  induction ds with
  | nil => rfl
  | cons d ds ih => rw [List.map_cons, directives_cons, ih]

/-- Where a directive stands among those of some pieces, it is one of the pieces. -/
theorem exists_of_directives_eq {pieces : List Piece} {before after : List Directive}
    {d : Directive} (h : directives pieces = before ++ d :: after) :
    ∃ first second, pieces = first ++ .directive d :: second ∧ directives first = before ∧
      directives second = after := by
  obtain ⟨first, rest, rfl, hfirst, hrest⟩ := List.filterMap_eq_append_iff.1 h
  obtain ⟨texts, piece, second, rfl, htexts, hpiece, hsecond⟩ := List.filterMap_eq_cons_iff.1 hrest
  cases piece with
  | text cs => cases hpiece
  | directive d' =>
    cases hpiece
    have hnone : directives texts = [] := List.filterMap_eq_nil_iff.2 htexts
    refine ⟨first ++ texts, second, (List.append_assoc _ _ _).symm, ?_, hsecond⟩
    rw [directives_append, hnone, List.append_nil]
    exact hfirst

/-- Only texts stand before the first directive. -/
theorem exists_of_directives_eq_cons {pieces : List Piece} {after : List Directive} {d : Directive}
    (h : directives pieces = d :: after) :
    ∃ texts second, pieces = texts ++ .directive d :: second ∧ directives texts = [] ∧
      directives second = after :=
  exists_of_directives_eq h

/-! ## Balance -/

/-- The body of a loop names an element and a collection. -/
def NamesLoop (body : List Char) : Prop :=
  ∃ left right, SplitsInTwo (trimChars body) left right ∧ trimChars left ≠ [] ∧
    trimChars right ≠ []

/-- Directives are balanced, and at most `room` blocks are open in them at once: every block is
closed by the directive of its kind, a conditional has at most one second branch, and the body of
every loop names an element and a collection. -/
inductive Balanced : Nat → List Directive → Prop where
  | nil (room : Nat) : Balanced room []
  | place {room : Nat} {after : List Directive} (body : List Char) (h : Balanced room after) :
    Balanced room (.place body :: after)
  | conditional {room : Nat} {inner after : List Directive} (key : List Char)
    (hinner : Balanced room inner) (h : Balanced (room + 1) after) :
    Balanced (room + 1) (.openIf key :: (inner ++ .close .conditional :: after))
  | alternative {room : Nat} {first second after : List Directive} (key : List Char)
    (hfirst : Balanced room first) (hsecond : Balanced room second)
    (h : Balanced (room + 1) after) :
    Balanced (room + 1)
      (.openIf key :: (first ++ .orElse :: (second ++ .close .conditional :: after)))
  | iteration {room : Nat} {inner after : List Directive} {body : List Char}
    (hbody : NamesLoop body) (hinner : Balanced room inner) (h : Balanced (room + 1) after) :
    Balanced (room + 1) (.openFor body :: (inner ++ .close .iteration :: after))

/-- Some directives can be completed: with further ones behind them they are balanced, and at most
`limit` blocks are open at once. -/
def Viable (limit : Nat) (ds : List Directive) : Prop :=
  ∃ more, Balanced limit (ds ++ more)

/-- The beginning of what can be completed can be completed. -/
theorem Viable.of_append {limit : Nat} {ds es : List Directive} (h : Viable limit (ds ++ es)) :
    Viable limit ds := by
  obtain ⟨more, hmore⟩ := h
  exact ⟨es ++ more, by rwa [← List.append_assoc]⟩

/-- Balanced directives in a row are balanced. -/
theorem Balanced.append {room : Nat} {ds es : List Directive} (h : Balanced room ds)
    (hes : Balanced room es) : Balanced room (ds ++ es) := by
  induction h with
  | nil => exact hes
  | place body _ ih => exact .place body (ih hes)
  | conditional key hinner _ _ ih =>
    rw [List.cons_append, List.append_assoc, List.cons_append]
    exact .conditional key hinner (ih hes)
  | alternative key hfirst hsecond _ _ _ ih =>
    rw [List.cons_append, List.append_assoc, List.cons_append, List.append_assoc, List.cons_append]
    exact .alternative key hfirst hsecond (ih hes)
  | iteration hbody hinner _ _ ih =>
    rw [List.cons_append, List.append_assoc, List.cons_append]
    exact .iteration hbody hinner (ih hes)

/-! ## Open blocks -/

/-- The part of a block that has been reached. -/
inductive Part where
  | whenTrue
  | whenFalse
  | body
  deriving DecidableEq, Repr

/-- The kind of block that has the part. -/
def Part.kind : Part → BlockKind
  | .whenTrue => .conditional
  | .whenFalse => .conditional
  | .body => .iteration

/-- The block that a directive opens has come to a part, by directives in which all other blocks are
closed. -/
inductive Reaches (room : Nat) : Directive → List Directive → Part → Prop where
  | whenTrue {inner : List Directive} (key : List Char) (h : Balanced room inner) :
    Reaches room (.openIf key) inner .whenTrue
  | whenFalse {first second : List Directive} (key : List Char) (hfirst : Balanced room first)
    (hsecond : Balanced room second) :
    Reaches room (.openIf key) (first ++ .orElse :: second) .whenFalse
  | body {body : List Char} {inner : List Directive} (hbody : NamesLoop body)
    (h : Balanced room inner) : Reaches room (.openFor body) inner .body

/-- The part that the innermost block open after some directives has come to. -/
def Innermost (ds : List Directive) (part : Part) : Prop :=
  ∃ room before d inner, ds = before ++ d :: inner ∧ Reaches room d inner part

namespace Reaches

variable {room : Nat} {d : Directive} {ds es : List Directive} {part : Part}

/-- Balanced directives leave the block open where it is. -/
theorem append (h : Reaches room d ds part) (hes : Balanced room es) :
    Reaches room d (ds ++ es) part := by
  cases h with
  | whenTrue key h => exact .whenTrue key (h.append hes)
  | whenFalse key hfirst hsecond =>
    rw [List.append_assoc, List.cons_append]
    exact .whenFalse key hfirst (hsecond.append hes)
  | body hbody h => exact .body hbody (h.append hes)

/-- The second branch of a conditional starts. -/
theorem orElse (h : Reaches room d ds .whenTrue) : Reaches room d (ds ++ [.orElse]) .whenFalse := by
  cases h with
  | whenTrue key h => exact .whenFalse key h (.nil room)

/-- The block is balanced once it is closed. -/
theorem close (h : Reaches room d ds part) :
    Balanced (room + 1) (d :: (ds ++ [.close part.kind])) := by
  cases h with
  | whenTrue key h => exact .conditional key h (.nil _)
  | whenFalse key hfirst hsecond =>
    rw [List.append_assoc, List.cons_append]
    exact .alternative key hfirst hsecond (.nil _)
  | body hbody h => exact .iteration hbody h (.nil _)

end Reaches

/-! ## Tokens of loops -/

/-- The body of a loop is read as two names exactly if it names an element and a collection. -/
theorem ofFor_cases (body : List Char) :
    (NamesLoop body ∧ ∃ name collection, Token.ofFor body = .openFor name collection) ∨
      (¬NamesLoop body ∧ Token.ofFor body = .malformedFor (String.ofList (trimChars body))) := by
  by_cases hnames : NamesLoop body
  · obtain ⟨left, right, hsplit, hleft, hright⟩ := hnames
    have htoken := ofPiece_of_reads (Reads.openFor body left right hsplit hleft hright)
    exact Or.inl ⟨⟨left, right, hsplit, hleft, hright⟩, _, _, htoken⟩
  · refine Or.inr ⟨hnames, ?_⟩
    simp only [Token.ofFor]
    split
    · next left right hsplit =>
      split
      · rfl
      · next hblank =>
        rw [not_or] at hblank
        exact absurd ⟨left, right, (splitIn_eq_two_iff _ _ _).1 hsplit, hblank.1, hblank.2⟩ hnames
    · rfl

/-- The body of a placeholder is read as a key and maybe a default. -/
theorem ofPlace_eq (body : List Char) :
    ∃ key default, Token.ofPlace body = .placeholder key default := by
  unfold Token.ofPlace
  split
  · exact ⟨_, _, rfl⟩
  · exact ⟨_, _, rfl⟩

/-! ## Running over balanced directives -/

/-- Some pieces add nodes to whatever list is being filled, if it leaves room for the blocks in
them. -/
def Fits (room : Nat) (pieces : List Piece) : Prop :=
  ∃ nodes, listDepth nodes ≤ room ∧ ∀ limit, Adds limit pieces nodes

namespace Fits

variable {room : Nat}

/-- Two lists of pieces in a row fit if both do. -/
theorem append {first second : List Piece} (hfirst : Fits room first) (hsecond : Fits room second) :
    Fits room (first ++ second) := by
  obtain ⟨ms, hms, hm⟩ := hfirst
  obtain ⟨ns, hns, hn⟩ := hsecond
  refine ⟨ms ++ ns, ?_, fun limit => (hm limit).append (hn limit)⟩
  rw [listDepth_append]
  exact Nat.max_le.2 ⟨hms, hns⟩

/-- Texts need no room. -/
theorem texts {pieces : List Piece} (h : directives pieces = []) : Fits room pieces := by
  induction pieces with
  | nil => exact ⟨[], Nat.zero_le _, fun _ => Adds.nil⟩
  | cons piece pieces ih =>
    cases piece with
    | text cs =>
      have htext : Fits room [.text cs] :=
        ⟨[.literal (String.ofList cs)], Nat.zero_le _, fun _ => Adds.literal rfl⟩
      exact htext.append (ih h)
    | directive d => cases h

/-- A placeholder needs no room. -/
theorem place (body : List Char) : Fits room [.directive (.place body)] := by
  obtain ⟨key, default, htoken⟩ := ofPlace_eq body
  exact ⟨[.placeholder key default], Nat.zero_le _, fun _ => Adds.placeholder htoken⟩

/-- A conditional needs room for itself. -/
theorem conditional {inner : List Piece} (h : Fits room inner) (key : List Char) :
    Fits (room + 1) (.directive (.openIf key) :: (inner ++ [.directive (.close .conditional)])) := by
  obtain ⟨nodes, hdepth, hadds⟩ := h
  refine ⟨_, ?_, fun limit => Adds.conditional rfl (hadds limit) rfl⟩
  simp only [listDepth, Node.depth]
  omega

/-- A conditional with two branches needs room for itself. -/
theorem alternative {first second : List Piece} (hfirst : Fits room first)
    (hsecond : Fits room second) (key : List Char) :
    Fits (room + 1) (.directive (.openIf key) ::
      (first ++ .directive .orElse :: (second ++ [.directive (.close .conditional)]))) := by
  obtain ⟨ms, hms, hm⟩ := hfirst
  obtain ⟨ns, hns, hn⟩ := hsecond
  refine ⟨_, ?_, fun limit => Adds.alternative rfl (hm limit) rfl (hn limit) rfl⟩
  simp only [listDepth, Node.depth]
  omega

/-- A loop needs room for itself. -/
theorem iteration {inner : List Piece} (h : Fits room inner) {body : List Char}
    (hbody : NamesLoop body) :
    Fits (room + 1) (.directive (.openFor body) :: (inner ++ [.directive (.close .iteration)])) := by
  obtain ⟨nodes, hdepth, hadds⟩ := h
  rcases ofFor_cases body with ⟨_, name, collection, htoken⟩ | ⟨hnot, _⟩
  · refine ⟨_, ?_, fun limit => Adds.iteration htoken (hadds limit) rfl⟩
    simp only [listDepth, Node.depth]
    omega
  · exact absurd hbody hnot

/-- **Balanced pieces fit.** The texts between balanced directives make no difference. -/
theorem of_balanced {ds : List Directive} (h : Balanced room ds) {pieces : List Piece}
    (hpieces : directives pieces = ds) : Fits room pieces := by
  induction h generalizing pieces with
  | nil room => exact texts hpieces
  | place body _ ih =>
    obtain ⟨front, rest, rfl, hfront, hrest⟩ := exists_of_directives_eq_cons hpieces
    exact (texts hfront).append ((place body).append (ih hrest))
  | conditional key _ _ ihInner ih =>
    -- the pieces fall apart where the directives do, and texts go to the part before them
    obtain ⟨front, block, rfl, hfront, hblock⟩ := exists_of_directives_eq_cons hpieces
    obtain ⟨inner, rest, rfl, hinner, hrest⟩ := exists_of_directives_eq hblock
    have hall := (texts hfront).append (((ihInner hinner).conditional key).append (ih hrest))
    simpa using hall
  | alternative key _ _ _ ihFirst ihSecond ih =>
    obtain ⟨front, block, rfl, hfront, hblock⟩ := exists_of_directives_eq_cons hpieces
    obtain ⟨first, others, rfl, hfirst, hothers⟩ := exists_of_directives_eq hblock
    obtain ⟨second, rest, rfl, hsecond, hrest⟩ := exists_of_directives_eq hothers
    have hall := (texts hfront).append
      (((ihFirst hfirst).alternative (ihSecond hsecond) key).append (ih hrest))
    simpa using hall
  | iteration hbody _ _ ihInner ih =>
    obtain ⟨front, block, rfl, hfront, hblock⟩ := exists_of_directives_eq_cons hpieces
    obtain ⟨inner, rest, rfl, hinner, hrest⟩ := exists_of_directives_eq hblock
    have hall := (texts hfront).append (((ihInner hinner).iteration hbody).append (ih hrest))
    simpa using hall

/-- What fits leaves the open blocks as they are. -/
theorem run {pieces : List Piece} (h : Fits room pieces) {limit : Nat} (p : Progress)
    (hroom : room + p.levels.length ≤ limit) (offset : Nat) :
    ∃ nodes, p.run limit offset pieces = .ok ⟨nodes, p.levels⟩ := by
  obtain ⟨nodes, hdepth, hadds⟩ := h
  exact ⟨_, hadds limit p offset (by omega)⟩

end Fits

end Stencil.Node
