import Stencil.Node.Parser
import Stencil.Proofs.Cut
import Stencil.Proofs.Reading

/-!
# The grammar of templates

The parser against the tokens of its trees. While it runs, the tokens of what has been built are
the tokens that have been taken, and no list that is filled nests deeper than the open blocks
around it leave room for; the other way round, the tokens of a list of nodes that fits add these
nodes to whatever list is being filled. Main statement: the parser accepts exactly the sources
whose pieces are read as the tokens of a tree within the limit, and yields this tree
(`parse_eq_ok_iff`).
-/

namespace Stencil.Node

/-! ## Steps that succeed -/

/-- What a token does to what has been built. -/
inductive Advances (limit : Nat) : Progress → Nat → Token → Progress → Prop where
  | literal (p : Progress) (offset : Nat) (text : String) :
    Advances limit p offset (.literal text) (p.push (.literal text))
  | placeholder (p : Progress) (offset : Nat) (key : String) (default : Option String) :
    Advances limit p offset (.placeholder key default) (p.push (.placeholder key default))
  | openIf (p : Progress) (offset : Nat) (key : String) (h : p.levels.length < limit) :
    Advances limit p offset (.openIf key) (p.openBlock (.whenTrue key) offset)
  | openFor (p : Progress) (offset : Nat) (name collection : String)
    (h : p.levels.length < limit) :
    Advances limit p offset (.openFor name collection) (p.openBlock (.body name collection) offset)
  | orElse (nodes before : List Node) (key : String) (opened offset : Nat) (levels : List Level) :
    Advances limit ⟨nodes, ⟨.whenTrue key, opened, before⟩ :: levels⟩ offset .orElse
      ⟨[], ⟨.whenFalse key nodes.reverse, opened, before⟩ :: levels⟩
  | close (nodes : List Node) (level : Level) (levels : List Level) (offset : Nat) :
    Advances limit ⟨nodes, level :: levels⟩ offset (.close level.branch.kind)
      ⟨level.branch.node nodes.reverse :: level.before, levels⟩

/-- The second branch of the innermost conditional starts. -/
theorem advances_of_orElse {limit offset : Nat} {p q : Progress} (h : p.orElse = .ok q) :
    Advances limit p offset .orElse q := by
  obtain ⟨nodes, levels⟩ := p
  unfold Progress.orElse at h
  split at h
  · next key opened before levels hlevels =>
    cases hlevels
    cases h
    exact Advances.orElse nodes before key opened offset levels
  · cases h
  · cases h

/-- The innermost block ends. -/
theorem advances_of_close {limit offset : Nat} {kind : BlockKind} {p q : Progress}
    (h : p.close kind = .ok q) : Advances limit p offset (.close kind) q := by
  obtain ⟨nodes, levels⟩ := p
  unfold Progress.close at h
  split at h
  · cases h
  · next level levels hlevels =>
    cases hlevels
    split at h
    · next hkind =>
      cases h
      subst hkind
      exact Advances.close nodes level levels offset
    · cases h

/-- A step succeeds exactly with what its token does. -/
theorem step_eq_ok_iff (limit offset : Nat) (p q : Progress) (t : Token) :
    p.step limit offset t = .ok q ↔ Advances limit p offset t q := by
  constructor
  · intro h
    cases t with
    | literal text =>
      cases h
      exact Advances.literal p offset text
    | placeholder key default =>
      cases h
      exact Advances.placeholder p offset key default
    | openIf key =>
      rw [Progress.step] at h
      split at h
      · cases h
      · next hroom =>
        cases h
        exact Advances.openIf p offset key (Nat.lt_of_not_le hroom)
    | openFor name collection =>
      rw [Progress.step] at h
      split at h
      · cases h
      · next hroom =>
        cases h
        exact Advances.openFor p offset name collection (Nat.lt_of_not_le hroom)
    | malformedFor body =>
      rw [Progress.step] at h
      split at h
      · cases h
      · cases h
    | orElse => exact advances_of_orElse h
    | close kind => exact advances_of_close h
  · intro h
    cases h with
    | literal => rfl
    | placeholder => rfl
    | openIf p offset key hroom => rw [Progress.step, if_neg (Nat.not_le_of_lt hroom)]
    | openFor p offset name collection hroom =>
      rw [Progress.step, if_neg (Nat.not_le_of_lt hroom)]
    | orElse => rfl
    | close => exact if_pos rfl

/-! ## Tokens of what has been built -/

/-- The tokens of a block before the part that is being filled. -/
def Branch.tokens : Branch → List Token
  | .whenTrue key => [.openIf key]
  | .whenFalse key first => .openIf key :: listTokens first ++ [.orElse]
  | .body name collection => [.openFor name collection]

/-- The tokens before the list that is being filled. -/
def levelsTokens : List Level → List Token
  | [] => []
  | level :: levels =>
    levelsTokens levels ++ listTokens level.before.reverse ++ level.branch.tokens

/-- The tokens of what has been built. -/
def Progress.tokens (p : Progress) : List Token :=
  levelsTokens p.levels ++ listTokens p.nodes.reverse

/-- The tokens of a block, part by part. -/
theorem Branch.tokens_node (branch : Branch) (nodes : List Node) :
    (branch.node nodes).tokens =
      branch.tokens ++ listTokens nodes ++ [.close branch.kind] := by
  cases branch <;> simp [Branch.node, Branch.tokens, Branch.kind, Node.tokens]

/-- One more node brings its tokens. -/
theorem Progress.tokens_push (p : Progress) (n : Node) :
    (p.push n).tokens = p.tokens ++ n.tokens := by
  simp [Progress.tokens, Progress.push, listTokens_append, listTokens]

/-- One more open block brings the tokens before its first part. -/
theorem Progress.tokens_openBlock (p : Progress) (branch : Branch) (offset : Nat) :
    (p.openBlock branch offset).tokens = p.tokens ++ branch.tokens := by
  simp [Progress.tokens, Progress.openBlock, levelsTokens, listTokens]

/-- One more token is one more token of what has been built. -/
theorem tokens_of_advances {limit offset : Nat} {p q : Progress} {t : Token}
    (h : Advances limit p offset t q) : q.tokens = p.tokens ++ [t] := by
  cases h with
  | literal => rw [Progress.tokens_push, Node.tokens]
  | placeholder => rw [Progress.tokens_push, Node.tokens]
  | openIf => rw [Progress.tokens_openBlock, Branch.tokens]
  | openFor => rw [Progress.tokens_openBlock, Branch.tokens]
  | orElse nodes before key opened offset levels =>
    simp [Progress.tokens, levelsTokens, Branch.tokens, listTokens]
  | close nodes level levels offset =>
    -- the tokens of the level and of its last part become those of one node
    show (Progress.push ⟨level.before, levels⟩ (level.branch.node nodes.reverse)).tokens = _
    rw [Progress.tokens_push, Branch.tokens_node]
    simp only [Progress.tokens, levelsTokens, List.append_assoc]

/-! ## Room for what has been built -/

/-- How deep the part of a block nests that has been filled. -/
def Branch.depth : Branch → Nat
  | .whenTrue _ => 0
  | .whenFalse _ first => listDepth first
  | .body _ _ => 0

/-- The open blocks, and what stands before them, are within a limit. -/
def LevelsWithin (limit : Nat) : List Level → Prop
  | [] => True
  | level :: levels =>
    listDepth level.before + levels.length ≤ limit ∧
      level.branch.depth + levels.length + 1 ≤ limit ∧ LevelsWithin limit levels

/-- What has been built is within a limit. -/
structure Progress.Within (limit : Nat) (p : Progress) : Prop where
  nodes : listDepth p.nodes + p.levels.length ≤ limit
  levels : LevelsWithin limit p.levels

/-- A block nests one deeper than its parts. -/
theorem Branch.depth_node (branch : Branch) (nodes : List Node) :
    (branch.node nodes).depth = 1 + max branch.depth (listDepth nodes) := by
  cases branch <;> simp [Branch.node, Branch.depth, Node.depth]

/-- The order of some nodes does not matter for how deep they nest. -/
theorem listDepth_reverse (ns : List Node) : listDepth ns.reverse = listDepth ns := by
  induction ns with
  | nil => rfl
  | cons n ns ih =>
    rw [List.reverse_cons, listDepth_append, ih]
    simp only [listDepth]
    omega

/-- There is room for a node that holds no block. -/
theorem Progress.Within.push {limit : Nat} {p : Progress} (h : p.Within limit) {n : Node}
    (hn : n.depth = 0) : (p.push n).Within limit := by
  refine ⟨?_, h.levels⟩
  have hnodes := h.nodes
  simp only [Progress.push, listDepth, hn]
  omega

/-- There is room for one more block below the limit. -/
theorem Progress.Within.openBlock {limit : Nat} {p : Progress} (h : p.Within limit)
    (hroom : p.levels.length < limit) {branch : Branch} (hbranch : branch.depth = 0)
    (offset : Nat) : (p.openBlock branch offset).Within limit := by
  refine ⟨?_, h.nodes, ?_, h.levels⟩
  · simp only [Progress.openBlock, listDepth, List.length_cons]
    omega
  · rw [hbranch]
    omega

/-- What has been built stays within the limit. -/
theorem within_of_advances {limit offset : Nat} {p q : Progress} {t : Token}
    (h : Advances limit p offset t q) (hp : p.Within limit) : q.Within limit := by
  cases h with
  | literal => exact hp.push rfl
  | placeholder => exact hp.push rfl
  | openIf p offset key hroom => exact hp.openBlock hroom rfl offset
  | openFor p offset name collection hroom => exact hp.openBlock hroom rfl offset
  | orElse nodes before key opened offset levels =>
    obtain ⟨hnodes, hbefore, _, hrest⟩ := hp
    simp only [List.length_cons] at hnodes
    refine ⟨?_, hbefore, ?_, hrest⟩
    · simp only [listDepth, List.length_cons]
      omega
    · simp only [Branch.depth, listDepth_reverse]
      omega
  | close nodes level levels offset =>
    -- the block is one deeper than its parts, and one fewer is open around it
    obtain ⟨hnodes, hbefore, hbranch, hrest⟩ := hp
    simp only [List.length_cons] at hnodes
    refine ⟨?_, hrest⟩
    simp only [listDepth, Branch.depth_node, listDepth_reverse]
    omega

/-- **The invariant of a run.** The tokens of the pieces are added to those of what has been built,
and this stays within the limit. -/
theorem tokens_run {limit offset : Nat} {p q : Progress} {pieces : List Piece}
    (h : p.run limit offset pieces = .ok q) (hp : p.Within limit) :
    q.tokens = p.tokens ++ pieces.map Token.ofPiece ∧ q.Within limit := by
  induction pieces generalizing p offset with
  | nil =>
    cases h
    rw [List.map_nil, List.append_nil]
    exact ⟨rfl, hp⟩
  | cons piece pieces ih =>
    rw [Progress.run] at h
    split at h
    · cases h
    · next p' hstep =>
      have hadvances := (step_eq_ok_iff limit offset p p' _).1 hstep
      obtain ⟨htokens, hwithin⟩ := ih h (within_of_advances hadvances hp)
      rw [htokens, tokens_of_advances hadvances, List.map_cons, List.append_assoc]
      exact ⟨rfl, hwithin⟩

/-- The parser yields a tree within the limit, with the tokens of the source. -/
theorem listTokens_of_parseChars {limit : Nat} {source : List Char} {nodes : List Node}
    (h : parseChars limit source = .ok nodes) :
    listTokens nodes = (scan source).map Token.ofPiece ∧ listDepth nodes ≤ limit := by
  unfold parseChars at h
  split at h
  · cases h
  · next p hrun =>
    have hstart : Progress.start.Within limit := ⟨Nat.zero_le limit, trivial⟩
    obtain ⟨htokens, hwithin⟩ := tokens_run hrun hstart
    -- no level is left at the end, so all tokens are those of the nodes
    obtain ⟨built, levels⟩ := p
    unfold Progress.finish at h
    split at h
    · next hlevels =>
      cases hlevels
      cases h
      have hnodes := hwithin.nodes
      rw [List.length_nil, Nat.add_zero] at hnodes
      rw [listDepth_reverse]
      exact ⟨htokens, hnodes⟩
    · cases h

/-! ## Pieces that add nodes -/

/-- Some pieces add some nodes to whatever list is being filled, if there is room for them. -/
def Adds (limit : Nat) (pieces : List Piece) (nodes : List Node) : Prop :=
  ∀ (p : Progress) (offset : Nat), listDepth nodes + p.levels.length ≤ limit →
    p.run limit offset pieces = .ok ⟨nodes.reverse ++ p.nodes, p.levels⟩

/-- A piece whose token does something is taken. -/
theorem run_cons {limit offset : Nat} {p q : Progress} {piece : Piece}
    (h : Advances limit p offset (.ofPiece piece) q) (pieces : List Piece) :
    p.run limit offset (piece :: pieces) =
      q.run limit (offset + Text.byteLength piece.chars) pieces := by
  rw [Progress.run, (step_eq_ok_iff limit offset p q _).2 h]

/-- Pieces are taken one after another. -/
theorem run_append {limit offset : Nat} {p q : Progress} {first : List Piece}
    (h : p.run limit offset first = .ok q) (second : List Piece) :
    p.run limit offset (first ++ second) =
      q.run limit (offset + Text.byteLength (first.flatMap Piece.chars)) second := by
  induction first generalizing p offset with
  | nil =>
    cases h
    rfl
  | cons piece pieces ih =>
    rw [Progress.run] at h
    rw [List.cons_append, Progress.run]
    split at h
    · cases h
    · rw [ih h, List.flatMap_cons, Text.byteLength_append, Nat.add_assoc]

namespace Adds

variable {limit : Nat}

/-- No pieces add no nodes. -/
theorem nil : Adds limit [] [] := fun _ _ _ => rfl

/-- The pieces of two lists add both. -/
theorem append {first second : List Piece} {ms ns : List Node} (hm : Adds limit first ms)
    (hn : Adds limit second ns) : Adds limit (first ++ second) (ms ++ ns) := by
  intro p offset hroom
  rw [listDepth_append] at hroom
  rw [run_append (hm p offset (by omega)), hn _ _ (by show _ + p.levels.length ≤ limit; omega)]
  simp

/-- The piece of a text adds it. -/
theorem literal {piece : Piece} {text : String} (h : Token.ofPiece piece = .literal text) :
    Adds limit [piece] [.literal text] := by
  intro p offset _
  rw [run_cons (h ▸ Advances.literal p offset text)]
  rfl

/-- The piece of a placeholder adds it. -/
theorem placeholder {piece : Piece} {key : String} {default : Option String}
    (h : Token.ofPiece piece = .placeholder key default) :
    Adds limit [piece] [.placeholder key default] := by
  intro p offset _
  rw [run_cons (h ▸ Advances.placeholder p offset key default)]
  rfl

/-- The last part of a block is filled and the block closed. -/
theorem close {closer : Piece} {inner : List Piece} {nodes : List Node} {level : Level}
    {levels : List Level} (hinner : Adds limit inner nodes)
    (hcloser : Token.ofPiece closer = .close level.branch.kind)
    (hroom : listDepth nodes + levels.length + 1 ≤ limit) (offset : Nat) :
    Progress.run limit ⟨[], level :: levels⟩ offset (inner ++ [closer]) =
      .ok ⟨level.branch.node nodes :: level.before, levels⟩ := by
  rw [run_append (hinner ⟨[], level :: levels⟩ offset hroom), List.append_nil]
  have hclose := fun offset => @Advances.close limit nodes.reverse level levels offset
  rw [run_cons (hcloser ▸ hclose _), List.reverse_reverse]
  rfl

/-- The pieces of a conditional with one branch add it. -/
theorem conditional {opener closer : Piece} {inner : List Piece} {key : String}
    {whenTrue : List Node} (hopener : Token.ofPiece opener = .openIf key)
    (hinner : Adds limit inner whenTrue) (hcloser : Token.ofPiece closer = .close .conditional) :
    Adds limit (opener :: (inner ++ [closer])) [.conditional key whenTrue none] := by
  intro p offset hroom
  simp only [listDepth, Node.depth] at hroom
  rw [run_cons (hopener ▸ Advances.openIf p offset key (by omega))]
  exact hinner.close hcloser (by omega) _

/-- The pieces of a conditional with two branches add it. -/
theorem alternative {opener middle closer : Piece} {first second : List Piece} {key : String}
    {whenTrue whenFalse : List Node} (hopener : Token.ofPiece opener = .openIf key)
    (hfirst : Adds limit first whenTrue) (hmiddle : Token.ofPiece middle = .orElse)
    (hsecond : Adds limit second whenFalse)
    (hcloser : Token.ofPiece closer = .close .conditional) :
    Adds limit (opener :: (first ++ middle :: (second ++ [closer])))
      [.conditional key whenTrue (some whenFalse)] := by
  intro p offset hroom
  simp only [listDepth, Node.depth] at hroom
  rw [run_cons (hopener ▸ Advances.openIf p offset key (by omega))]
  have hroomFirst : listDepth whenTrue + (p.levels.length + 1) ≤ limit := by omega
  rw [run_append (hfirst (p.openBlock (.whenTrue key) offset) _ hroomFirst)]
  have hmid := @Advances.orElse limit (whenTrue.reverse ++ []) p.nodes key offset
  rw [Progress.openBlock, run_cons (hmiddle ▸ hmid _ _), List.append_nil, List.reverse_reverse]
  exact hsecond.close hcloser (by omega) _

/-- The pieces of a loop add it. -/
theorem iteration {opener closer : Piece} {inner : List Piece} {name collection : String}
    {body : List Node} (hopener : Token.ofPiece opener = .openFor name collection)
    (hinner : Adds limit inner body) (hcloser : Token.ofPiece closer = .close .iteration) :
    Adds limit (opener :: (inner ++ [closer])) [.iteration name collection body] := by
  intro p offset hroom
  simp only [listDepth, Node.depth] at hroom
  rw [run_cons (hopener ▸ Advances.openFor p offset name collection (by omega))]
  exact hinner.close hcloser (by omega) _

end Adds

/-- Pieces with the tokens of some nodes add these nodes. -/
theorem adds_of_tokens (limit : Nat) {pieces : List Piece} {nodes : List Node}
    (h : pieces.map Token.ofPiece = listTokens nodes) : Adds limit pieces nodes := by
  induction nodes using Node.listInduction generalizing pieces with
  | nil =>
    obtain rfl := List.map_eq_nil_iff.1 h
    exact Adds.nil
  | literal text ns ih =>
    obtain ⟨piece, rest, rfl, hpiece, hrest⟩ := List.map_eq_cons_iff.1 h
    exact (Adds.literal hpiece).append (ih hrest)
  | placeholder key default ns ih =>
    obtain ⟨piece, rest, rfl, hpiece, hrest⟩ := List.map_eq_cons_iff.1 h
    exact (Adds.placeholder hpiece).append (ih hrest)
  | conditional key whenTrue ns ihTrue ih =>
    -- the pieces fall apart where the tokens do: opener, branch, closer, and the other nodes
    obtain ⟨block, rest, rfl, hblock, hrest⟩ := List.map_eq_append_iff.1 h
    obtain ⟨opener, after, rfl, hopener, hafter⟩ := List.map_eq_cons_iff.1 hblock
    obtain ⟨inner, last, rfl, hinner, hlast⟩ := List.map_eq_append_iff.1 hafter
    obtain ⟨closer, rfl, hcloser⟩ := List.map_eq_singleton_iff.1 hlast
    exact (Adds.conditional hopener (ihTrue hinner) hcloser).append (ih hrest)
  | alternative key whenTrue whenFalse ns ihTrue ihFalse ih =>
    obtain ⟨block, rest, rfl, hblock, hrest⟩ := List.map_eq_append_iff.1 h
    obtain ⟨opener, after, rfl, hopener, hafter⟩ := List.map_eq_cons_iff.1 hblock
    obtain ⟨first, later, rfl, hfirst, hlater⟩ :=
      List.map_eq_append_iff.1 (hafter.trans (List.append_assoc _ _ _))
    obtain ⟨middle, others, rfl, hmiddle, hothers⟩ := List.map_eq_cons_iff.1 hlater
    obtain ⟨second, last, rfl, hsecond, hlast⟩ := List.map_eq_append_iff.1 hothers
    obtain ⟨closer, rfl, hcloser⟩ := List.map_eq_singleton_iff.1 hlast
    exact (Adds.alternative hopener (ihTrue hfirst) hmiddle (ihFalse hsecond) hcloser).append
      (ih hrest)
  | iteration name collection body ns ihBody ih =>
    obtain ⟨block, rest, rfl, hblock, hrest⟩ := List.map_eq_append_iff.1 h
    obtain ⟨opener, after, rfl, hopener, hafter⟩ := List.map_eq_cons_iff.1 hblock
    obtain ⟨inner, last, rfl, hinner, hlast⟩ := List.map_eq_append_iff.1 hafter
    obtain ⟨closer, rfl, hcloser⟩ := List.map_eq_singleton_iff.1 hlast
    exact (Adds.iteration hopener (ihBody hinner) hcloser).append (ih hrest)

/-! ## The parser and its grammar -/

/-- A tree has no malformed loop among its tokens. -/
theorem malformedFor_notMem_listTokens (body : String) (nodes : List Node) :
    Token.malformedFor body ∉ listTokens nodes := by
  induction nodes using Node.listInduction with
  | nil => simp [listTokens]
  | literal text ns ih => simp [listTokens, Node.tokens, ih]
  | placeholder key default ns ih => simp [listTokens, Node.tokens, ih]
  | conditional key whenTrue ns ihTrue ih => simp [listTokens, Node.tokens, ihTrue, ih]
  | alternative key whenTrue whenFalse ns ihTrue ihFalse ih =>
    simp [listTokens, Node.tokens, ihTrue, ihFalse, ih]
  | iteration name collection body ns ihBody ih =>
    simp [listTokens, Node.tokens, ihBody, ih]

/-- The parser yields exactly the trees within the limit that have the tokens of the source. -/
theorem parseChars_eq_ok_iff (limit : Nat) (source : List Char) (nodes : List Node) :
    parseChars limit source = .ok nodes ↔
      listDepth nodes ≤ limit ∧ (scan source).map Token.ofPiece = listTokens nodes := by
  constructor
  · intro h
    obtain ⟨htokens, hdepth⟩ := listTokens_of_parseChars h
    exact ⟨hdepth, htokens.symm⟩
  · rintro ⟨hdepth, htokens⟩
    have hrun := adds_of_tokens limit htokens Progress.start 0 hdepth
    rw [parseChars, hrun]
    simp [Progress.start, Progress.finish]

/-- A source is parsed where its characters are. -/
theorem parse_eq_ok_iff_parseChars (limit : Nat) (source : String) (nodes : List Node) :
    parse limit source = .ok nodes ↔ parseChars limit source.toList = .ok nodes := by
  unfold parse
  cases parseChars limit source.toList with
  | error e => exact ⟨nofun, nofun⟩
  | ok ns => simp

/-- **The parser accepts its grammar.** A source has some nodes exactly if they nest within the
limit and the pieces of the source, cut at its leftmost directives, are read one by one as the
tokens of these nodes. -/
theorem parse_eq_ok_iff (limit : Nat) (source : String) (nodes : List Node) :
    parse limit source = .ok nodes ↔
      listDepth nodes ≤ limit ∧
        ∃ pieces, IsCut source.toList pieces ∧
          List.Forall₂ Reads pieces (listTokens nodes) := by
  rw [parse_eq_ok_iff_parseChars, parseChars_eq_ok_iff]
  constructor
  · rintro ⟨hdepth, htokens⟩
    refine ⟨hdepth, scan source.toList, isCut_scan source.toList, ?_⟩
    rw [forall₂_reads_iff]
    refine ⟨htokens, ?_⟩
    rintro t ht body rfl
    exact malformedFor_notMem_listTokens body nodes ht
  · rintro ⟨hdepth, pieces, hcut, hreads⟩
    obtain rfl := (isCut_iff source.toList pieces).1 hcut
    exact ⟨hdepth, ((forall₂_reads_iff _ _).1 hreads).1⟩

end Stencil.Node
