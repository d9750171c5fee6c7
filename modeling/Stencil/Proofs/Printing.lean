import Stencil.Node.Directive
import Stencil.Proofs.Grammar

/-!
# Reading canonical sources

When the canonical source of a tree is read as this tree. A literal must not hold the start of a
directive, though at signs may stand in it anywhere; names and defaults must be free of braces and of
blanks around them; and the name of a loop's element must not run into the separator behind it. Main
statement: the parser gives such a tree back (`parse_print`).
-/

namespace Stencil.Node

open Stencil.Text (trimChars cutAt cutAt_append cutAt_eq_none_iff trimChars_between)

/-! ## Trees that can be read back -/

/-- The texts that the directives start with. -/
def marks : List (List Char) :=
  [['@', '\x7b'], ['@', 'i', 'f', '\x7b'], ['@', 'f', 'o', 'r', '\x7b'], ['@', 'e', 'l', 's', 'e'],
    ['@', 'e', 'n', 'd', 'i', 'f'], ['@', 'e', 'n', 'd', 'f', 'o', 'r']]

/-- A text may stand between directives: it is not empty, and no directive starts in it. -/
structure PlainText (text : String) : Prop where
  ne_empty : text ≠ ""
  unmarked : ∀ mark ∈ marks, ¬mark <:+: text.toList

/-- A text may stand in the body of a directive: no blanks around it, and no brace in it. -/
structure BareText (text : String) : Prop where
  trimmed : Text.trim text = text
  braceFree : '\x7b' ∉ text.toList ∧ '\x7d' ∉ text.toList

/-- Two texts may name the element and the collection of a loop. -/
structure LoopNames (name collection : String) : Prop where
  bareName : BareText name
  bareCollection : BareText collection
  name_ne_empty : name ≠ ""
  collection_ne_empty : collection ≠ ""
  name_unsplit : ¬separator <:+: name.toList
  collection_unsplit : ¬separator <:+: collection.toList
  /-- Together with the blank behind it, the name does not end with a separator. -/
  name_end : ¬[' ', 'i', 'n'] <:+ name.toList

/-- Whether a node is a literal. -/
def isLiteral : Node → Bool
  | .literal _ => true
  | _ => false

mutual

/-- A node can be read back from its canonical source. -/
def Printable : Node → Prop
  | .literal text => PlainText text
  | .placeholder key default => BareText key ∧ '=' ∉ key.toList ∧ ∀ d ∈ default, BareText d
  | .conditional key whenTrue none => BareText key ∧ ListPrintable whenTrue
  | .conditional key whenTrue (some whenFalse) =>
    BareText key ∧ ListPrintable whenTrue ∧ ListPrintable whenFalse
  | .iteration name collection body => LoopNames name collection ∧ ListPrintable body

/-- A list of nodes can be read back from its canonical source: the nodes can, and no two literals
stand side by side. -/
def ListPrintable : List Node → Prop
  | [] => True
  | n :: ns =>
    n.Printable ∧ ListPrintable ns ∧ (n.isLiteral = true → ∀ m ∈ ns.head?, m.isLiteral = false)

end

/-! ## Bodies of directives -/

namespace BareText

variable {text : String}

/-- A bare text is trimmed to itself. -/
theorem trimChars_eq (h : BareText text) : trimChars text.toList = text.toList := by
  have htrim := congrArg String.toList h.trimmed
  rwa [Text.trim, String.toList_ofList] at htrim

/-- A bare text is kept when it is trimmed. -/
theorem ofList_trimChars (h : BareText text) : String.ofList (trimChars text.toList) = text := by
  rw [h.trimChars_eq, String.ofList_toList]

end BareText

/-- The body of a placeholder is read as its key and its default. -/
theorem ofPlace_placeBody {key : String} {default : Option String} (hkey : BareText key)
    (hequals : '=' ∉ key.toList) (hdefault : ∀ d ∈ default, BareText d) :
    Token.ofPlace (placeBody key default) = .placeholder key default := by
  cases default with
  | none =>
    rw [placeBody, Token.ofPlace, (cutAt_eq_none_iff '=' _).2 hequals]
    simp only [hkey.ofList_trimChars]
  | some d =>
    rw [placeBody, Token.ofPlace, cutAt_append d.toList hequals]
    simp only [hkey.ofList_trimChars, (hdefault d rfl).ofList_trimChars]

/-- The body of a placeholder holds no brace. -/
theorem braceFree_placeBody {key : String} {default : Option String} (hkey : BareText key)
    (hdefault : ∀ d ∈ default, BareText d) :
    (Directive.place (placeBody key default)).BraceFree := by
  cases default with
  | none => exact hkey.braceFree
  | some d =>
    have hd := (hdefault d rfl).braceFree
    simp [Directive.BraceFree, placeBody, hkey.braceFree, hd]

/-- The directive of a condition holds no brace in its body. -/
theorem BareText.braceFree_openIf {key : String} (h : BareText key) :
    (Directive.openIf key.toList).BraceFree :=
  h.braceFree

/-- The body of a loop. -/
def loopBody (name collection : String) : List Char :=
  name.toList ++ separator ++ collection.toList

/-- The canonical source of a loop, by its body. -/
theorem printNode_iteration (name collection : String) (body : List Node) :
    printNode (.iteration name collection body) =
      (Directive.openFor (loopBody name collection)).text ++ print body ++
        (Directive.close .iteration).text := by
  rw [printNode]
  rfl

/-- A text that ends with a separator ends with a blank. -/
theorem eq_of_separator_suffix {cs : List Char} {c : Char} (h : separator <:+ cs ++ [c]) :
    c = ' ' ∧ [' ', 'i', 'n'] <:+ cs := by
  rcases List.suffix_concat_iff.1 h with hnil | ⟨start, hstart, hcs⟩
  · cases hnil
  · have hstart : [' ', 'i', 'n'] ++ [' '] = start ++ [c] := hstart
    obtain ⟨rfl, hc⟩ := List.append_inj' hstart rfl
    exact ⟨(List.singleton_inj.1 hc).symm, hcs⟩

namespace LoopNames

variable {name collection : String}

/-- The separator behind the name is the first one. -/
theorem not_infix_name_append (h : LoopNames name collection) :
    ¬separator <:+: name.toList ++ [' ', 'i', 'n'] := by
  intro hinfix
  -- a separator ends in a blank, so it could only end at the blank behind the name
  have hpeel : separator <:+: name.toList ++ [' '] ++ ['i'] ++ ['n'] := by simpa using hinfix
  rw [List.infix_concat_iff, List.infix_concat_iff, List.infix_concat_iff] at hpeel
  rcases hpeel with hn | hi | hblank | hname
  · exact absurd (eq_of_separator_suffix hn).1 (by decide)
  · exact absurd (eq_of_separator_suffix hi).1 (by decide)
  · exact h.name_end (eq_of_separator_suffix hblank).2
  · exact h.name_unsplit hname

/-- The body of a loop splits into its two names. -/
theorem splitsInTwo (h : LoopNames name collection) :
    SplitsInTwo (loopBody name collection) name.toList collection.toList :=
  ⟨rfl, h.not_infix_name_append, h.collection_unsplit⟩

/-- The body of a loop is trimmed. -/
theorem trimChars_loopBody (h : LoopNames name collection) :
    trimChars (loopBody name collection) = loopBody name collection :=
  trimChars_between separator h.bareName.trimChars_eq h.bareCollection.trimChars_eq
    (mt String.toList_eq_nil_iff.1 h.name_ne_empty)
    (mt String.toList_eq_nil_iff.1 h.collection_ne_empty)

/-- The body of a loop is read as its two names. -/
theorem ofFor_loopBody (h : LoopNames name collection) :
    Token.ofFor (loopBody name collection) = .openFor name collection := by
  have hsplit := (splitIn_eq_two_iff _ _ _).2 h.splitsInTwo
  have hblank : ¬(name.toList = [] ∨ collection.toList = []) := by
    rw [String.toList_eq_nil_iff, String.toList_eq_nil_iff, not_or]
    exact ⟨h.name_ne_empty, h.collection_ne_empty⟩
  simp only [Token.ofFor, h.trimChars_loopBody, hsplit, h.bareName.trimChars_eq,
    h.bareCollection.trimChars_eq, if_neg hblank, String.ofList_toList]

/-- The body of a loop holds no brace. -/
theorem braceFree_loopBody (h : LoopNames name collection) :
    (Directive.openFor (loopBody name collection)).BraceFree := by
  have hname := h.bareName.braceFree
  have hcollection := h.bareCollection.braceFree
  simp [Directive.BraceFree, loopBody, separator, hname, hcollection]

end LoopNames

/-! ## Seams -/

/-- The other directives have no body. -/
theorem braceFree_orElse : Directive.orElse.BraceFree := trivial

/-- The other directives have no body. -/
theorem braceFree_close (kind : BlockKind) : (Directive.close kind).BraceFree := trivial

/-- What may follow a literal: nothing or a directive. -/
def Seam (rest : List Char) : Prop :=
  rest = [] ∨ Starts rest

/-- A directive may follow a literal. -/
theorem seam_text_append {d : Directive} (hd : d.BraceFree) (rest : List Char) :
    Seam (d.text ++ rest) :=
  Or.inr ⟨d, rest, hd, rfl⟩

/-- The text of a directive starts with a mark. -/
theorem Directive.exists_mark (d : Directive) : ∃ mark ∈ marks, mark <+: d.text := by
  cases d with
  | openIf body => exact ⟨['@', 'i', 'f', '\x7b'], by decide, body ++ ['\x7d'], rfl⟩
  | openFor body => exact ⟨['@', 'f', 'o', 'r', '\x7b'], by decide, body ++ ['\x7d'], rfl⟩
  | place body => exact ⟨['@', '\x7b'], by decide, body ++ ['\x7d'], rfl⟩
  | orElse => exact ⟨_, by decide, List.prefix_refl _⟩
  | close kind => cases kind <;> exact ⟨_, by decide, List.prefix_refl _⟩

/-- An at sign stands at the start of a mark and nowhere else in it. -/
theorem at_notMem_tail_of_mem_marks : ∀ mark ∈ marks, '@' ∉ mark.tail := by decide

/-- A directive starts with an at sign. -/
theorem head?_of_starts {cs : List Char} (h : Starts cs) : cs.head? = some '@' := by
  obtain ⟨d, rest, _, rfl⟩ := h
  cases d with
  | close kind => cases kind <;> rfl
  | _ => rfl

/-- No directive starts in a plain text, not even one that would run on behind it: behind the text
the next directive starts with an at sign, and no mark goes on with one. -/
theorem PlainText.not_starts {text : String} (h : PlainText text) {rest : List Char}
    (hrest : Seam rest) : ∀ i < text.toList.length, ¬Starts (text.toList.drop i ++ rest) := by
  rintro i hi ⟨d, behind, _, heq⟩
  obtain ⟨mark, hmark, hd⟩ := d.exists_mark
  have hall : mark <+: text.toList.drop i ++ rest := heq ▸ hd.trans (List.prefix_append _ _)
  have hinside : ¬mark <+: text.toList.drop i := fun hp =>
    h.unmarked mark hmark (hp.isInfix.trans (List.drop_suffix i _).isInfix)
  rcases List.prefix_or_prefix_of_prefix hall (List.prefix_append _ _) with hp | ⟨beyond, hbeyond⟩
  · exact hinside hp
  · -- the mark goes on behind the text, where the first character is an at sign
    rw [← hbeyond, List.prefix_append_right_inj] at hall
    have hdrop : text.toList.drop i ≠ [] := by simpa using hi
    cases beyond with
    | nil =>
      rw [List.append_nil] at hbeyond
      exact hinside (hbeyond ▸ List.prefix_refl _)
    | cons c beyond =>
      obtain ⟨after, rfl⟩ := hall
      have hc : c = '@' := by
        rcases hrest with hnil | hstarts
        · cases hnil
        · exact Option.some.inj (head?_of_starts hstarts)
      apply at_notMem_tail_of_mem_marks mark hmark
      rw [← hbeyond, List.tail_append_of_ne_nil hdrop, hc]
      simp

/-- No text is scanned first where a directive starts or nothing follows. -/
theorem Seam.scan_ne_text {rest : List Char} (h : Seam rest) (cs : List Char) (ps : List Piece) :
    scan rest ≠ .text cs :: ps := by
  intro hscan
  rcases h with rfl | ⟨d, behind, hd, rfl⟩
  · rw [scan] at hscan
    cases hscan
  · rw [scan_text_append d behind hd] at hscan
    cases hscan

/-- Behind a literal the canonical source goes on with a directive or ends. -/
theorem seam_print_append {nodes : List Node} (h : ListPrintable nodes)
    (hfirst : ∀ n ∈ nodes.head?, n.isLiteral = false) {rest : List Char} (hrest : Seam rest) :
    Seam (print nodes ++ rest) := by
  match nodes with
  | [] => exact hrest
  | .literal text :: ns => exact absurd (hfirst _ rfl) nofun
  | .placeholder key default :: ns =>
    simp only [print, printNode, List.append_assoc]
    exact seam_text_append (braceFree_placeBody h.1.1 h.1.2.2) _
  | .conditional key whenTrue none :: ns =>
    simp only [print, printNode, List.append_assoc]
    exact seam_text_append h.1.1.braceFree_openIf _
  | .conditional key whenTrue (some whenFalse) :: ns =>
    simp only [print, printNode, List.append_assoc]
    exact seam_text_append h.1.1.braceFree_openIf _
  | .iteration name collection body :: ns =>
    simp only [print, printNode_iteration, List.append_assoc]
    exact seam_text_append h.1.1.braceFree_loopBody _

/-! ## Tokens of canonical sources -/

/-- The token of a directive comes before those of the text behind it. -/
theorem tokens_text_append {d : Directive} {t : Token} (hd : d.BraceFree)
    (ht : Token.ofPiece (.directive d) = t) (rest : List Char) :
    (scan (d.text ++ rest)).map Token.ofPiece = t :: (scan rest).map Token.ofPiece := by
  rw [scan_text_append d rest hd, List.map_cons, ht]

/-- The token of a literal comes before those of the text behind it. -/
theorem tokens_literal_append {text : String} (h : PlainText text) {rest : List Char}
    (hrest : Seam rest) :
    (scan (text.toList ++ rest)).map Token.ofPiece =
      .literal text :: (scan rest).map Token.ofPiece := by
  have hne : text.toList ≠ [] := mt String.toList_eq_nil_iff.1 h.ne_empty
  rw [scan_append_of_not_starts _ _ hne hrest.scan_ne_text (h.not_starts hrest), List.map_cons,
    Token.ofPiece, String.ofList_toList]

/-- **Tokens of a canonical source.** They are those of the nodes, and then those of what follows,
as long as that starts with a directive. -/
theorem tokens_print_append {nodes : List Node} (h : ListPrintable nodes) {rest : List Char}
    (hrest : Seam rest) :
    (scan (print nodes ++ rest)).map Token.ofPiece =
      listTokens nodes ++ (scan rest).map Token.ofPiece := by
  induction nodes using Node.listInduction generalizing rest with
  | nil => rfl
  | literal text ns ih =>
    obtain ⟨htext, hns, hapart⟩ := h
    have hseam := seam_print_append hns (hapart rfl) hrest
    simp only [print, printNode, listTokens, Node.tokens, List.append_assoc]
    rw [tokens_literal_append htext hseam, ih hns hrest]
    rfl
  | placeholder key default ns ih =>
    obtain ⟨⟨hkey, hequals, hdefault⟩, hns, _⟩ := h
    simp only [print, printNode, listTokens, Node.tokens, List.append_assoc]
    rw [tokens_text_append (braceFree_placeBody hkey hdefault)
      (ofPlace_placeBody hkey hequals hdefault), ih hns hrest]
    rfl
  | conditional key whenTrue ns ihTrue ih =>
    obtain ⟨⟨hkey, htrue⟩, hns, _⟩ := h
    have hopener : Token.ofPiece (.directive (.openIf key.toList)) = .openIf key :=
      congrArg Token.openIf hkey.ofList_trimChars
    simp only [print, printNode, listTokens, Node.tokens, List.append_assoc, List.cons_append]
    rw [tokens_text_append hkey.braceFree_openIf hopener,
      ihTrue htrue (seam_text_append (braceFree_close _) _),
      tokens_text_append (braceFree_close _) rfl, ih hns hrest]
    rfl
  | alternative key whenTrue whenFalse ns ihTrue ihFalse ih =>
    obtain ⟨⟨hkey, htrue, hfalse⟩, hns, _⟩ := h
    have hopener : Token.ofPiece (.directive (.openIf key.toList)) = .openIf key :=
      congrArg Token.openIf hkey.ofList_trimChars
    simp only [print, printNode, listTokens, Node.tokens, List.append_assoc, List.cons_append]
    rw [tokens_text_append hkey.braceFree_openIf hopener,
      ihTrue htrue (seam_text_append braceFree_orElse _), tokens_text_append braceFree_orElse rfl,
      ihFalse hfalse (seam_text_append (braceFree_close _) _),
      tokens_text_append (braceFree_close _) rfl, ih hns hrest]
    rfl
  | iteration name collection body ns ihBody ih =>
    obtain ⟨⟨hnames, hbody⟩, hns, _⟩ := h
    simp only [print, printNode_iteration, listTokens, Node.tokens, List.append_assoc,
      List.cons_append]
    rw [tokens_text_append hnames.braceFree_loopBody hnames.ofFor_loopBody,
      ihBody hbody (seam_text_append (braceFree_close _) _),
      tokens_text_append (braceFree_close _) rfl, ih hns hrest]
    rfl

/-! ## Printing and parsing -/

/-- **Parsing undoes printing.** A tree that can be read back and nests within the limit is what its
canonical source is parsed to. -/
theorem parse_print (limit : Nat) (nodes : List Node) (hprintable : ListPrintable nodes)
    (hdepth : listDepth nodes ≤ limit) :
    parse limit (String.ofList (print nodes)) = .ok nodes := by
  rw [parse_eq_ok_iff_parseChars, parseChars_eq_ok_iff, String.toList_ofList]
  refine ⟨hdepth, ?_⟩
  have htokens := tokens_print_append hprintable (Or.inl rfl)
  rwa [List.append_nil, scan, List.map_nil, List.append_nil] at htokens

/-- A tree with at signs in its literals, texts like directives in its bodies, and names like the
word of the separator. -/
def strayNodes : List Node :=
  [.literal "a@b @if @", .conditional "@else" [.placeholder "k" (some "@endif=")] (some []),
    .iteration "in" "in xs" [.literal "@@end", .placeholder "" none]]

/-- None of that is in the way. -/
theorem parse_print_stray :
    ListPrintable strayNodes ∧ listDepth strayNodes ≤ 1 ∧
      parse 1 (String.ofList (print strayNodes)) = .ok strayNodes := by
  have hbare : ∀ text ∈ ["", "k", "@else", "@endif=", "in", "in xs"], BareText text := fun text h =>
    ⟨(by decide +kernel : ∀ text ∈ ["", "k", "@else", "@endif=", "in", "in xs"],
      Text.trim text = text) text h,
    (by decide : ∀ text ∈ ["", "k", "@else", "@endif=", "in", "in xs"],
      '\x7b' ∉ text.toList ∧ '\x7d' ∉ text.toList) text h⟩
  have hliteral : PlainText "a@b @if @" ∧ PlainText "@@end" :=
    ⟨⟨by decide, by decide +kernel⟩, ⟨by decide, by decide +kernel⟩⟩
  have hdefault : ∀ d ∈ some "@endif=", BareText d := by
    rintro d ⟨⟩
    exact hbare _ (by decide)
  have hnames : LoopNames "in" "in xs" :=
    ⟨hbare _ (by decide), hbare _ (by decide), by decide, by decide, by decide +kernel,
      by decide +kernel, by decide +kernel⟩
  have hbody : ListPrintable [.literal "@@end", .placeholder "" none] := by
    refine ⟨hliteral.2, ⟨⟨hbare _ (by decide), by decide, nofun⟩, trivial, nofun⟩, ?_⟩
    rintro _ m ⟨⟩
    rfl
  have hprintable : ListPrintable strayNodes := by
    refine ⟨hliteral.1, ⟨⟨hbare _ (by decide), ?_, trivial⟩, ⟨⟨hnames, hbody⟩, trivial, nofun⟩,
      nofun⟩, ?_⟩
    · exact ⟨⟨hbare _ (by decide), by decide, hdefault⟩, trivial, nofun⟩
    · rintro _ m ⟨⟩
      rfl
  exact ⟨hprintable, by decide, parse_print 1 strayNodes hprintable (by decide)⟩

end Stencil.Node
