import Stencil.Node.Place
import Stencil.Proofs.TreeRoundTrip

/-!
# Unknown kinds

What becomes of the document of a tree when one node in it is spoiled. A place in a tree is the tree
without one of its nodes: it is filled with a node to give the tree, and with a document to give the
document of the tree with this document in it. What stands before the place is read without an
error, so an error that the document in the place makes wherever it stands is the error of the whole
tree. A name that is no kind makes such an error, and so does an object without a kind. Main
statement: an unknown kind is reported as such wherever it stands, up to a backtick in its name, and
a missing kind is not (`refused_of_spoiled_kind`).
-/

namespace Stencil.Node

/-! ## Documents in a place -/

/-- The document of a block with some documents in place of its list of nodes. -/
def Gap.blockJson : Gap → List Json → Json
  | .first key none, vs =>
    .object [("type", .string "conditional"), ("condition_key", .string key),
      ("true_branch", .array vs)]
  | .first key (some whenFalse), vs =>
    .object [("type", .string "conditional"), ("condition_key", .string key),
      ("true_branch", .array vs), ("false_branch", .array (listToJson whenFalse))]
  | .second key whenTrue, vs =>
    .object [("type", .string "conditional"), ("condition_key", .string key),
      ("true_branch", .array (listToJson whenTrue)), ("false_branch", .array vs)]
  | .body name collection, vs =>
    .object [("type", .string "iteration"), ("iterator_name", .string name),
      ("collection_key", .string collection), ("body", .array vs)]

/-- The documents of a list of nodes with a document in the place. -/
def Place.fillJson (v : Json) : Place → List Json
  | .here before after => listToJson before ++ v :: listToJson after
  | .inside before gap place after =>
    listToJson before ++ gap.blockJson (place.fillJson v) :: listToJson after

/-- The documents of two lists in a row. -/
theorem listToJson_append (ms ns : List Node) :
    listToJson (ms ++ ns) = listToJson ms ++ listToJson ns := by
  induction ms with
  | nil => rfl
  | cons m ms ih => rw [List.cons_append, listToJson, listToJson, ih, List.cons_append]

/-- The document of a block. -/
theorem Gap.toJson_block (gap : Gap) (ns : List Node) :
    (gap.block ns).toJson = gap.blockJson (listToJson ns) := by
  cases gap with
  | first key whenFalse => cases whenFalse <;> rfl
  | second key whenTrue => rfl
  | body name collection => rfl

/-- The document of a node in a place gives the document of the tree. -/
theorem Place.listToJson_fill (p : Place) (n : Node) :
    listToJson (p.fill n) = p.fillJson n.toJson := by
  induction p with
  | here before after => rw [fill, fillJson, listToJson_append, listToJson]
  | inside before gap place after ih =>
    rw [fill, fillJson, listToJson_append, listToJson, gap.toJson_block, ih]

/-! ## Errors in a place -/

/-- An error in the nodes of a field is the error of the field. -/
theorem readField_of_error {t : FieldType} (ht : t = .nodes ∨ t = .optionalNodes)
    {items : List Json} {e : CompileError} (h : listOfJson items = .error e) :
    readField t (.array items) = .error e := by
  rw [readField_nodes ht, h]
  rfl

/-- An error in the fields of an object with a kind is the error of the object. -/
theorem ofJson_tagged_of_error (inside : Bool) {k : Kind} {es : List (String × Json)}
    {e : CompileError} (hes : ∀ e ∈ es, e.1 ≠ "type") (hfields : readEntries k [] es = .error e) :
    ofJson inside (.object (("type", .string k.tag) :: es)) = .error e := by
  rw [ofJson_tagged inside k hes, hfields]
  rfl

/-- An error in the list of a block is the error of the block. -/
theorem Gap.ofJson_blockJson_of_error (gap : Gap) (inside : Bool) {vs : List Json}
    {e : CompileError} (h : listOfJson vs = .error e) :
    ofJson inside (gap.blockJson vs) = .error e := by
  have hrequired : readField .nodes (.array vs) = .error e := readField_of_error (Or.inl rfl) h
  have hoptional : readField .optionalNodes (.array vs) = .error e :=
    readField_of_error (Or.inr rfl) h
  cases gap with
  | first key whenFalse =>
    -- the second branch is not reached
    have hfields (rest : List (String × Json)) : readEntries .conditional []
        (("condition_key", .string key) :: ("true_branch", .array vs) :: rest) = .error e := by
      rw [readEntries_cons (t := .text) (by decide) (by decide),
        readEntries_cons (t := .nodes) (by decide) (by decide), hrequired]
      rfl
    cases whenFalse with
    | none => exact ofJson_tagged_of_error inside (by simp) (hfields [])
    | some whenFalse => exact ofJson_tagged_of_error inside (by simp) (hfields [_])
  | second key whenTrue =>
    have hfirst := readField_array (Or.inl rfl) (listOfJson_listToJson whenTrue)
    have hfields : readEntries .conditional [] [("condition_key", .string key),
        ("true_branch", .array (listToJson whenTrue)), ("false_branch", .array vs)] =
        .error e := by
      rw [readEntries_cons (t := .text) (by decide) (by decide),
        readEntries_cons (t := .nodes) (by decide) (by decide), hfirst,
        readEntries_cons (t := .optionalNodes) (by decide) (by decide), hoptional]
      rfl
    exact ofJson_tagged_of_error inside (by simp) hfields
  | body name collection =>
    have hfields : readEntries .iteration [] [("iterator_name", .string name),
        ("collection_key", .string collection), ("body", .array vs)] = .error e := by
      rw [readEntries_cons (t := .text) (by decide) (by decide),
        readEntries_cons (t := .text) (by decide) (by decide),
        readEntries_cons (t := .nodes) (by decide) (by decide), hrequired]
      rfl
    exact ofJson_tagged_of_error inside (by simp) hfields

/-- The nodes before a document are read back, so its error comes first. -/
theorem mapM_ofJson_of_error {inside : Bool} {v : Json} {e : CompileError}
    (h : ofJson inside v = .error e) (before : List Node) (rest : List Json) :
    (listToJson before ++ v :: rest).mapM (ofJson inside) = .error e := by
  rw [List.mapM_append, mapM_ofJson_listToJson, List.mapM_cons, h]
  rfl

/-- **An error in a place.** An error that a document makes wherever it stands is the error of every
tree with this document in a place. -/
theorem Place.mapM_ofJson_fillJson (p : Place) {v : Json} {e : CompileError}
    (h : ∀ inside, ofJson inside v = .error e) :
    ∀ inside, (p.fillJson v).mapM (ofJson inside) = .error e := by
  induction p with
  | here before after =>
    intro inside
    exact mapM_ofJson_of_error (h inside) before (listToJson after)
  | inside before gap place after ih =>
    intro inside
    have hlist : listOfJson (place.fillJson v) = .error e := by
      rw [listOfJson_eq_mapM, ih]
    exact mapM_ofJson_of_error (gap.ofJson_blockJson_of_error inside hlist) before
      (listToJson after)

/-! ## The size of a spoiled document -/

/-- There is no number in two lists of documents in a row if there is none in either. -/
theorem itemsNumberFree_append {vs ws : List Json} (hvs : Json.ItemsNumberFree vs)
    (hws : Json.ItemsNumberFree ws) : Json.ItemsNumberFree (vs ++ ws) := by
  induction vs with
  | nil => exact hws
  | cons v vs ih => exact ⟨hvs.1, ih hvs.2⟩

/-- Two lists of documents in a row nest as deep as the deeper one. -/
theorem itemsNesting_append (vs ws : List Json) :
    Json.itemsNesting (vs ++ ws) = max (Json.itemsNesting vs) (Json.itemsNesting ws) := by
  induction vs with
  | nil => exact (Nat.zero_max _).symm
  | cons v vs ih => rw [List.cons_append, Json.itemsNesting, Json.itemsNesting, ih, Nat.max_assoc]

/-- There is no number in a block if there is none in the documents in its gap. -/
theorem Gap.numberFree_blockJson (gap : Gap) {vs : List Json} (h : Json.ItemsNumberFree vs) :
    (gap.blockJson vs).NumberFree := by
  cases gap with
  | first key whenFalse =>
    cases whenFalse with
    | none => exact ⟨trivial, trivial, h, trivial⟩
    | some whenFalse => exact ⟨trivial, trivial, h, itemsNumberFree_listToJson whenFalse, trivial⟩
  | second key whenTrue => exact ⟨trivial, trivial, itemsNumberFree_listToJson whenTrue, h, trivial⟩
  | body name collection => exact ⟨trivial, trivial, trivial, h, trivial⟩

/-- There is no number in a tree if there is none in the document in a place. -/
theorem Place.itemsNumberFree_fillJson (p : Place) {v : Json} (h : v.NumberFree) :
    Json.ItemsNumberFree (p.fillJson v) := by
  induction p with
  | here before after =>
    exact itemsNumberFree_append (itemsNumberFree_listToJson before)
      ⟨h, itemsNumberFree_listToJson after⟩
  | inside before gap place after ih =>
    exact itemsNumberFree_append (itemsNumberFree_listToJson before)
      ⟨gap.numberFree_blockJson ih, itemsNumberFree_listToJson after⟩

/-- A block nests no deeper with documents in its gap that nest no deeper. -/
theorem Gap.nesting_blockJson_le (gap : Gap) {vs ws : List Json}
    (h : Json.itemsNesting vs ≤ Json.itemsNesting ws) :
    (gap.blockJson vs).nesting ≤ (gap.blockJson ws).nesting := by
  cases gap with
  | first key whenFalse =>
    cases whenFalse <;>
    · simp only [blockJson, Json.nesting, Json.entriesNesting]
      omega
  | _ =>
    simp only [blockJson, Json.nesting, Json.entriesNesting]
    omega

/-- A tree nests no deeper with a document in a place that nests no deeper. -/
theorem Place.itemsNesting_fillJson_le (p : Place) {v w : Json} (h : v.nesting ≤ w.nesting) :
    Json.itemsNesting (p.fillJson v) ≤ Json.itemsNesting (p.fillJson w) := by
  induction p with
  | here before after =>
    simp only [fillJson, itemsNesting_append, Json.itemsNesting]
    omega
  | inside before gap place after ih =>
    have hblock := gap.nesting_blockJson_le ih
    simp only [fillJson, itemsNesting_append, Json.itemsNesting]
    omega

/-- A document is refused with an error: its indented text is, and so is every other text that
holds it. -/
def Refused (doc : Json) (e : CompileError) : Prop :=
  read doc.indented = .error e ∧
  ∀ text, Json.read Json.nestingLimit text = .ok doc → read text = .error e

/-- The document of a tree of at most 62 blocks inside one another is refused with the error of a
document in one of its places, if this document nests no deeper than the node did. -/
theorem Place.refused_of_error (p : Place) {n : Node} (hdepth : listDepth (p.fill n) ≤ 62) {v : Json}
    {e : CompileError} (hnumbers : v.NumberFree) (hnesting : v.nesting ≤ n.toJson.nesting)
    (herror : ∀ inside, ofJson inside v = .error e) : Refused (.array (p.fillJson v)) e := by
  have hlimit : (Json.array (p.fillJson v)).nesting ≤ Json.nestingLimit := by
    have htree := itemsNesting_listToJson_le (p.fill n)
    have hspoiled := p.itemsNesting_fillJson_le hnesting
    rw [p.listToJson_fill] at htree
    rw [Json.nesting, Json.nestingLimit]
    omega
  have htext (text : String)
      (h : Json.read Json.nestingLimit text = .ok (.array (p.fillJson v))) :
      read text = .error e := by
    rw [read, h]
    exact p.mapM_ofJson_fillJson herror false
  exact ⟨htext _ (Json.read_indented (p.itemsNumberFree_fillJson hnumbers) hlimit), htext⟩

/-! ## Spoiled kinds -/

/-- An object with another kind. -/
def retype (t : String) : Json → Json
  | .object es => .object (es.map fun e => if e.1 = "type" then ("type", .string t) else e)
  | v => v

/-- An object without its kind. -/
def untype : Json → Json
  | .object es => .object (es.filter fun e => e.1 ≠ "type")
  | v => v

/-- The object of a node has its kind in front of the other entries. -/
theorem exists_toJson_eq (n : Node) : ∃ (k : Kind) (es : List (String × Json)),
    n.toJson = .object (("type", .string k.tag) :: es) ∧ ∀ e ∈ es, e.1 ≠ "type" := by
  cases n with
  | literal text => exact ⟨.literal, _, rfl, by simp⟩
  | placeholder key default =>
    cases default with
    | none => exact ⟨.placeholder, _, rfl, by simp⟩
    | some default => exact ⟨.placeholder, _, rfl, by simp⟩
  | conditional key whenTrue whenFalse =>
    cases whenFalse with
    | none => exact ⟨.conditional, _, rfl, by simp⟩
    | some whenFalse => exact ⟨.conditional, _, rfl, by simp⟩
  | iteration name collection body => exact ⟨.iteration, _, rfl, by simp⟩

/-- There is no number in the entries of a node beside its kind. -/
theorem entriesNumberFree_of_toJson {n : Node} {v : Json} {es : List (String × Json)}
    (h : n.toJson = .object (("type", v) :: es)) : Json.EntriesNumberFree es := by
  have hnumbers : n.toJson.NumberFree := (itemsNumberFree_listToJson [n]).1
  rw [h] at hnumbers
  exact hnumbers.2

/-- Another kind leaves the other entries. -/
theorem retype_object (t : String) (v : Json) {es : List (String × Json)}
    (hes : ∀ e ∈ es, e.1 ≠ "type") :
    retype t (.object (("type", v) :: es)) = .object (("type", .string t) :: es) := by
  have hothers : (es.map fun e => if e.1 = "type" then ("type", Json.string t) else e) = es := by
    refine (List.map_congr_left fun e he => ?_).trans (List.map_id es)
    exact if_neg (hes e he)
  rw [retype, List.map_cons, hothers]
  rfl

/-- Without the kind the other entries are left. -/
theorem untype_object (v : Json) {es : List (String × Json)} (hes : ∀ e ∈ es, e.1 ≠ "type") :
    untype (.object (("type", v) :: es)) = .object es := by
  have hothers : (es.filter fun e => e.1 ≠ "type") = es :=
    List.filter_eq_self.2 fun e he => decide_eq_true (hes e he)
  rw [untype, List.filter_cons_of_neg (by simp), hothers]

/-- Entries without a kind name none. -/
theorem findKind_of_forall_ne (inside : Bool) {es : List (String × Json)}
    (hes : ∀ e ∈ es, e.1 ≠ "type") : findKind inside es = .error .invalidNodeTree := by
  induction es with
  | nil => rfl
  | cons e es ih =>
    rw [findKind, if_neg (hes e List.mem_cons_self)]
    exact ih fun f hf => hes f (List.mem_cons_of_mem e hf)

/-- An object whose kind is unknown is an error that names the kind. -/
theorem ofJson_unknown (inside : Bool) {t : String} (ht : Kind.ofTag? t = none)
    (es : List (String × Json)) :
    ofJson inside (.object (("type", .string t) :: es)) =
      .error (.unknownNodeType (upToBacktick t)) := by
  have hkind : readKind inside (.string t) = .error (.unknownNodeType (upToBacktick t)) := by
    rw [readKind, ht]
  rw [ofJson, findKind, if_pos rfl, hkind]
  rfl

/-- An object without a kind is an error. -/
theorem ofJson_untyped (inside : Bool) {es : List (String × Json)}
    (hes : ∀ e ∈ es, e.1 ≠ "type") :
    ofJson inside (.object es) = .error .invalidNodeTree := by
  rw [ofJson, findKind_of_forall_ne inside hes]
  rfl

/-- A name that is none of the four kinds. -/
theorem ofTag?_eq_none {t : String}
    (ht : t ∉ ["literal", "placeholder", "conditional", "iteration"]) : Kind.ofTag? t = none := by
  refine List.find?_eq_none.2 fun k _ hk => ht ?_
  obtain rfl := of_decide_eq_true hk
  cases k <;> decide

/-- Characters that are no backticks stand before the first one. -/
theorem takeWhile_append_of_not_mem {cs : List Char} (h : '\x60' ∉ cs) (rest : List Char) :
    (cs ++ rest).takeWhile (fun c => c ≠ '\x60') =
      cs ++ rest.takeWhile (fun c => c ≠ '\x60') := by
  apply List.takeWhile_append_of_pos
  intro c hc
  apply decide_eq_true
  rintro rfl
  exact h hc

/-- A name without a backtick goes to its end. -/
theorem upToBacktick_of_not_mem {t : String} (h : '\x60' ∉ t.toList) : upToBacktick t = t := by
  have htake := takeWhile_append_of_not_mem h []
  rw [List.append_nil, List.takeWhile_nil, List.append_nil] at htake
  rw [upToBacktick, htake, String.ofList_toList]

/-- A name goes to its first backtick. -/
theorem upToBacktick_append {before : String} (h : '\x60' ∉ before.toList) (after : String) :
    upToBacktick (before ++ "\x60" ++ after) = before := by
  have htext : (before ++ "\x60" ++ after).toList = before.toList ++ '\x60' :: after.toList := by
    simp
  rw [upToBacktick, htext, takeWhile_append_of_not_mem h, List.takeWhile_cons_of_neg (by simp),
    List.append_nil, String.ofList_toList]

/-! ## The main statement -/

/-- The document of a tree is refused where the kind of one of its nodes is unknown. -/
theorem Place.refused_retype (p : Place) {n : Node} (hdepth : listDepth (p.fill n) ≤ 62)
    {t : String} (ht : t ∉ ["literal", "placeholder", "conditional", "iteration"]) :
    Refused (.array (p.fillJson (retype t n.toJson))) (.unknownNodeType (upToBacktick t)) := by
  obtain ⟨k, es, hjson, hes⟩ := exists_toJson_eq n
  have hnesting : (Json.object (("type", .string t) :: es)).nesting ≤ n.toJson.nesting := by
    rw [hjson]
    exact Nat.le_refl _
  rw [hjson, retype_object t _ hes]
  exact p.refused_of_error hdepth ⟨trivial, entriesNumberFree_of_toJson hjson⟩ hnesting
    fun inside => ofJson_unknown inside (ofTag?_eq_none ht) es

/-- The document of a tree is refused where the kind of one of its nodes is missing. -/
theorem Place.refused_untype (p : Place) {n : Node} (hdepth : listDepth (p.fill n) ≤ 62) :
    Refused (.array (p.fillJson (untype n.toJson))) .invalidNodeTree := by
  obtain ⟨k, es, hjson, hes⟩ := exists_toJson_eq n
  have hnesting : (Json.object es).nesting ≤ n.toJson.nesting := by
    rw [hjson]
    simp [Json.nesting, Json.entriesNesting]
  rw [hjson, untype_object _ hes]
  exact p.refused_of_error hdepth (entriesNumberFree_of_toJson hjson) hnesting
    fun inside => ofJson_untyped inside hes

/-- **Spoiled kinds.** In the document of a tree of at most 62 blocks inside one another the kind of
any node may be spoiled, at any depth. If another name than those of the four kinds stands there,
the document is refused with an unknown kind, which is the name up to its first backtick; if the
entry is missing, the tree is no tree. -/
theorem refused_of_spoiled_kind {nodes : List Node} (hdepth : listDepth nodes ≤ 62) :
    (∀ n ∈ listSubnodes nodes, ∃ p : Place, p.fill n = nodes) ∧
    ∀ (p : Place) (n : Node), p.fill n = nodes →
      write nodes = (Json.array (p.fillJson n.toJson)).indented ∧
      (∀ t, t ∉ ["literal", "placeholder", "conditional", "iteration"] →
        ('\x60' ∉ t.toList →
          Refused (.array (p.fillJson (retype t n.toJson))) (.unknownNodeType t)) ∧
        ∀ before after, t = before ++ "\x60" ++ after → '\x60' ∉ before.toList →
          Refused (.array (p.fillJson (retype t n.toJson))) (.unknownNodeType before)) ∧
      Refused (.array (p.fillJson (untype n.toJson))) .invalidNodeTree := by
  refine ⟨fun n hn => exists_fill_eq nodes hn, ?_⟩
  rintro p n rfl
  refine ⟨?_, fun t ht => ⟨?_, ?_⟩, p.refused_untype hdepth⟩
  · rw [write, p.listToJson_fill]
  · intro hplain
    have hrefused := p.refused_retype hdepth ht
    rw [upToBacktick_of_not_mem hplain] at hrefused
    exact hrefused
  · rintro before after rfl hbefore
    have hrefused := p.refused_retype hdepth ht
    rw [upToBacktick_append hbefore] at hrefused
    exact hrefused

/-- A loop around the second branch of a conditional. -/
def nestedTree : List Node :=
  [.literal "a", .iteration "x" "xs" [.conditional "x" [] (some [.literal ""])]]

/-- The document of the loop with another document in the second branch. -/
def nestedJson (v : Json) : Json :=
  .array [.object [("type", .string "literal"), ("value", .string "a")],
    .object [("type", .string "iteration"), ("iterator_name", .string "x"),
      ("collection_key", .string "xs"), ("body", .array [
        .object [("type", .string "conditional"), ("condition_key", .string "x"),
          ("true_branch", .array []), ("false_branch", .array [v])]])]]

/-- The kind of the literal in the second branch is misspelled, has a backtick, or is missing. -/
theorem refused_of_spoiled_kind_nested :
    listDepth nestedTree ≤ 62 ∧ .literal "" ∈ listSubnodes nestedTree ∧
    write nestedTree =
      (nestedJson (.object [("type", .string "literal"), ("value", .string "")])).indented ∧
    Refused (nestedJson (.object [("type", .string "Literal"), ("value", .string "")]))
      (.unknownNodeType "Literal") ∧
    Refused (nestedJson (.object [("type", .string "if\x60x\x60"), ("value", .string "")]))
      (.unknownNodeType "if") ∧
    Refused (nestedJson (.object [("value", .string "")])) .invalidNodeTree := by
  have hdepth : listDepth nestedTree ≤ 62 := by decide
  have hmem : .literal "" ∈ listSubnodes nestedTree := by simp [nestedTree, listSubnodes, subnodes]
  obtain ⟨-, hplaces⟩ := refused_of_spoiled_kind hdepth
  obtain ⟨hwrite, hunknown, hmissing⟩ := hplaces
    (.inside [.literal "a"] (.body "x" "xs") (.inside [] (.second "x" []) (.here [] []) []) [])
    (.literal "") rfl
  refine ⟨hdepth, hmem, hwrite, ?_, ?_, hmissing⟩
  · exact (hunknown "Literal" (by decide)).1 (by decide)
  · exact (hunknown "if\x60x\x60" (by decide)).2 "if" "x\x60" rfl (by decide)

end Stencil.Node
