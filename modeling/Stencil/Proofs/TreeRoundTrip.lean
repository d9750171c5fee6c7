import Stencil.Engine
import Stencil.Node.Document
import Stencil.Proofs.Ceiling
import Stencil.Proofs.Documents

/-!
# Node trees and their documents

A node is read back from the object that is written for it: the kind comes first, then the fields of
the kind, of which the optional ones are left out where there is nothing to say. A tree has no
numbers in its document, and two containers for each block, so the document fits under the reader's
limit as long as the tree is not too deep. Main statement: a tree is read back from its text
(`read_write`).
-/

namespace Stencil.Node

/-! ## Objects with a kind -/

/-- The name of a kind is read as the kind. -/
theorem readKind_tag (inside : Bool) (k : Kind) : readKind inside (.string k.tag) = .ok k := by
  have htag : Kind.ofTag? k.tag = some k := by
    cases k <;> decide
  rw [readKind, htag]

/-- The kind that stands first in an object is its kind, unless there is another one. -/
theorem findKind_tag (inside : Bool) (k : Kind) {es : List (String × Json)}
    (hes : ∀ e ∈ es, e.1 ≠ "type") :
    findKind inside (("type", .string k.tag) :: es) = .ok k := by
  have hany : es.any (fun e => e.1 = "type") = false := by
    simpa using hes
  rw [findKind, if_pos rfl, readKind_tag]
  show (if es.any (fun e => e.1 = "type") then _ else _) = _
  rw [hany]
  rfl

/-- The kind is no field. -/
theorem readEntries_type (k : Kind) (seen : List String) (v : Json) (es : List (String × Json)) :
    readEntries k seen (("type", v) :: es) = readEntries k seen es := by
  have hnone : k.fieldType? "type" = none := by
    cases k <;> decide
  rw [readEntries, hnone]

/-- A field that was not there before is read, then those behind it. -/
theorem readEntries_cons {t : FieldType} {k : Kind} {seen : List String} {name : String}
    (htype : k.fieldType? name = some t) (hseen : name ∉ seen) (v : Json)
    (es : List (String × Json)) :
    readEntries k seen ((name, v) :: es) = (do
      let x ← readField t v
      let xs ← readEntries k (name :: seen) es
      return (name, x) :: xs) := by
  rw [readEntries, htype]
  exact if_neg hseen

/-- A field that is read, in front of fields that are. -/
theorem readEntries_field (t : FieldType) {k : Kind} {seen : List String} {name : String}
    {v : Json} {x : FieldValue} {es : List (String × Json)} {xs : List (String × FieldValue)}
    (htype : k.fieldType? name = some t) (hseen : name ∉ seen) (hfield : readField t v = .ok x)
    (hes : readEntries k (name :: seen) es = .ok xs) :
    readEntries k seen ((name, v) :: es) = .ok ((name, x) :: xs) := by
  rw [readEntries_cons htype hseen, hfield, hes]
  rfl

/-- An object with a kind is what its other entries make of the kind. -/
theorem ofJson_tagged (inside : Bool) (k : Kind) {es : List (String × Json)}
    (hes : ∀ e ∈ es, e.1 ≠ "type") :
    ofJson inside (.object (("type", .string k.tag) :: es)) =
      readEntries k [] es >>= fun xs => k.build xs := by
  rw [ofJson, findKind_tag inside k hes]
  show (readEntries k [] (("type", .string k.tag) :: es) >>= fun xs => k.build xs) = _
  rw [readEntries_type]

/-- An object with a kind and the fields of a node is the node. -/
theorem ofJson_object (inside : Bool) {k : Kind} {es : List (String × Json)}
    {xs : List (String × FieldValue)} {n : Node} (hes : ∀ e ∈ es, e.1 ≠ "type")
    (hfields : readEntries k [] es = .ok xs) (hbuild : k.build? xs = some n) :
    ofJson inside (.object (("type", .string k.tag) :: es)) = .ok n := by
  rw [ofJson_tagged inside k hes, hfields]
  show k.build xs = _
  rw [Kind.build, hbuild]

/-- A field that holds nodes is read as a list of nodes. -/
theorem readField_nodes {t : FieldType} (ht : t = .nodes ∨ t = .optionalNodes)
    (items : List Json) :
    readField t (.array items) = listOfJson items >>= fun ns => .ok (.nodes ns) := by
  rcases ht with rfl | rfl
  · rw [readField]
    rfl
  · rw [readField]
    rfl

/-- A list of nodes is read in a field that holds nodes. -/
theorem readField_array {t : FieldType} (ht : t = .nodes ∨ t = .optionalNodes)
    {items : List Json} {nodes : List Node} (h : listOfJson items = .ok nodes) :
    readField t (.array items) = .ok (.nodes nodes) := by
  rw [readField_nodes ht, h]
  rfl

/-! ## Nodes -/

/-- A literal is read back. -/
theorem ofJson_literal (inside : Bool) (text : String) :
    ofJson inside (Node.literal text).toJson = .ok (.literal text) := by
  have hfields : readEntries .literal [] [("value", .string text)] =
      .ok [("value", .text text)] :=
    readEntries_field .text (by decide) (by decide) rfl rfl
  exact ofJson_object inside (by simp) hfields rfl

/-- A placeholder is read back. -/
theorem ofJson_placeholder (inside : Bool) (key : String) (default : Option String) :
    ofJson inside (Node.placeholder key default).toJson = .ok (.placeholder key default) := by
  cases default with
  | none =>
    have hfields : readEntries .placeholder [] [("key", .string key)] =
        .ok [("key", .text key)] :=
      readEntries_field .text (by decide) (by decide) rfl rfl
    exact ofJson_object inside (by simp) hfields rfl
  | some default =>
    have hfields : readEntries .placeholder []
        [("key", .string key), ("default_value", .string default)] =
        .ok [("key", .text key), ("default_value", .text default)] :=
      readEntries_field .text (by decide) (by decide) rfl
        (readEntries_field .optionalText (by decide) (by decide) rfl rfl)
    exact ofJson_object inside (by simp) hfields rfl

/-- A conditional with one branch is read back if its branch is. -/
theorem ofJson_conditional (inside : Bool) (key : String) {whenTrue : List Node}
    (htrue : listOfJson (listToJson whenTrue) = .ok whenTrue) :
    ofJson inside (Node.conditional key whenTrue none).toJson =
      .ok (.conditional key whenTrue none) := by
  have hbranch := readField_array (Or.inl rfl) htrue
  have hfields : readEntries .conditional []
      [("condition_key", .string key), ("true_branch", .array (listToJson whenTrue))] =
      .ok [("condition_key", .text key), ("true_branch", .nodes whenTrue)] :=
    readEntries_field .text (by decide) (by decide) rfl
      (readEntries_field .nodes (by decide) (by decide) hbranch rfl)
  exact ofJson_object inside (by simp) hfields rfl

/-- A conditional with two branches is read back if its branches are. -/
theorem ofJson_alternative (inside : Bool) (key : String) {whenTrue whenFalse : List Node}
    (htrue : listOfJson (listToJson whenTrue) = .ok whenTrue)
    (hfalse : listOfJson (listToJson whenFalse) = .ok whenFalse) :
    ofJson inside (Node.conditional key whenTrue (some whenFalse)).toJson =
      .ok (.conditional key whenTrue (some whenFalse)) := by
  have hfirst := readField_array (Or.inl rfl) htrue
  have hsecond := readField_array (Or.inr rfl) hfalse
  have hfields : readEntries .conditional []
      [("condition_key", .string key), ("true_branch", .array (listToJson whenTrue)),
        ("false_branch", .array (listToJson whenFalse))] =
      .ok [("condition_key", .text key), ("true_branch", .nodes whenTrue),
        ("false_branch", .nodes whenFalse)] :=
    readEntries_field .text (by decide) (by decide) rfl
      (readEntries_field .nodes (by decide) (by decide) hfirst
        (readEntries_field .optionalNodes (by decide) (by decide) hsecond rfl))
  exact ofJson_object inside (by simp) hfields rfl

/-- A loop is read back if its body is. -/
theorem ofJson_iteration (inside : Bool) (name collection : String) {body : List Node}
    (hbody : listOfJson (listToJson body) = .ok body) :
    ofJson inside (Node.iteration name collection body).toJson =
      .ok (.iteration name collection body) := by
  have hnodes := readField_array (Or.inl rfl) hbody
  have hfields : readEntries .iteration []
      [("iterator_name", .string name), ("collection_key", .string collection),
        ("body", .array (listToJson body))] =
      .ok [("iterator_name", .text name), ("collection_key", .text collection),
        ("body", .nodes body)] :=
    readEntries_field .text (by decide) (by decide) rfl
      (readEntries_field .text (by decide) (by decide) rfl
        (readEntries_field .nodes (by decide) (by decide) hnodes rfl))
  exact ofJson_object inside (by simp) hfields rfl

/-! ## Trees -/

/-- The elements of an array inside a node are read one by one. -/
theorem listOfJson_eq_mapM (items : List Json) : listOfJson items = items.mapM (ofJson true) := by
  induction items with
  | nil => rfl
  | cons v vs ih => rw [listOfJson, List.mapM_cons, ih]

/-- A node that is read back, in front of nodes that are. -/
theorem mapM_ofJson_cons {inside : Bool} {n : Node} {nodes : List Node}
    (hn : ofJson inside n.toJson = .ok n)
    (hnodes : (listToJson nodes).mapM (ofJson inside) = .ok nodes) :
    (listToJson (n :: nodes)).mapM (ofJson inside) = .ok (n :: nodes) := by
  rw [listToJson, List.mapM_cons, hn, hnodes]
  rfl

/-- **Reading a tree back.** The nodes of a tree are read back from their objects, at any depth. -/
theorem mapM_ofJson_listToJson (nodes : List Node) :
    ∀ inside, (listToJson nodes).mapM (ofJson inside) = .ok nodes := by
  have hinner {ns : List Node} (h : ∀ inside, (listToJson ns).mapM (ofJson inside) = .ok ns) :
      listOfJson (listToJson ns) = .ok ns := by
    rw [listOfJson_eq_mapM, h]
  induction nodes using listInduction with
  | nil =>
    intro inside
    rfl
  | literal text ns ih =>
    intro inside
    exact mapM_ofJson_cons (ofJson_literal inside text) (ih inside)
  | placeholder key default ns ih =>
    intro inside
    exact mapM_ofJson_cons (ofJson_placeholder inside key default) (ih inside)
  | conditional key whenTrue ns htrue ih =>
    intro inside
    exact mapM_ofJson_cons (ofJson_conditional inside key (hinner htrue)) (ih inside)
  | alternative key whenTrue whenFalse ns htrue hfalse ih =>
    intro inside
    have hn := ofJson_alternative inside key (hinner htrue) (hinner hfalse)
    exact mapM_ofJson_cons hn (ih inside)
  | iteration name collection body ns hbody ih =>
    intro inside
    exact mapM_ofJson_cons (ofJson_iteration inside name collection (hinner hbody)) (ih inside)

/-- The nodes of a block are read back from their objects. -/
theorem listOfJson_listToJson (nodes : List Node) : listOfJson (listToJson nodes) = .ok nodes := by
  rw [listOfJson_eq_mapM, mapM_ofJson_listToJson]

/-! ## The document of a tree -/

/-- There is no number in the document of a tree. -/
theorem itemsNumberFree_listToJson (nodes : List Node) :
    Json.ItemsNumberFree (listToJson nodes) := by
  induction nodes using listInduction with
  | nil => trivial
  | literal text ns ih => exact ⟨⟨trivial, trivial, trivial⟩, ih⟩
  | placeholder key default ns ih =>
    cases default with
    | none => exact ⟨⟨trivial, trivial, trivial⟩, ih⟩
    | some default => exact ⟨⟨trivial, trivial, trivial, trivial⟩, ih⟩
  | conditional key whenTrue ns htrue ih => exact ⟨⟨trivial, trivial, htrue, trivial⟩, ih⟩
  | alternative key whenTrue whenFalse ns htrue hfalse ih =>
    exact ⟨⟨trivial, trivial, htrue, hfalse, trivial⟩, ih⟩
  | iteration name collection body ns hbody ih =>
    exact ⟨⟨trivial, trivial, trivial, hbody, trivial⟩, ih⟩

/-- A block takes two containers of its document, its object and the array of its nodes, and a node
that is no block takes one. -/
theorem itemsNesting_listToJson_le (nodes : List Node) :
    Json.itemsNesting (listToJson nodes) ≤ 2 * listDepth nodes + 1 := by
  induction nodes using listInduction with
  | nil => exact Nat.zero_le _
  | placeholder key default ns ih =>
    -- a default is one more string in the object
    cases default <;>
    · simp only [listToJson, toJson, Json.itemsNesting, Json.nesting, Json.entriesNesting,
        listDepth, depth]
      omega
  | _ =>
    simp only [listToJson, toJson, Json.itemsNesting, Json.nesting, Json.entriesNesting, listDepth,
      depth]
    omega

/-! ## The main statement -/

/-- A tree whose document fits under the reader's limit is read back from its text. -/
theorem read_write_of_nesting_le {nodes : List Node}
    (h : (Json.array (listToJson nodes)).nesting ≤ Json.nestingLimit) :
    read (write nodes) = .ok nodes := by
  have hnumbers : (Json.array (listToJson nodes)).NumberFree := itemsNumberFree_listToJson nodes
  have hread := Json.read_indented hnumbers h
  rw [read, write, hread]
  exact mapM_ofJson_listToJson nodes false

/-- **Trees survive their text.** A tree of any width that nests at most 62 blocks is read back from
the text that is written for it, whatever its strings are and whether or not its placeholders have
defaults and its conditionals second branches. So is every tree that the parser yields below its
default ceiling. -/
theorem read_write (nodes : List Node) :
    (listDepth nodes ≤ 62 → read (write nodes) = .ok nodes) ∧
    ∀ source, parse defaultMaxDepth source = .ok nodes → read (write nodes) = .ok nodes := by
  have hread : listDepth nodes ≤ 62 → read (write nodes) = .ok nodes := by
    intro hdepth
    have hnesting := itemsNesting_listToJson_le nodes
    apply read_write_of_nesting_le
    rw [Json.nesting, Json.nestingLimit]
    omega
  refine ⟨hread, ?_⟩
  intro source hparse
  have hdepth := listDepth_of_parse hparse
  rw [defaultMaxDepth] at hdepth
  exact hread (by omega)

/-- A tree that no source has: two literals in a row, one of them with characters that are escaped
and characters that are not, a key that is empty, and all the ways to leave something out. -/
def oddTree : List Node :=
  [.literal "say \"hi\" \\ /\n\t\r\u0000\u001f\u007f é 😀", .literal "", .placeholder "" none,
    .placeholder "k" (some ""), .conditional "c" [] none, .conditional "c" [] (some []),
    .iteration "x" "xs" [.conditional "type" [.placeholder "x" (some "\u0008\u000c")]
      (some [.literal "null"])]]

/-- The odd tree is read back from its text, and so is the tree of a source. -/
theorem read_write_odd :
    listDepth oddTree ≤ 62 ∧ read (write oddTree) = .ok oddTree ∧
    parse defaultMaxDepth "\"@if\x7bc\x7d@\x7bk=\x7d@else@endif" =
      .ok [.literal "\"", .conditional "c" [.placeholder "k" (some "")] (some [])] ∧
    read (write [.literal "\"", .conditional "c" [.placeholder "k" (some "")] (some [])]) =
      .ok [.literal "\"", .conditional "c" [.placeholder "k" (some "")] (some [])] := by
  have hdepth : listDepth oddTree ≤ 62 := by decide
  have hparse : parse defaultMaxDepth "\"@if\x7bc\x7d@\x7bk=\x7d@else@endif" =
      .ok [.literal "\"", .conditional "c" [.placeholder "k" (some "")] (some [])] := by
    rw [parse_eq_ok_iff_parseChars, parseChars_eq_ok_iff]
    exact ⟨by decide, by decide +kernel⟩
  exact ⟨hdepth, (read_write oddTree).1 hdepth, hparse, (read_write _).2 _ hparse⟩

end Stencil.Node
