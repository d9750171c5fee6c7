import Stencil.Proofs.CompactText
import Stencil.Proofs.Escaping

/-!
# Data and their texts

What is left of data once they have been written as a document and read again. A document has no
place for safe text and for templates: both stand there as strings. All else comes back as it was,
keys in their order and integers as integers, so data of a document come back whole. The entries of
an object stand in the order of their keys, as they do in every value that is read or built
(`ordered_ofJson`, `ordered_ofMap`). Main statement: the text of data is read as the data with
plain strings (`read_plain`).
-/

namespace Stencil

namespace Value

/-! ## Plain strings -/

mutual

/-- The value with a plain string in place of each safe text, which is this text, and in place of
each template, which is its source. -/
def plain : Value → Value
  | .null => .null
  | .bool b => .bool b
  | .number n => .number n
  | .string s => .string s
  | .array items => .array (listPlain items)
  | .object entries => .object (entriesPlain entries)
  | .safe s => .string s
  | .template t => .string t.source

/-- The values of a list with plain strings. -/
def listPlain : List Value → List Value
  | [] => []
  | v :: vs => plain v :: listPlain vs

/-- The entries of an object with plain strings. -/
def entriesPlain : List (String × Value) → List (String × Value)
  | [] => []
  | (k, v) :: es => (k, plain v) :: entriesPlain es

end

mutual

/-- A value of a document has nothing but plain strings. -/
theorem plain_of_isDocument : ∀ v : Value, v.isDocument = true → v.plain = v
  | .null, _ => rfl
  | .bool _, _ => rfl
  | .number _, _ => rfl
  | .string _, _ => rfl
  | .array items, h => congrArg Value.array (listPlain_of_isDocument items h)
  | .object entries, h => congrArg Value.object (entriesPlain_of_isDocument entries h)

/-- Values of documents have nothing but plain strings. -/
theorem listPlain_of_isDocument : ∀ vs : List Value, listIsDocument vs = true → listPlain vs = vs
  | [], _ => rfl
  | v :: vs, h => by
    rw [listIsDocument, Bool.and_eq_true] at h
    rw [listPlain, plain_of_isDocument v h.1, listPlain_of_isDocument vs h.2]

/-- Entries of documents have nothing but plain strings. -/
theorem entriesPlain_of_isDocument : ∀ es : List (String × Value),
    entriesIsDocument es = true → entriesPlain es = es
  | [], _ => rfl
  | (k, v) :: es, h => by
    rw [entriesIsDocument, Bool.and_eq_true] at h
    rw [entriesPlain, plain_of_isDocument v h.1, entriesPlain_of_isDocument es h.2]

end

/-- Plain strings change no key. -/
theorem map_fst_entriesPlain (es : List (String × Value)) :
    (entriesPlain es).map Prod.fst = es.map Prod.fst := by
  induction es with
  | nil => rfl
  | cons e es ih => rw [entriesPlain, List.map_cons, List.map_cons, ih]

/-- Plain strings keep the order of the keys. -/
theorem inKeyOrder_entriesPlain {es : List (String × Value)} (h : InKeyOrder es) :
    InKeyOrder (entriesPlain es) :=
  h.of_keys (map_fst_entriesPlain es).symm

/-! ## Order -/

mutual

/-- The entries of each object, at any depth, stand in the order of their keys. -/
def Ordered : Value → Prop
  | .array items => ListOrdered items
  | .object entries => InKeyOrder entries ∧ EntriesOrdered entries
  | _ => True

/-- The entries of each object in the values of a list stand in the order of their keys. -/
def ListOrdered : List Value → Prop
  | [] => True
  | v :: vs => Ordered v ∧ ListOrdered vs

/-- The entries of each object in the values of some entries stand in the order of their keys. -/
def EntriesOrdered : List (String × Value) → Prop
  | [] => True
  | (_, v) :: es => Ordered v ∧ EntriesOrdered es

end

/-- Entries whose values are ordered. -/
theorem entriesOrdered_of_mem {es : List (String × Value)} (h : ∀ e ∈ es, e.2.Ordered) :
    EntriesOrdered es := by
  induction es with
  | nil => trivial
  | cons e es ih =>
    exact ⟨h e List.mem_cons_self, ih fun f hf => h f (List.mem_cons_of_mem e hf)⟩

/-- Entries whose values are those of documents. -/
theorem entriesIsDocument_of_mem {es : List (String × Value)}
    (h : ∀ e ∈ es, e.2.isDocument = true) : entriesIsDocument es = true := by
  induction es with
  | nil => rfl
  | cons e es ih =>
    rw [entriesIsDocument, h e List.mem_cons_self, ih fun f hf => h f (List.mem_cons_of_mem e hf)]
    rfl

end Value

namespace Data

/-- The values of the data are ordered. -/
def Ordered (d : Data) : Prop :=
  ∀ k v, d.get? k = some v → v.Ordered

/-- The entries of ordered data are ordered. -/
theorem Ordered.entriesOrdered {d : Data} (h : d.Ordered) : Value.EntriesOrdered d.toList :=
  Value.entriesOrdered_of_mem fun e he => h e.1 e.2 (KeyMap.mem_toList_iff.1 he)

/-- Empty data are ordered. -/
theorem ordered_empty : Data.Ordered ∅ := by
  intro k v hv
  cases hv

/-- A binding to an ordered value keeps the data ordered. -/
theorem Ordered.insert {d : Data} (h : d.Ordered) (name : String) {v : Value} (hv : v.Ordered) :
    Data.Ordered (KeyMap.insert d name v) :=
  KeyMap.forall_get?_insert h name hv

end Data

namespace Value

/-- The object of ordered data is ordered. -/
theorem ordered_ofMap {d : Data} (h : d.Ordered) : (Value.ofMap d).Ordered :=
  ⟨d.sorted, h.entriesOrdered⟩

mutual

/-- The value of a document is ordered, whatever the order of its entries. -/
theorem ordered_ofJson : ∀ j : Json, (ofJson j).Ordered
  | .null => trivial
  | .bool _ => trivial
  | .number _ => trivial
  | .string _ => trivial
  | .array items => listOrdered_listOfJson items
  | .object entries => ordered_ofMap (ordered_mapOfJson entries ∅ Data.ordered_empty)

/-- The values of documents are ordered. -/
theorem listOrdered_listOfJson : ∀ vs : List Json, ListOrdered (listOfJson vs)
  | [] => trivial
  | v :: vs => ⟨ordered_ofJson v, listOrdered_listOfJson vs⟩

/-- Entries of a document that are put into ordered data keep them ordered. -/
theorem ordered_mapOfJson : ∀ (es : List (String × Json)) (d : Data), d.Ordered →
    Data.Ordered (mapOfJson d es)
  | [], _, h => h
  | (k, v) :: es, _, h => ordered_mapOfJson es _ (h.insert k (ordered_ofJson v))

end

/-! ## Writing and reading -/

mutual

/-- **A value and its document.** The document of an ordered value is read as the value with plain
strings. -/
theorem ofJson_toJson : ∀ v : Value, v.Ordered → ofJson v.toJson = v.plain
  | .null, _ => rfl
  | .bool _, _ => rfl
  | .number _, _ => rfl
  | .string _, _ => rfl
  | .array items, h => congrArg Value.array (listOfJson_listToJson items h)
  | .object entries, h =>
    congrArg Value.object (toList_mapOfJson entries ∅ h.1 h.2)
  | .safe _, _ => rfl
  | .template _, _ => rfl

/-- The documents of ordered values are read as the values with plain strings. -/
theorem listOfJson_listToJson : ∀ vs : List Value, ListOrdered vs →
    listOfJson (listToJson vs) = listPlain vs
  | [], _ => rfl
  | v :: vs, h => by
    rw [listToJson, listOfJson, ofJson_toJson v h.1, listOfJson_listToJson vs h.2, listPlain]

/-- The entries of an object that stand behind those of a map are put behind them. -/
theorem toList_mapOfJson : ∀ (es : List (String × Value)) (m : KeyMap Value),
    InKeyOrder (m.toList ++ es) → EntriesOrdered es →
    (mapOfJson m (entriesToJson es)).toList = m.toList ++ entriesPlain es
  | [], m, _, _ => (List.append_nil m.toList).symm
  | (k, v) :: es, m, h, hes => by
    have hlast : (m.insert k v.plain).toList = m.toList ++ [(k, v.plain)] :=
      insertEntry_of_forall_lt fun e he =>
        (List.pairwise_append.1 h).2.2 e he (k, v) List.mem_cons_self
    have horder : InKeyOrder ((m.insert k v.plain).toList ++ es) := h.of_keys (by simp [hlast])
    rw [entriesToJson, mapOfJson, ofJson_toJson v hes.1, toList_mapOfJson es _ horder hes.2, hlast,
      entriesPlain, List.append_assoc, List.singleton_append]

end

end Value

namespace Data

/-- The data with plain strings. -/
def plain (d : Data) : Data :=
  ⟨Value.entriesPlain d.toList, Value.inKeyOrder_entriesPlain d.sorted⟩

/-- Data of a document have nothing but plain strings. -/
theorem plain_of_isDocument {d : Data} (h : d.IsDocument) : d.plain = d := by
  have hentries : Value.entriesIsDocument d.toList = true :=
    Value.entriesIsDocument_of_mem fun e he => h e.1 e.2 (KeyMap.mem_toList_iff.1 he)
  exact KeyMap.toList_injective (Value.entriesPlain_of_isDocument d.toList hentries)

/-- The document of ordered data is read as the data with plain strings. -/
theorem ofJson_toJson {d : Data} (h : d.Ordered) : Data.ofJson d.toJson = .ok d.plain := by
  have hlist := Value.toList_mapOfJson d.toList ∅ d.sorted h.entriesOrdered
  exact congrArg Except.ok (KeyMap.toList_injective hlist)

/-- **Data and their text.** Data whose numbers are integers are written as a text that is read
again, as long as fewer than 128 arrays and objects stand inside one another. What is read are the
same data with a plain string in place of each safe text and of each template: data of a document
come back as they were. -/
theorem read_plain {d : Data} (hordered : d.Ordered) (hnumbers : d.toJson.Integral)
    (hdepth : d.toJson.nesting < 128) :
    (∃ doc, Json.read Json.nestingLimit d.toJson.compact = .ok doc ∧
      Data.ofJson doc = .ok d.plain) ∧
    (d.IsDocument → d.plain = d) := by
  have hlimit : d.toJson.nesting ≤ Json.nestingLimit := Nat.le_of_lt_succ hdepth
  exact ⟨⟨d.toJson, Json.read_compact hnumbers hlimit, ofJson_toJson hordered⟩,
    plain_of_isDocument⟩

/-- A template that says good morning. -/
def greeting : Template where
  handle := 0
  block := Block.mk ∅ [.text "good morning"]
  requiresData := false
  keys := ∅
  source := "good morning"
  escaper := EscapePolicy.html.escaper 0

/-- Data with the least and the greatest integer, and with safe text and a template inside other
values. -/
def letter : Data :=
  KeyMap.ofList [("né", .array [.number (.integer (-9223372036854775808) (by decide)),
    .number (.integer 18446744073709551615 (by decide)), .null]),
    ("body", .object [("\"\n", .safe "<b>\\"), ("to", .array [.template greeting])])]

/-- The letter with plain strings. -/
def plainLetter : Data :=
  KeyMap.ofList [("né", .array [.number (.integer (-9223372036854775808) (by decide)),
    .number (.integer 18446744073709551615 (by decide)), .null]),
    ("body", .object [("\"\n", .string "<b>\\"), ("to", .array [.string "good morning"])])]

/-- The text of the letter is read as the letter with plain strings, of which nothing is lost in
turn. -/
theorem read_plain_letter :
    letter.Ordered ∧ letter.toJson.Integral ∧ letter.toJson.nesting < 128 ∧
    (∃ doc, Json.read Json.nestingLimit letter.toJson.compact = .ok doc ∧
      Data.ofJson doc = .ok plainLetter) ∧
    plainLetter.IsDocument ∧ plainLetter.plain = plainLetter := by
  have hordered : letter.Ordered := by
    refine (ordered_empty.insert "né" ?_).insert "body" ?_
    · exact ⟨trivial, trivial, trivial, trivial⟩
    · have hkeys : InKeyOrder [("\"\n", Value.safe "<b>\\"), ("to", .array [.template greeting])] :=
        List.pairwise_pair.2 (by decide)
      exact ⟨hkeys, trivial, ⟨trivial, trivial⟩, trivial⟩
  have hnumbers : letter.toJson.Integral :=
    ⟨⟨trivial, ⟨trivial, trivial⟩, trivial⟩, ⟨trivial, trivial, trivial, trivial⟩, trivial⟩
  have hdepth : letter.toJson.nesting < 128 := by decide
  have hdocument : plainLetter.IsDocument := (isDocument_empty.insert "né" rfl).insert "body" rfl
  obtain ⟨hread, -⟩ := read_plain hordered hnumbers hdepth
  have hplain : letter.plain = plainLetter := rfl
  rw [hplain] at hread
  exact ⟨hordered, hnumbers, hdepth, hread, hdocument, plain_of_isDocument hdocument⟩

end Data

end Stencil
