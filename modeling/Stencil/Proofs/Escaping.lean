import Stencil.Proofs.Copying

/-!
# Escaped output

An escaping that works piece by piece may be left to the end: where the literal texts need none, and
the data hold nothing that is exempt from it, each text is escaped exactly once, so the output is
that of the plain rendering with the escaping done to the whole. Main statement: HTML output is the
escaped plain output, and no character in it has its meaning (`run_html_eq_escapeHtml_run_raw`).
-/

namespace Stencil

open Stencil.Text

/-! ## Literal texts -/

namespace Node

mutual

/-- The literal texts of a node. -/
def literals : Node → List String
  | .literal text => [text]
  | .placeholder _ _ => []
  | .conditional _ whenTrue none => listLiterals whenTrue
  | .conditional _ whenTrue (some whenFalse) => listLiterals whenTrue ++ listLiterals whenFalse
  | .iteration _ _ body => listLiterals body

/-- The literal texts of a list of nodes. -/
def listLiterals : List Node → List String
  | [] => []
  | n :: ns => n.literals ++ listLiterals ns

end

end Node

/-! ## Values of documents -/

namespace Value

mutual

/-- Whether the value holds neither safe text nor a template, at any depth. -/
def isDocument : Value → Bool
  | .array items => listIsDocument items
  | .object entries => entriesIsDocument entries
  | .safe _ => false
  | .template _ => false
  | _ => true

/-- Whether no value of a list holds safe text or a template. -/
def listIsDocument : List Value → Bool
  | [] => true
  | v :: vs => v.isDocument && listIsDocument vs

/-- Whether no value of some entries holds safe text or a template. -/
def entriesIsDocument : List (String × Value) → Bool
  | [] => true
  | (_, v) :: es => v.isDocument && entriesIsDocument es

end

/-- The elements of an array without safe text and templates have none either. -/
theorem isDocument_of_mem {items : List Value} (h : listIsDocument items = true) :
    ∀ v ∈ items, v.isDocument = true := by
  induction items with
  | nil => simp
  | cons v vs ih =>
    rw [listIsDocument, Bool.and_eq_true] at h
    exact List.forall_mem_cons.2 ⟨h.1, ih h.2⟩

end Value

/-- No value of the data holds safe text or a template, at any depth. -/
def Data.IsDocument (data : Data) : Prop :=
  ∀ k v, data.get? k = some v → v.isDocument = true

/-- Empty data are a document. -/
theorem Data.isDocument_empty : Data.IsDocument ∅ := by
  intro k v hv
  cases hv

/-- A binding to a value of a document keeps the data a document. -/
theorem Data.IsDocument.insert {data : Data} (h : data.IsDocument) (name : String) {v : Value}
    (hv : v.isDocument = true) : Data.IsDocument (KeyMap.insert data name v) :=
  KeyMap.forall_get?_insert h name hv

/-! ## Escaping piece by piece -/

/-- The escaping of two texts in a row is that of one and then the other. -/
structure Piecewise (f : String → String) : Prop where
  empty : f "" = ""
  append : ∀ a b, f (a ++ b) = f a ++ f b

/-- HTML is escaped piece by piece. -/
theorem piecewise_escapeHtml : Piecewise Entity.escapeHtml where
  empty := rfl
  append := Entity.escapeHtml_append

namespace Copying

section Pieces

variable {f : String → String} (hf : Piecewise f)

include hf

/-- The empty output stays empty. -/
theorem map_ok_empty : (Except.ok "" : Except RenderError String).map f = .ok "" :=
  congrArg Except.ok hf.empty

/-- Two outputs in a row are escaped one after the other. -/
theorem map_followedBy (r s : Except RenderError String) :
    (followedBy r s).map f = followedBy (r.map f) (s.map f) := by
  cases r with
  | error e => rfl
  | ok first =>
    cases s with
    | error e => rfl
    | ok others => exact congrArg Except.ok (hf.append first others)

/-- The outputs of some elements are escaped one after the other. -/
theorem map_concatMapText {α : Type} {g g' : α → Except RenderError String} {xs : List α}
    (h : ∀ x ∈ xs, g x = (g' x).map f) : concatMapText g xs = (concatMapText g' xs).map f := by
  induction xs with
  | nil => exact (map_ok_empty hf).symm
  | cons x xs ih =>
    obtain ⟨hx, hxs⟩ := List.forall_mem_cons.1 h
    show followedBy (g x) (concatMapText g xs) = (followedBy (g' x) (concatMapText g' xs)).map f
    rw [map_followedBy hf, hx, ih hxs]

end Pieces

/-! ## Walks with and without escaping -/

section Walks

variable {mode : KeyValidation} {f : String → String}

/-- A placeholder escapes what it puts out without escaping. -/
theorem place_eq_map {data : Data} (hdata : data.IsDocument) (key : String)
    (default : Option String) :
    place f data key default = (place id data key default).map f := by
  unfold place
  cases hv : data.get? key with
  | none => cases default <;> rfl
  | some v =>
    have hdoc := hdata key v hv
    cases v with
    | null => cases default <;> rfl
    | safe s => cases hdoc
    | template t => cases hdoc
    | _ => rfl

/-- The elements of a loop over a document hold no safe text and no template. -/
theorem isDocument_of_collection {data : Data} (hdata : data.IsDocument) {key : String}
    {items : List Value} (h : (Scope.root data).collection key = .ok items) :
    ∀ v ∈ items, v.isDocument = true := by
  unfold Scope.collection Scope.lookup at h
  cases hv : data.get? key with
  | none =>
    rw [hv] at h
    cases h
  | some v =>
    rw [hv] at h
    have hdoc := hdata key v hv
    cases v with
    | array items' =>
      obtain rfl := Except.ok.inj h
      exact Value.isDocument_of_mem hdoc
    | _ => cases h

/-- A block escapes what it puts out without escaping, if its nodes do. -/
theorem block_eq_map {base : KeySet} {data : Data} {nodes : List Node}
    (h : walkAll mode f base (base ∪ Node.listKeys nodes) data nodes =
      (walkAll mode id base (base ∪ Node.listKeys nodes) data nodes).map f) :
    block mode f base data nodes = (block mode id base data nodes).map f := by
  rw [block, block, guarded, guarded, h]
  cases (base ∪ Node.listKeys nodes).check data.keys <;> rfl

/-- **Escaping once, and at the end.** A walk puts out, on a document, the escaped text of the walk
without escaping, if the escaping leaves the literal texts as they are. -/
theorem walkAll_eq_map (hf : Piecewise f) (nodes : List Node) (base accepted : KeySet) (data : Data)
    (hliterals : ∀ text ∈ Node.listLiterals nodes, f text = text) (hdata : data.IsDocument) :
    walkAll mode f base accepted data nodes =
      (walkAll mode id base accepted data nodes).map f := by
  -- the data vary, since a loop binds its name to an element, which is part of a document again
  induction nodes using Node.listInduction generalizing base accepted data with
  | nil => exact (map_ok_empty hf).symm
  | literal text ns ih =>
    obtain ⟨hn, hns⟩ := List.forall_mem_append.1 hliterals
    have htext : f text = text := hn text (List.mem_singleton.2 rfl)
    have hwalk : walk mode f base accepted data (.literal text) =
        (walk mode id base accepted data (.literal text)).map f := congrArg Except.ok htext.symm
    rw [walkAll_cons, walkAll_cons, map_followedBy hf, hwalk, ih _ _ _ hns hdata]
  | placeholder key default ns ih =>
    obtain ⟨_, hns⟩ := List.forall_mem_append.1 hliterals
    have hwalk : walk mode f base accepted data (.placeholder key default) =
        (walk mode id base accepted data (.placeholder key default)).map f :=
      place_eq_map hdata key default
    rw [walkAll_cons, walkAll_cons, map_followedBy hf, hwalk, ih _ _ _ hns hdata]
  | conditional key whenTrue ns iht ih =>
    obtain ⟨hn, hns⟩ := List.forall_mem_append.1 hliterals
    have ht := block_eq_map (iht (branchBase mode base accepted key) _ data hn hdata)
    have hwalk : walk mode f base accepted data (.conditional key whenTrue none) =
        (walk mode id base accepted data (.conditional key whenTrue none)).map f := by
      rw [walk_conditional, walk_conditional, ht, apply_ite (Except.map f), map_ok_empty hf]
    rw [walkAll_cons, walkAll_cons, map_followedBy hf, hwalk, ih _ _ _ hns hdata]
  | alternative key whenTrue whenFalse ns iht ihf ih =>
    obtain ⟨hn, hns⟩ := List.forall_mem_append.1 hliterals
    obtain ⟨hnt, hnf⟩ := List.forall_mem_append.1 hn
    have ht := block_eq_map (iht (branchBase mode base accepted key) _ data hnt hdata)
    have hf' := block_eq_map (ihf (branchBase mode base accepted key) _ data hnf hdata)
    have hwalk : walk mode f base accepted data (.conditional key whenTrue (some whenFalse)) =
        (walk mode id base accepted data (.conditional key whenTrue (some whenFalse))).map f := by
      rw [walk_alternative, walk_alternative, ht, hf', apply_ite (Except.map f)]
    rw [walkAll_cons, walkAll_cons, map_followedBy hf, hwalk, ih _ _ _ hns hdata]
  | iteration name collection body ns ihb ih =>
    obtain ⟨hn, hns⟩ := List.forall_mem_append.1 hliterals
    have hwalk : walk mode f base accepted data (.iteration name collection body) =
        (walk mode id base accepted data (.iteration name collection body)).map f := by
      rw [walk_iteration, walk_iteration]
      cases hitems : (Scope.root data).collection collection with
      | error e => rfl
      | ok items =>
        refine map_concatMapText hf fun v hv => block_eq_map (ihb _ _ _ hn ?_)
        exact hdata.insert name (isDocument_of_collection hdata hitems v hv)
    rw [walkAll_cons, walkAll_cons, map_followedBy hf, hwalk, ih _ _ _ hns hdata]

end Walks

end Copying

/-! ## The main statement -/

/-- **Every text is escaped once.** A tree within the ceiling, whose literal texts hold none of the
five characters with a meaning in HTML, is compiled, with any validation. On a document, which holds
neither safe text nor a template, the HTML rendering and the plain one end with the same error, or
the HTML output is the plain one escaped as a whole. So no character of the HTML output has its
meaning, whatever the text came from. -/
theorem run_html_eq_escapeHtml_run_raw (maxDepth : Nat) (mode : KeyValidation)
    (inherited : KeySet) (nodes : List Node) (h : Node.listDepth nodes ≤ maxDepth)
    (hliterals : ∀ text ∈ Node.listLiterals nodes, ∀ c ∈ text.toList, c ∉ Entity.special) :
    ∃ b, Block.compile maxDepth mode inherited nodes = .ok b ∧
      ∀ data : Data, data.IsDocument →
        ((∃ e, b.run EscapePolicy.html.apply data = .error e ∧
            b.run EscapePolicy.raw.apply data = .error e) ∨
          ∃ out, b.run EscapePolicy.raw.apply data = .ok out ∧
            b.run EscapePolicy.html.apply data = .ok (Entity.escapeHtml out)) ∧
        ∀ out, b.run EscapePolicy.html.apply data = .ok out → Entity.Escaped out.toList := by
  refine ⟨_, Block.compile_eq_ok h mode inherited, fun data hdata => ?_⟩
  have hfixed : ∀ text ∈ Node.listLiterals nodes, Entity.escapeHtml text = text := by
    intro text htext
    rw [Entity.escapeHtml, Entity.escape_eq_self (hliterals text htext), String.ofList_toList]
  have hmap : Copying.block mode EscapePolicy.html.apply inherited data nodes =
      (Copying.block mode EscapePolicy.raw.apply inherited data nodes).map Entity.escapeHtml :=
    Copying.block_eq_map
      (Copying.walkAll_eq_map piecewise_escapeHtml nodes _ _ data hfixed hdata)
  simp only [Copying.run_ofNodes_eq_block, hmap]
  cases Copying.block mode EscapePolicy.raw.apply inherited data nodes with
  | error e =>
    refine ⟨Or.inl ⟨e, rfl, rfl⟩, fun out hout => ?_⟩
    cases hout
  | ok plain =>
    refine ⟨Or.inr ⟨plain, rfl, rfl⟩, fun out hout => ?_⟩
    obtain rfl := Except.ok.inj hout
    rw [Entity.escapeHtml, String.toList_ofList]
    exact Entity.escaped_escape plain.toList

/-- A default, an element of a loop and a key of an object in text form. -/
theorem run_html_eq_escapeHtml_run_raw_sources :
    Node.listDepth [.placeholder "x" (some "<"), .iteration "v" "vs" [.placeholder "v" none]] ≤ 1 ∧
    (∀ text ∈ Node.listLiterals [.placeholder "x" (some "<"),
      .iteration "v" "vs" [.placeholder "v" none]], ∀ c ∈ text.toList, c ∉ Entity.special) ∧
    Data.IsDocument (KeyMap.ofList [("vs", .array [.string "&", .object [("a", .null)]])]) ∧
    ∃ b, Block.compile 1 .isolated ∅ [.placeholder "x" (some "<"),
        .iteration "v" "vs" [.placeholder "v" none]] = .ok b ∧
      b.run EscapePolicy.html.apply
          (KeyMap.ofList [("vs", .array [.string "&", .object [("a", .null)]])]) =
        .ok "&lt;&amp;\x7b&quot;a&quot;:null\x7d" ∧
      Entity.Escaped "&lt;&amp;\x7b&quot;a&quot;:null\x7d".toList := by
  have hdepth : Node.listDepth [.placeholder "x" (some "<"),
      .iteration "v" "vs" [.placeholder "v" none]] ≤ 1 := by decide
  have hliterals : ∀ text ∈ Node.listLiterals [.placeholder "x" (some "<"),
      .iteration "v" "vs" [.placeholder "v" none]], ∀ c ∈ text.toList, c ∉ Entity.special := by
    decide
  have hdata : Data.IsDocument
      (KeyMap.ofList [("vs", .array [.string "&", .object [("a", .null)]])]) :=
    Data.isDocument_empty.insert "vs" rfl
  refine ⟨hdepth, hliterals, hdata, ?_⟩
  obtain ⟨b, hb, hrun⟩ :=
    run_html_eq_escapeHtml_run_raw 1 .isolated ∅ _ hdepth hliterals
  obtain rfl := Except.ok.inj ((Block.compile_eq_ok hdepth .isolated ∅).symm.trans hb)
  obtain ⟨hboth, hescaped⟩ := hrun _ hdata
  have hraw : Block.run (Block.ofNodes .isolated ∅ ∅ [.placeholder "x" (some "<"),
      .iteration "v" "vs" [.placeholder "v" none]]) EscapePolicy.raw.apply
      (KeyMap.ofList [("vs", .array [.string "&", .object [("a", .null)]])]) =
        .ok "<&\x7b\"a\":null\x7d" := by rfl
  rcases hboth with ⟨e, _, herror⟩ | ⟨plain, hplain, hhtml⟩
  · rw [hraw] at herror
    cases herror
  · obtain rfl := Except.ok.inj (hraw.symm.trans hplain)
    exact ⟨_, hb, hhtml, hescaped _ hhtml⟩

end Stencil
