import Stencil.Proofs.Dependence

/-!
# Parts rendered in advance

A part of a template may be rendered in advance, with what it reads of the data, and its text put
into the rest as safe text. Main statement: the text of the whole stays the same
(`run_inlined_eq_ok_iff`).
-/

namespace Stencil

/-! ## Less data -/

/-- Data agree with what is left of them on the keys that are left. -/
theorem agreeOn_restrict (s : KeySet) (d : Data) : AgreeOn s (d.restrict s) d := by
  intro k hk
  rw [KeyMap.get?_restrict, if_pos hk]

/-- Data agree with what is left of them, and a key that is put in, on any keys that are left and
are not that key. -/
theorem agreeOn_insert_restrict {s t : KeySet} {key : String} (hst : s ⊆ t) (hkey : key ∉ s)
    (d : Data) (v : Value) : AgreeOn s ((d.restrict t).insert key v) d := by
  intro k hk
  rw [agreeOn_insert hkey (d.restrict t) v k hk]
  exact (agreeOn_restrict t d).mono hst k hk

namespace Copying

section Parts

variable {escape : String → String} {inherited base accepted : KeySet}

/-- A template goes on to its nodes if it accepts all keys of the data. -/
theorem block_eq_walkAll {mode : KeyValidation} {data : Data} {nodes : List Node}
    (h : ∀ k ∈ data.keys, k ∈ base ∪ Node.listKeys nodes) :
    block mode escape base data nodes =
      walkAll mode escape base (base ∪ Node.listKeys nodes) data nodes := by
  rw [block, guarded, (KeySet.check_eq_ok_iff _ _).2 h]
  rfl

/-- A placeholder puts safe text out as it is. -/
theorem walkAll_placeholder_safe {data : Data} {key text : String}
    (h : data.get? key = some (.safe text)) :
    walkAll .inherited escape base accepted data [.placeholder key none] = .ok text := by
  have hplace : place escape data key none = .ok text := by
    unfold place
    rw [h]
    rfl
  rw [walkAll_cons, walkAll, walk, hplace, followedBy_ok_empty]

/-! ## The part and the rest -/

variable (inherited base) {data : Data} (haccepted : ∀ k ∈ data.keys, k ∈ accepted)

include haccepted

/-- A part does with what it reads of the data what it does inside a block that accepts all of
them. -/
theorem block_part_eq_walkAll (part : List Node) :
    block .inherited escape inherited (data.restrict (Node.listKeys part)) part =
      walkAll .inherited escape base accepted data part := by
  have hkeys : ∀ k ∈ (data.restrict (Node.listKeys part)).keys,
      k ∈ inherited ∪ Node.listKeys part := by
    intro k hk
    exact KeySet.subset_union_right inherited _ k (KeyMap.mem_keys_restrict.1 hk).1
  rw [block_eq_walkAll hkeys]
  exact walkAll_congr part (.allAccepted rfl hkeys haccepted) (agreeOn_restrict _ data)

/-- The rest does around the safe text of the part what it does inside a block that accepts all of
the data. -/
theorem block_rest_eq_walkAll {before after : List Node} {key : String}
    (hbefore : key ∉ Node.listKeys before) (hafter : key ∉ Node.listKeys after) (text : String) :
    block .inherited escape inherited
        ((data.restrict (Node.listKeys (before ++ after))).insert key (.safe text))
        (before ++ [.placeholder key none] ++ after) =
      followedBy
        (followedBy (walkAll .inherited escape base accepted data before) (.ok text))
        (walkAll .inherited escape base accepted data after) := by
  have hkeys : ∀ k ∈ ((data.restrict (Node.listKeys (before ++ after))).insert key
        (.safe text)).keys,
      k ∈ inherited ∪ Node.listKeys (before ++ [.placeholder key none] ++ after) := by
    intro k hk
    refine KeySet.subset_union_right inherited _ k ?_
    rw [Node.mem_listKeys_append, Node.mem_listKeys_append]
    rcases KeyMap.mem_keys_insert.1 hk with rfl | hk
    · exact Or.inl (Or.inr (Node.keys_subset_listKeys _ [] k (Node.mem_keys_placeholder.2 rfl)))
    · have hread := Node.mem_listKeys_append.1 (KeyMap.mem_keys_restrict.1 hk).1
      exact hread.imp_left Or.inl
  have hreadb : Node.listKeys before ⊆ Node.listKeys (before ++ after) :=
    fun k hk => Node.mem_listKeys_append.2 (Or.inl hk)
  have hreada : Node.listKeys after ⊆ Node.listKeys (before ++ after) :=
    fun k hk => Node.mem_listKeys_append.2 (Or.inr hk)
  rw [block_eq_walkAll hkeys, walkAll_append, walkAll_append,
    walkAll_congr before (.allAccepted rfl hkeys haccepted)
      (agreeOn_insert_restrict hreadb hbefore data _),
    walkAll_congr after (.allAccepted rfl hkeys haccepted)
      (agreeOn_insert_restrict hreada hafter data _),
    walkAll_placeholder_safe (by rw [KeyMap.get?_insert, if_pos rfl])]

end Parts

end Copying

/-! ## The main statement -/

/-- **A part may be rendered in advance.** Three lists of nodes within the ceiling, and a key that
neither the first nor the last one reads. The three in a row put a text out exactly if the one in
the middle puts a text out, with what it reads of the data, and the other two put that same text out
around a placeholder of the key, with what they read of the data and the text of the middle under
the key as safe text. -/
theorem run_inlined_eq_ok_iff (maxDepth : Nat) (inherited : KeySet) (before part after : List Node)
    (key : String) (hbefore : Node.listDepth before ≤ maxDepth)
    (hpart : Node.listDepth part ≤ maxDepth) (hafter : Node.listDepth after ≤ maxDepth)
    (hkeyb : key ∉ Node.listKeys before) (hkeya : key ∉ Node.listKeys after) :
    ∃ whole middle rest,
      Block.compile maxDepth .inherited inherited (before ++ part ++ after) = .ok whole ∧
      Block.compile maxDepth .inherited inherited part = .ok middle ∧
      Block.compile maxDepth .inherited inherited (before ++ [.placeholder key none] ++ after) =
        .ok rest ∧
      ∀ (escape : String → String) (data : Data),
        (∀ k ∈ data.keys, k ∈ Node.listKeys (before ++ part ++ after)) →
        ∀ out, whole.run escape data = .ok out ↔
          ∃ text, middle.run escape (data.restrict (Node.listKeys part)) = .ok text ∧
            rest.run escape ((data.restrict (Node.listKeys (before ++ after))).insert key
              (.safe text)) = .ok out := by
  have hwhole : Node.listDepth (before ++ part ++ after) ≤ maxDepth := by
    simp only [Node.listDepth_append]
    omega
  have hrest : Node.listDepth (before ++ [.placeholder key none] ++ after) ≤ maxDepth := by
    simp only [Node.listDepth_append, Node.listDepth, Node.depth]
    omega
  refine ⟨_, _, _, Block.compile_eq_ok hwhole .inherited inherited,
    Block.compile_eq_ok hpart .inherited inherited,
    Block.compile_eq_ok hrest .inherited inherited, ?_⟩
  intro escape data hkeys out
  simp only [Copying.run_ofNodes_eq_block]
  -- the part and the rest are walked as they are inside the whole, which accepts all of the data
  have hall : ∀ k ∈ data.keys, k ∈ inherited ∪ Node.listKeys (before ++ part ++ after) :=
    fun k hk => KeySet.subset_union_right inherited _ k (hkeys k hk)
  rw [Copying.block_eq_walkAll hall, Copying.walkAll_append, Copying.walkAll_append,
    Copying.block_part_eq_walkAll inherited inherited hall part]
  simp only [Copying.block_rest_eq_walkAll inherited inherited hall hkeyb hkeya]
  constructor
  · intro h
    obtain ⟨_, _, hfirst, _, _⟩ := Copying.followedBy_eq_ok_iff.1 h
    obtain ⟨_, text, _, htext, _⟩ := Copying.followedBy_eq_ok_iff.1 hfirst
    refine ⟨text, htext, ?_⟩
    rw [← htext]
    exact h
  · rintro ⟨text, htext, h⟩
    rw [htext]
    exact h

/-- The part reads the very key under which its text is put into the rest, and a loop of the rest
binds it. The text of the part is not escaped again. -/
theorem run_inlined_eq_ok_iff_shared_key :
    Node.listDepth [.iteration "k" "xs" [.placeholder "k" none]] ≤ 1 ∧
    Node.listDepth [.placeholder "k" none] ≤ 1 ∧ Node.listDepth [.placeholder "x" none] ≤ 1 ∧
    "k" ∉ Node.listKeys [.iteration "k" "xs" [.placeholder "k" none]] ∧
    "k" ∉ Node.listKeys [.placeholder "x" none] ∧
    ∃ middle rest,
      Block.compile 1 .inherited ∅ [.placeholder "k" none] = .ok middle ∧
      Block.compile 1 .inherited ∅ [.iteration "k" "xs" [.placeholder "k" none],
        .placeholder "k" none, .placeholder "x" none] = .ok rest ∧
      middle.run EscapePolicy.html.apply (KeyMap.ofList [("k", .string "<")]) = .ok "&lt;" ∧
      rest.run EscapePolicy.html.apply (KeyMap.ofList [("xs", .array [.bool true]),
        ("k", .safe "&lt;"), ("x", .string "&")]) = .ok "true&lt;&amp;" := by
  have hbefore : Node.listDepth [.iteration "k" "xs" [.placeholder "k" none]] ≤ 1 := by decide
  have hpart : Node.listDepth [.placeholder "k" none] ≤ 1 := by decide
  have hafter : Node.listDepth [.placeholder "x" none] ≤ 1 := by decide
  have hkeyb : "k" ∉ Node.listKeys [.iteration "k" "xs" [.placeholder "k" none]] := by decide
  have hkeya : "k" ∉ Node.listKeys [.placeholder "x" none] := by decide
  refine ⟨hbefore, hpart, hafter, hkeyb, hkeya, ?_⟩
  obtain ⟨whole, middle, rest, hwhole, hmiddle, hrest, hrun⟩ :=
    run_inlined_eq_ok_iff 1 ∅ _ _ _ "k" hbefore hpart hafter hkeyb hkeya
  obtain rfl := Except.ok.inj ((Block.compile_eq_ok (by decide) .inherited ∅).symm.trans hwhole)
  obtain ⟨text, htext, hout⟩ := (hrun EscapePolicy.html.apply
    (KeyMap.ofList [("xs", .array [.bool true]), ("k", .string "<"), ("x", .string "&")])
    (by decide) "true&lt;&amp;").1 (by rfl)
  obtain rfl := Except.ok.inj ((Block.compile_eq_ok hpart .inherited ∅).symm.trans hmiddle)
  obtain rfl : "&lt;" = text := Except.ok.inj htext
  exact ⟨_, rest, hmiddle, hrest, htext, hout⟩

end Stencil
