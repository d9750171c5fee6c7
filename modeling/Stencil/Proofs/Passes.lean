import Mathlib.Data.List.Basic
import Stencil.Text.Entity

/-!
# Escaping in passes

Escaping goes through a text once. Here it is compared with five passes in a row, each of which
replaces one character in the whole of what the pass before left. A pass may find characters that an
earlier pass put in; it finds none if no entity of an earlier character holds a later one, and then
the passes do what a single one does (`toList_inPasses`). All entities start with an ampersand and
hold no other character with a meaning, so ampersands have to come first, and the order of the
others is free. Main statements: passes escape every string exactly if they start with the ampersands
(`forall_inPasses_eq_escapeHtml_iff`); escaping is the five passes, works on two strings in a row one
after the other, and is undone by reading the entities (`escapeHtml_sequential_lossless`).
-/

namespace Stencil.Text.Entity

open String.Slice (Pos)
open String.Slice.Pattern (SearchStep ToForwardSearcher)
open String.Slice.Pattern.Model

/-! ## A single pass -/

/-- The text with each occurrence of a character replaced. -/
def replaceChar (c : Char) (text cs : List Char) : List Char :=
  cs.flatMap fun x => if x = c then text else [x]

/-- The first character of a text is replaced, or kept, before the others. -/
theorem replaceChar_cons (c : Char) (text : List Char) (x : Char) (cs : List Char) :
    replaceChar c text (x :: cs) = (if x = c then text else [x]) ++ replaceChar c text cs :=
  List.flatMap_cons

/-- Replacing characters that do not occur changes nothing. -/
theorem flatMap_ite_of_forall_not {p : Char → Prop} [DecidablePred p] {f : Char → List Char}
    {cs : List Char} (h : ∀ x ∈ cs, ¬p x) : (cs.flatMap fun x => if p x then f x else [x]) = cs := by
  have hself : ∀ x ∈ cs, (if p x then f x else [x]) = [x] := fun x hx => if_neg (h x hx)
  rw [List.flatMap_congr hself, List.flatMap_singleton']

/-- A text without the character stays as it is. -/
theorem replaceChar_of_notMem {c : Char} {text cs : List Char} (h : c ∉ cs) :
    replaceChar c text cs = cs :=
  flatMap_ite_of_forall_not fun _ hx heq => h (heq ▸ hx)

/-- The character is replaced in two texts in a row one after the other. -/
theorem replaceChar_append (c : Char) (text as bs : List Char) :
    replaceChar c text (as ++ bs) = replaceChar c text as ++ replaceChar c text bs :=
  List.flatMap_append

/-- A part of a string in which a search finds a character nowhere does not hold it. -/
theorem notMem_of_not_matchesAt {s : String.Slice} {c : Char} {start stop : s.Pos}
    (hle : start ≤ stop) (h : ∀ pos, start ≤ pos → pos < stop → ¬MatchesAt c pos) :
    c ∉ (s.slice start stop hle).copy.toList := by
  intro hmem
  obtain ⟨pos, hne, hget⟩ := String.Slice.mem_toList_copy_iff_exists_get.1 hmem
  have hlt : Pos.ofSlice pos < stop := by
    simpa [← Pos.lt_endPos_iff, ← Pos.ofSlice_lt_ofSlice_iff] using hne
  rw [Pos.get_eq_get_ofSlice] at hget
  exact h _ Pos.le_ofSlice hlt (Char.matchesAt_iff.2 ⟨_, hget⟩)

/-- What is put out for one step of a search: the new text for a match, and what was passed over as
it is. -/
def putStep (text : String) {s : String.Slice} (sofar : String) : SearchStep s → String
  | .matched _ _ => sofar ++ text.toSlice
  | .rejected start stop => sofar ++ s.slice! start stop

/-- The steps of a search for a character put out what stands behind the place where it starts, with
the character replaced. -/
theorem toList_foldl_putStep (text : String) {s : String.Slice} {c : Char} {pos : s.Pos}
    {steps : List (SearchStep s)} (h : IsValidSearchFrom c pos steps) (sofar : String)
    {before after : String} (hpos : pos.Splits before after) :
    (steps.foldl (putStep text) sofar).toList =
      sofar.toList ++ replaceChar c text.toList after.toList := by
  induction h generalizing sofar before after with
  | endPos =>
    obtain ⟨_, rfl⟩ := String.Slice.splits_endPos_iff.1 hpos
    simp [replaceChar]
  | matched hmatch _ ih =>
    obtain ⟨hne, rfl, hget⟩ := Char.isLongestMatchAt_iff.1 hmatch
    obtain ⟨after, rfl⟩ := hpos.exists_eq_singleton_append hne
    rw [List.foldl_cons, ih _ hpos.next]
    simp [putStep, replaceChar_cons, hget]
  | @mismatched _ start stop hlt hno _ ih =>
    have hle : start ≤ stop := Std.le_of_lt hlt
    obtain ⟨_, rest, hstart, hstop⟩ := String.Slice.copy_slice_eq_iff_splits.1 ⟨hle, rfl⟩
    obtain ⟨rfl, rfl⟩ := hpos.eq hstart
    have hpart : replaceChar c text.toList (s.slice start stop hle).copy.toList =
        (s.slice start stop hle).copy.toList :=
      replaceChar_of_notMem (notMem_of_not_matchesAt hle hno)
    rw [List.foldl_cons, ih _ hstop, putStep, ← String.Slice.slice_eq_slice! (h := hle)]
    simp [replaceChar_append, hpart]

/-- Replacing in a string goes through the steps of the search for the character. -/
theorem replace_eq_foldl (s : String) (c : Char) (text : String) :
    s.replace c text =
      (ToForwardSearcher.toSearcher c s.toSlice).toList.foldl (putStep text) "" := by
  rw [String.replace, String.Slice.replace, ← Std.Iter.foldl_toList]
  congr 1
  funext sofar step
  cases step with
  | matched start stop => rfl
  | rejected start stop => rfl

/-- A character is replaced in a string as in the list of its characters. -/
theorem toList_replace (s : String) (c : Char) (text : String) :
    (s.replace c text).toList = replaceChar c text.toList s.toList := by
  rw [replace_eq_foldl]
  have hsearch : IsValidSearchFrom c s.toSlice.startPos
      (ToForwardSearcher.toSearcher c s.toSlice).toList :=
    LawfulToForwardSearcherModel.isValidSearchFrom_toList s.toSlice
  rw [toList_foldl_putStep text hsearch "" (String.Slice.splits_startPos _)]
  simp

/-! ## Passes one after the other -/

/-- The string after one pass for each character of the order, which replaces that character by what
stands for it. -/
def inPasses (order : List Char) (s : String) : String :=
  order.foldl (fun s c => s.replace c (String.ofList (entity c))) s

/-- The first pass comes before the others. -/
theorem inPasses_cons (c : Char) (order : List Char) (s : String) :
    inPasses (c :: order) s = inPasses order (s.replace c (String.ofList (entity c))) := rfl

/-- A pass does to a string what it does to the list of its characters. -/
theorem toList_replace_entity (s : String) (c : Char) :
    (s.replace c (String.ofList (entity c))).toList = replaceChar c (entity c) s.toList := by
  rw [toList_replace, String.toList_ofList]

/-- Passes in a row replace each character on its own, if no later pass is for a character in what
an earlier one puts in. -/
theorem toList_inPasses {order : List Char} (h : order.Pairwise fun c d => d ∉ entity c)
    (s : String) :
    (inPasses order s).toList = s.toList.flatMap fun x => if x ∈ order then entity x else [x] := by
  induction order generalizing s with
  | nil => simp [inPasses]
  | cons c order ih =>
    obtain ⟨hc, horder⟩ := List.pairwise_cons.1 h
    rw [inPasses_cons, ih horder, toList_replace_entity, replaceChar, List.flatMap_assoc]
    refine List.flatMap_congr fun x _ => ?_
    by_cases hx : x = c
    · -- the later passes leave alone what this one puts in
      have hlater : ∀ y ∈ entity c, y ∉ order := fun y hy hmem => hc y hmem hy
      rw [if_pos hx, if_pos (List.mem_cons.2 (Or.inl hx)), flatMap_ite_of_forall_not hlater, hx]
    · rw [if_neg hx, List.flatMap_singleton]
      simp [hx]

/-- Passes for ampersands first and then for the other four characters, in any order and as often as
one likes, escape the string. -/
theorem inPasses_ampersand_first {order : List Char}
    (h : ∀ c, c ∈ order ↔ c ∈ ['<', '>', '"', '\x27']) (s : String) :
    inPasses ('&' :: order) s = escapeHtml s := by
  have hlater : ∀ c, ∀ d ∈ order, d ∉ entity c :=
    fun c d hd hmem => notMem_of_mem_entity c d hmem ((h d).1 hd)
  have hpairwise : ('&' :: order).Pairwise fun c d => d ∉ entity c :=
    List.pairwise_cons.2 ⟨hlater '&', List.pairwise_of_forall_mem_list fun c _ d hd => hlater c d hd⟩
  apply String.toList_injective
  rw [toList_inPasses hpairwise, escapeHtml, String.toList_ofList, escape]
  refine List.flatMap_congr fun c _ => ?_
  by_cases hc : c ∈ '&' :: order
  · rw [if_pos hc]
  · have hspecial : c ∉ special := by
      rw [List.mem_cons, h] at hc
      exact fun hmem => hc (List.mem_cons.1 hmem)
    rw [if_neg hc, entity_eq_self hspecial]

/-! ## Ampersands have to come first -/

/-- No pass takes the ampersands of a text away. -/
theorem ampersand_mem_replaceChar {cs : List Char} (h : '&' ∈ cs) (c : Char) :
    '&' ∈ replaceChar c (entity c) cs := by
  refine List.mem_flatMap.2 ⟨'&', h, ?_⟩
  by_cases hc : '&' = c
  · rw [if_pos hc, ← hc]
    exact ampersand_mem_entity List.mem_cons_self
  · rw [if_neg hc]
    exact List.mem_singleton.2 rfl

/-- No pass makes a text shorter. -/
theorem length_le_length_replaceChar (c : Char) (cs : List Char) :
    cs.length ≤ (replaceChar c (entity c) cs).length := by
  induction cs with
  | nil => exact Nat.le_refl 0
  | cons x cs ih =>
    have hfirst : 0 < (if x = c then entity c else [x]).length := by
      split
      · exact List.length_pos_iff.2 (entity_ne_nil c)
      · exact Nat.one_pos
    rw [replaceChar_cons, List.length_append, List.length_cons]
    omega

/-- A pass for ampersands makes a text with one longer. -/
theorem length_lt_length_replaceChar {cs : List Char} (h : '&' ∈ cs) :
    cs.length < (replaceChar '&' (entity '&') cs).length := by
  obtain ⟨as, bs, rfl⟩ := List.append_of_mem h
  have has := length_le_length_replaceChar '&' as
  have hbs := length_le_length_replaceChar '&' bs
  have hamp : (entity '&').length = 5 := rfl
  rw [replaceChar_append, replaceChar_cons, if_pos rfl]
  simp only [List.length_append, List.length_cons, hamp]
  omega

/-- Passes in a row do not make a text shorter. -/
theorem length_le_length_inPasses (order : List Char) (s : String) :
    s.toList.length ≤ (inPasses order s).toList.length := by
  induction order generalizing s with
  | nil => exact Nat.le_refl _
  | cons c order ih =>
    have hfirst := length_le_length_replaceChar c s.toList
    rw [← toList_replace_entity] at hfirst
    exact Nat.le_trans hfirst (ih _)

/-- Passes in a row, one of them for ampersands, make a text with an ampersand longer. -/
theorem length_lt_length_inPasses {order : List Char} (horder : '&' ∈ order) {s : String}
    (hs : '&' ∈ s.toList) : s.toList.length < (inPasses order s).toList.length := by
  -- the ampersand is still there when its pass comes
  induction order generalizing s with
  | nil => cases horder
  | cons c order ih =>
    rw [inPasses_cons]
    by_cases hc : '&' = c
    · subst hc
      have hfirst := length_lt_length_replaceChar hs
      rw [← toList_replace_entity] at hfirst
      exact Nat.lt_of_lt_of_le hfirst (length_le_length_inPasses order _)
    · have hfirst := length_le_length_replaceChar c s.toList
      have hmem := ampersand_mem_replaceChar hs c
      rw [← toList_replace_entity] at hfirst hmem
      exact Nat.lt_of_le_of_lt hfirst (ih ((List.mem_cons.1 horder).resolve_left hc) hmem)

/-- **Ampersands first, and the rest in any order.** One pass for each of the five characters escapes
every string exactly if the pass for ampersands is the first one. -/
theorem forall_inPasses_eq_escapeHtml_iff {order : List Char} (h : order.Perm special) :
    (∀ s, inPasses order s = escapeHtml s) ↔ order.head? = some '&' := by
  cases order with
  | nil => exact absurd h.length_eq (by decide)
  | cons c order =>
    rw [List.head?_cons, Option.some_inj]
    constructor
    · intro hpasses
      by_contra hc
      -- the entity of `c` is left by the first pass, and its ampersand is replaced by a later one
      have hamp : '&' ∈ order :=
        (List.mem_cons.1 (h.mem_iff.2 List.mem_cons_self)).resolve_left (Ne.symm hc)
      have hfirst : (String.ofList [c]).replace c (String.ofList (entity c)) =
          String.ofList (entity c) := by
        apply String.toList_injective
        rw [toList_replace_entity, String.toList_ofList, String.toList_ofList]
        simp [replaceChar]
      have hentity : '&' ∈ (String.ofList (entity c)).toList := by
        rw [String.toList_ofList]
        exact ampersand_mem_entity (h.mem_iff.1 List.mem_cons_self)
      have hlength := length_lt_length_inPasses hamp hentity
      rw [← hfirst, ← inPasses_cons, hpasses, hfirst] at hlength
      simp [escapeHtml] at hlength
    · rintro rfl
      have horder : order.Perm ['<', '>', '"', '\x27'] := h.cons_inv
      exact inPasses_ampersand_first fun c => horder.mem_iff

/-! ## The main statement -/

/-- **Five passes, and nothing is lost.** Escaping a string is replacing all ampersands in it, then
in the result all less-than signs, then greater-than signs, double quotes and single quotes. Two
strings in a row are escaped one after the other. Reading the entities of an escaped string from left
to right gives the string back, whatever looked like an entity in it, so two strings that are escaped
alike are equal. -/
theorem escapeHtml_sequential_lossless :
    (∀ s : String, escapeHtml s =
      ((((s.replace '&' "&amp;").replace '<' "&lt;").replace '>' "&gt;").replace
        '"' "&quot;").replace '\x27' "&#39;") ∧
    (∀ a b : String, escapeHtml (a ++ b) = escapeHtml a ++ escapeHtml b) ∧
    (∀ s : String, unescapeHtml (escapeHtml s) = s) ∧
    Function.Injective escapeHtml := by
  refine ⟨fun s => ?_, escapeHtml_append, unescapeHtml_escapeHtml, ?_⟩
  · exact (inPasses_ampersand_first (fun _ => Iff.rfl) s).symm
  · exact Function.LeftInverse.injective unescapeHtml_escapeHtml

/-- An entity in the text is escaped like any other text. -/
example : escapeHtml "&lt;" = "&amp;lt;" := by decide

end Stencil.Text.Entity
