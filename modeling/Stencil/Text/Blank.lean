/-!
# Blank characters

The characters that may stand around a name inside a directive: the twenty-five characters of the
Unicode property `White_Space`; and cutting a text at a mark. Main statements: a cut loses nothing
but its mark (`eq_of_cutAt`), which is the first one (`not_mem_of_cutAt`), and what stands between
two trimmed texts is kept when the whole is trimmed (`trimChars_between`).
-/

namespace Stencil.Text

/-! ## The property -/

/-- The characters of the Unicode property `White_Space`. -/
def isBlank (c : Char) : Bool :=
  let n := c.toNat
  (9 ≤ n && n ≤ 13) || n == 0x20 || n == 0x85 || n == 0xA0 || n == 0x1680 ||
    (0x2000 ≤ n && n ≤ 0x200A) || n == 0x2028 || n == 0x2029 || n == 0x202F || n == 0x205F ||
    n == 0x3000

/-! ## Trimming -/

/-- The text without the blanks at its end. -/
def trimEnd (cs : List Char) : List Char :=
  (cs.reverse.dropWhile isBlank).reverse

/-- The text without the blanks at either end. -/
def trimChars (cs : List Char) : List Char :=
  trimEnd (cs.dropWhile isBlank)

/-- The string without the blanks at either end. -/
def trim (s : String) : String :=
  String.ofList (trimChars s.toList)

/-- A trimmed text does not start with a blank. -/
theorem dropWhile_eq_of_trimChars_eq {cs : List Char} (h : trimChars cs = cs) :
    cs.dropWhile isBlank = cs := by
  have hshort : (trimChars cs).length ≤ (cs.dropWhile isBlank).length := by
    rw [trimChars, trimEnd, List.length_reverse]
    exact Nat.le_trans (List.dropWhile_suffix isBlank).length_le (Nat.le_of_eq List.length_reverse)
  rw [h] at hshort
  exact (List.dropWhile_suffix isBlank).eq_of_length_le hshort

/-- A trimmed text does not end with a blank. -/
theorem trimEnd_eq_of_trimChars_eq {cs : List Char} (h : trimChars cs = cs) : trimEnd cs = cs := by
  have htrim : trimChars cs = trimEnd cs := by rw [trimChars, dropWhile_eq_of_trimChars_eq h]
  rw [← htrim, h]

/-- Behind a text that does not start with a blank nothing is dropped. -/
theorem dropWhile_append_of_ne_nil {as : List Char} (bs : List Char) (hne : as ≠ [])
    (h : as.dropWhile isBlank = as) : (as ++ bs).dropWhile isBlank = as ++ bs := by
  rw [List.dropWhile_append, h]
  simp [hne]

/-- What stands between two trimmed texts is kept when the whole is trimmed. -/
theorem trimChars_between {as bs : List Char} (middle : List Char) (ha : trimChars as = as)
    (hb : trimChars bs = bs) (hane : as ≠ []) (hbne : bs ≠ []) :
    trimChars (as ++ middle ++ bs) = as ++ middle ++ bs := by
  have hstart := dropWhile_eq_of_trimChars_eq ha
  have hend := congrArg List.reverse (trimEnd_eq_of_trimChars_eq hb)
  rw [trimEnd, List.reverse_reverse] at hend
  rw [trimChars, List.append_assoc, dropWhile_append_of_ne_nil _ hane hstart, trimEnd,
    ← List.append_assoc, List.reverse_append,
    dropWhile_append_of_ne_nil _ (by simpa using hbne) hend, ← List.reverse_append,
    List.reverse_reverse]

/-! ## Cutting -/

/-- Cuts a text at the first occurrence of a character, which is dropped; none if it does not
occur. -/
def cutAt (mark : Char) : List Char → Option (List Char × List Char)
  | [] => none
  | c :: cs =>
    if c = mark then some ([], cs)
    else (cutAt mark cs).map fun (before, after) => (c :: before, after)

/-- A cut loses nothing but the mark. -/
theorem eq_of_cutAt (mark : Char) (cs before after : List Char)
    (h : cutAt mark cs = some (before, after)) : cs = before ++ mark :: after := by
  induction cs generalizing before with
  | nil => simp [cutAt] at h
  | cons c cs ih =>
    by_cases hc : c = mark
    · simp [cutAt, hc] at h
      obtain ⟨rfl, rfl⟩ := h
      simp [hc]
    · simp [cutAt, hc] at h
      obtain ⟨b, hb, rfl⟩ := h
      simp [← ih b hb]

/-- A text is cut at the first mark in it. -/
theorem cutAt_append {mark : Char} {before : List Char} (after : List Char) (h : mark ∉ before) :
    cutAt mark (before ++ mark :: after) = some (before, after) := by
  induction before with
  | nil => rw [List.nil_append, cutAt, if_pos rfl]
  | cons c cs ih =>
    simp only [List.mem_cons, not_or] at h
    rw [List.cons_append, cutAt, if_neg (Ne.symm h.1), ih h.2]
    rfl

/-- The part before a cut does not hold the mark. -/
theorem not_mem_of_cutAt {mark : Char} {cs before after : List Char}
    (h : cutAt mark cs = some (before, after)) : mark ∉ before := by
  induction cs generalizing before with
  | nil => simp [cutAt] at h
  | cons c cs ih =>
    rw [cutAt] at h
    split at h
    · simp only [Option.some.injEq, Prod.mk.injEq] at h
      simp [← h.1]
    · next hc =>
      obtain ⟨⟨b, a⟩, hb, he⟩ := Option.map_eq_some_iff.1 h
      simp only [Prod.mk.injEq] at he
      obtain ⟨rfl, rfl⟩ := he
      simp only [List.mem_cons, not_or]
      exact ⟨Ne.symm hc, ih hb⟩

/-- A text without the mark is not cut. -/
theorem cutAt_eq_none_iff (mark : Char) (cs : List Char) : cutAt mark cs = none ↔ mark ∉ cs := by
  constructor
  · intro h hmem
    obtain ⟨before, after, rfl, hbefore⟩ := List.eq_append_cons_of_mem hmem
    rw [cutAt_append after hbefore] at h
    cases h
  · intro h
    cases hcut : cutAt mark cs with
    | none => rfl
    | some p =>
      obtain ⟨before, after⟩ := p
      rw [eq_of_cutAt mark cs before after hcut] at h
      simp at h

/-- Two texts with a mark each are the same only if they are the same before and after the first
one. -/
theorem append_mark_inj {mark : Char} {before before' after after' : List Char}
    (h : before ++ mark :: after = before' ++ mark :: after') (hb : mark ∉ before)
    (hb' : mark ∉ before') : before = before' ∧ after = after' := by
  have hcut := cutAt_append after hb
  rw [h, cutAt_append after' hb'] at hcut
  simp only [Option.some.injEq, Prod.mk.injEq] at hcut
  exact ⟨hcut.1.symm, hcut.2.symm⟩

end Stencil.Text
