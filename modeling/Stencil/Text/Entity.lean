/-!
# HTML entities

The five characters with a meaning in HTML text and attributes, and the entities that stand for
them. Main statements: escaping works character by character (`escape_append`), reading the entities
back gives the text that was escaped (`unescape_escape`), no character of an escaped text has its
meaning (`escaped_escape`), and the texts of which this is true are those that escaping gives, so
that reading and escaping undo each other on them (`exists_escape_eq_iff`, `escape_unescape`).
-/

namespace Stencil.Text.Entity

/-- The characters with a meaning in HTML. -/
def special : List Char := ['&', '<', '>', '"', '\x27']

/-- The text that stands for a character in HTML. -/
def entity : Char → List Char
  | '&' => ['&', 'a', 'm', 'p', ';']
  | '<' => ['&', 'l', 't', ';']
  | '>' => ['&', 'g', 't', ';']
  | '"' => ['&', 'q', 'u', 'o', 't', ';']
  | '\x27' => ['&', '#', '3', '9', ';']
  | c => [c]

/-- The text with each of the five characters replaced by its entity, in a single pass. -/
def escape (cs : List Char) : List Char :=
  cs.flatMap entity

/-- The text with each of the five entities replaced by its character, from left to right. -/
def unescape : List Char → List Char
  | '&' :: 'a' :: 'm' :: 'p' :: ';' :: cs => '&' :: unescape cs
  | '&' :: 'l' :: 't' :: ';' :: cs => '<' :: unescape cs
  | '&' :: 'g' :: 't' :: ';' :: cs => '>' :: unescape cs
  | '&' :: 'q' :: 'u' :: 'o' :: 't' :: ';' :: cs => '"' :: unescape cs
  | '&' :: '#' :: '3' :: '9' :: ';' :: cs => '\x27' :: unescape cs
  | c :: cs => c :: unescape cs
  | [] => []

/-- The string with each of the five characters replaced by its entity. -/
def escapeHtml (s : String) : String :=
  String.ofList (escape s.toList)

/-- The string with each of the five entities replaced by its character. -/
def unescapeHtml (s : String) : String :=
  String.ofList (unescape s.toList)

/-- The empty text stays empty. -/
@[simp] theorem escape_nil : escape [] = [] := rfl

/-- Each character is escaped on its own. -/
@[simp] theorem escape_cons (c : Char) (cs : List Char) :
    escape (c :: cs) = entity c ++ escape cs := by
  simp [escape]

/-- Two texts in a row are escaped one after the other. -/
theorem escape_append (as bs : List Char) : escape (as ++ bs) = escape as ++ escape bs := by
  simp [escape]

/-- Two strings in a row are escaped one after the other. -/
theorem escapeHtml_append (a b : String) : escapeHtml (a ++ b) = escapeHtml a ++ escapeHtml b := by
  rw [escapeHtml, String.toList_append, escape_append, String.ofList_append]
  rfl

/-- A character without a meaning stands for itself. -/
theorem entity_eq_self {c : Char} (h : c ∉ special) : entity c = [c] := by
  unfold entity
  split <;> simp_all [special]

/-- A text without any of the five characters stays as it is. -/
theorem escape_eq_self {cs : List Char} (h : ∀ c ∈ cs, c ∉ special) : escape cs = cs := by
  induction cs with
  | nil => rfl
  | cons c cs ih =>
    obtain ⟨hc, hcs⟩ := List.forall_mem_cons.1 h
    rw [escape_cons, entity_eq_self hc, ih hcs]
    rfl

/-- The first entity of a text is read back as its character. -/
theorem unescape_entity (c : Char) (cs : List Char) :
    unescape (entity c ++ cs) = c :: unescape cs := by
  unfold entity
  split <;> simp_all [unescape]

/-- Reading an escaped text gives the text back, and then goes on with what stands behind it. -/
theorem unescape_escape_append (cs rest : List Char) :
    unescape (escape cs ++ rest) = cs ++ unescape rest := by
  induction cs with
  | nil => rfl
  | cons c cs ih => rw [escape_cons, List.append_assoc, unescape_entity, ih, List.cons_append]

/-- Reading the entities of an escaped text gives the text back. -/
theorem unescape_escape (cs : List Char) : unescape (escape cs) = cs := by
  have h := unescape_escape_append cs []
  rw [List.append_nil] at h
  exact h.trans (List.append_nil cs)

/-- Reading the entities of an escaped string gives the string back. -/
theorem unescapeHtml_escapeHtml (s : String) : unescapeHtml (escapeHtml s) = s := by
  rw [unescapeHtml, escapeHtml, String.toList_ofList, unescape_escape, String.ofList_toList]

/-! ## Escaped text -/

/-- The five entities. -/
def entities : List (List Char) :=
  ["&amp;".toList, "&lt;".toList, "&gt;".toList, "&quot;".toList, "&#39;".toList]

/-- A text in which none of the five characters has its meaning: four of them do not occur, and an
ampersand only starts one of the five entities. -/
structure Escaped (cs : List Char) : Prop where
  notMem : ∀ c ∈ ['<', '>', '"', '\x27'], c ∉ cs
  starts : ∀ before after, cs = before ++ '&' :: after → ∃ e ∈ entities, e <+: '&' :: after

/-- What stands for a character holds none of the five, except for ampersands. -/
theorem notMem_of_mem_entity (c : Char) : ∀ x ∈ entity c, x ∉ ['<', '>', '"', '\x27'] := by
  unfold entity
  split <;> simp_all

/-- What stands for a character holds no ampersand behind its first character. -/
theorem ampersand_notMem_tail_entity (c : Char) : '&' ∉ (entity c).tail := by
  unfold entity
  split
  case h_6 => exact List.not_mem_nil
  all_goals decide

/-- What stands for one of the five characters has an ampersand. -/
theorem ampersand_mem_entity {c : Char} (h : c ∈ special) : '&' ∈ entity c := by
  simp only [special, List.mem_cons, List.not_mem_nil, or_false] at h
  rcases h with rfl | rfl | rfl | rfl | rfl <;> exact List.mem_cons_self

/-- An ampersand in what stands for a character is the first character of an entity. -/
theorem mem_entities_of_entity_eq {c : Char} {before after : List Char}
    (h : entity c = before ++ '&' :: after) : before = [] ∧ entity c ∈ entities := by
  have hbefore : before = [] := by
    cases before with
    | nil => rfl
    | cons b before =>
      have htail := ampersand_notMem_tail_entity c
      rw [h] at htail
      exact absurd (by simp) htail
  refine ⟨hbefore, ?_⟩
  rw [hbefore] at h
  revert h
  unfold entity
  split
  case h_6 => simp_all
  all_goals exact fun _ => by decide

/-- No character of a text that was escaped has its meaning. -/
theorem escaped_escape (cs : List Char) : Escaped (escape cs) where
  notMem c hc hmem := by
    obtain ⟨x, _, hx⟩ := List.mem_flatMap.1 hmem
    exact notMem_of_mem_entity x c hx hc
  starts := by
    induction cs with
    | nil => simp
    | cons c cs ih =>
      intro before after h
      rw [escape_cons] at h
      rcases List.append_eq_append_iff.1 h with ⟨rest, _, hrest⟩ | ⟨rest, hentity, hrest⟩
      · exact ih rest after hrest
      · cases rest with
        | nil => exact ih [] after hrest.symm
        | cons x rest =>
          -- the ampersand stands in what stands for `c`, so it is its first character
          obtain ⟨rfl, hafter⟩ := List.cons_eq_cons.1 hrest
          obtain ⟨rfl, hmem⟩ := mem_entities_of_entity_eq hentity
          refine ⟨entity c, hmem, escape cs, ?_⟩
          rw [hentity, hafter]
          rfl

/-! ## Escaped text is what escaping gives -/

/-- What stands for a character is not empty. -/
theorem entity_ne_nil (c : Char) : entity c ≠ [] := by
  unfold entity
  split <;> exact List.cons_ne_nil _ _

/-- The five entities are what stands for the five characters. -/
theorem map_entity_special : special.map entity = entities := by
  decide

/-- What is left of a text when its beginning is cut off has no character with its meaning, if the
whole text has none. -/
theorem Escaped.of_append {as bs : List Char} (h : Escaped (as ++ bs)) : Escaped bs where
  notMem c hc hmem := h.notMem c hc (List.mem_append_right as hmem)
  starts before after heq := by
    refine h.starts (as ++ before) after ?_
    rw [heq, List.append_assoc]

/-- A text in which no character has its meaning starts with what stands for some character. -/
theorem Escaped.exists_entity_append {c : Char} {cs : List Char} (h : Escaped (c :: cs)) :
    ∃ d rest, entity d ++ rest = c :: cs := by
  by_cases hc : c ∈ special
  · rcases List.mem_cons.1 hc with rfl | hmem
    · obtain ⟨e, he, rest, hrest⟩ := h.starts [] cs rfl
      rw [← map_entity_special] at he
      obtain ⟨d, _, rfl⟩ := List.mem_map.1 he
      exact ⟨d, rest, hrest⟩
    · exact absurd List.mem_cons_self (h.notMem c hmem)
  · exact ⟨c, cs, by rw [entity_eq_self hc, List.singleton_append]⟩

/-- The texts in which no character has its meaning are those that were escaped. -/
theorem exists_escape_eq_iff (cs : List Char) : (∃ as, escape as = cs) ↔ Escaped cs := by
  constructor
  · rintro ⟨as, rfl⟩
    exact escaped_escape as
  · intro h
    -- the induction is on the length: what stands behind the first entity is shorter
    induction hn : cs.length using Nat.strongRecOn generalizing cs with
    | ind n ih =>
      cases cs with
      | nil => exact ⟨[], rfl⟩
      | cons c cs =>
        obtain ⟨d, rest, hrest⟩ := h.exists_entity_append
        have hlt : rest.length < n := by
          have hpos := List.length_pos_iff.2 (entity_ne_nil d)
          have hlength := congrArg List.length hrest
          rw [List.length_append] at hlength
          omega
        rw [← hrest] at h
        obtain ⟨as, rfl⟩ := ih rest.length hlt rest h.of_append rfl
        exact ⟨d :: as, by rw [escape_cons, hrest]⟩

/-- Escaping undoes the reading of a text in which no character has its meaning. -/
theorem escape_unescape {cs : List Char} (h : Escaped cs) : escape (unescape cs) = cs := by
  obtain ⟨as, rfl⟩ := (exists_escape_eq_iff cs).2 h
  rw [unescape_escape]

end Stencil.Text.Entity
