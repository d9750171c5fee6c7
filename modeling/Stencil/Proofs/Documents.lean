import Stencil.Proofs.Spelling

/-!
# Reading documents back

The machine that reads documents, over the tokens of a whole document: it takes them from a state
where a value may come to the state after this value, whatever containers are open around it, as
long as there is room for the containers inside. Main statement: a document without numbers is read
back from its indented text if it nests no deeper than the reader allows (`read_indented`).
-/

namespace Stencil.Json

/-! ## Nesting -/

mutual

/-- The number of arrays and objects that stand inside one another in a document. -/
def nesting : Json → Nat
  | .null => 0
  | .bool _ => 0
  | .number _ => 0
  | .string _ => 0
  | .array items => 1 + itemsNesting items
  | .object entries => 1 + entriesNesting entries

/-- The number of arrays and objects that stand inside one another in the elements of an array. -/
def itemsNesting : List Json → Nat
  | [] => 0
  | v :: vs => max (nesting v) (itemsNesting vs)

/-- The number of arrays and objects that stand inside one another in the entries of an object. -/
def entriesNesting : List (String × Json) → Nat
  | [] => 0
  | (_, v) :: es => max (nesting v) (entriesNesting es)

end

namespace State

/-! ## What may come next -/

/-- One token that fits. -/
theorem run_cons {limit : Nat} {s s' : State} {t : Token} (h : s.step limit t = some s')
    (ts : List Token) : s.run limit (t :: ts) = s'.run limit ts := by
  rw [run, h]

/-- A value may come in a state, inside some open containers. The end of an array may come there
as well. -/
def TakesValue (limit : Nat) (s : State) (stack : List Frame) : Prop :=
  ∀ t, t ≠ .closeBracket → s.step limit t = begin limit stack t

/-- A name may come in a state, behind some entries of an object. The end of the object may come
there as well. -/
def TakesName (limit : Nat) (s : State) (before : List (String × Json)) (stack : List Frame) :
    Prop :=
  ∀ name, s.step limit (.string name) = some (.colon before name stack)

/-- A value may come where one must come. -/
theorem takesValue_value (limit : Nat) (stack : List Frame) :
    TakesValue limit (.value stack) stack :=
  fun _ _ => rfl

/-- A value may come at the start of an array. -/
theorem takesValue_firstElement (limit : Nat) (stack : List Frame) :
    TakesValue limit (.firstElement stack) (.element [] :: stack) := by
  intro t hne
  cases t with
  | closeBracket => exact absurd rfl hne
  | _ => rfl

/-- A name may come where one must come. -/
theorem takesName_nextName (limit : Nat) (before : List (String × Json)) (stack : List Frame) :
    TakesName limit (.nextName before stack) before stack :=
  fun _ => rfl

/-- A name may come at the start of an object. -/
theorem takesName_firstName (limit : Nat) (stack : List Frame) :
    TakesName limit (.firstName stack) [] stack :=
  fun _ => rfl

/-! ## Whole values -/

/-- A container may start where there is room for one. -/
theorem begin_openBracket {limit : Nat} {stack : List Frame} (h : stack.length < limit) :
    begin limit stack .openBracket = some (.firstElement stack) :=
  if_pos h

/-- An object may start where there is room for it. -/
theorem begin_openBrace {limit : Nat} {stack : List Frame} (h : stack.length < limit) :
    begin limit stack .openBrace = some (.firstName stack) :=
  if_pos h

mutual

/-- **A whole value.** The tokens of a document lead from a state where a value may come to the
state after it, if there is room for its containers inside the open ones. -/
theorem run_tokens (limit : Nat) : ∀ (v : Json) (s : State) (stack : List Frame)
    (rest : List Token), TakesValue limit s stack → v.nesting + stack.length ≤ limit →
    s.run limit (v.tokens ++ rest) = (complete v stack).run limit rest
  | .null, _, _, _, hs, _ => run_cons (hs .null (by decide)) _
  | .bool b, _, _, _, hs, _ => run_cons (hs (.bool b) Token.noConfusion) _
  | .number n, _, _, _, hs, _ => run_cons (hs (.number n) Token.noConfusion) _
  | .string s, _, _, _, hs, _ => run_cons (hs (.string s) Token.noConfusion) _
  | .array [], _, _, rest, hs, h => by
    have hstart := hs .openBracket (by decide)
    rw [nesting] at h
    rw [begin_openBracket (by omega)] at hstart
    exact (run_cons hstart _).trans (run_cons rfl rest)
  | .array (v :: vs), s, stack, rest, hs, h => by
    have hstart := hs .openBracket (by decide)
    have hitems := run_itemTokens limit (v :: vs) (.firstElement stack) [] stack
      (.closeBracket :: rest) (takesValue_firstElement limit stack)
    have htokens : (Json.array (v :: vs)).tokens ++ rest =
        .openBracket :: (itemTokens (v :: vs) ++ .closeBracket :: rest) := by
      simp [tokens]
    have hend : (afterElement ((v :: vs).reverse ++ []) stack).step limit .closeBracket =
        some (complete (.array (v :: vs)) stack) := by
      rw [List.append_nil, step, List.reverse_reverse]
    rw [nesting] at h
    rw [begin_openBracket (by omega)] at hstart
    rw [htokens, run_cons hstart, hitems (by omega) (by simp), run_cons hend]
  | .object [], _, _, rest, hs, h => by
    have hstart := hs .openBrace (by decide)
    rw [nesting] at h
    rw [begin_openBrace (by omega)] at hstart
    exact (run_cons hstart _).trans (run_cons rfl rest)
  | .object (e :: es), s, stack, rest, hs, h => by
    have hstart := hs .openBrace (by decide)
    have hentries := run_entryTokens limit (e :: es) (.firstName stack) [] stack
      (.closeBrace :: rest) (takesName_firstName limit stack)
    have htokens : (Json.object (e :: es)).tokens ++ rest =
        .openBrace :: (entryTokens (e :: es) ++ .closeBrace :: rest) := by
      simp [tokens]
    have hend : (afterMember ((e :: es).reverse ++ []) stack).step limit .closeBrace =
        some (complete (.object (e :: es)) stack) := by
      rw [List.append_nil, step, List.reverse_reverse]
    rw [nesting] at h
    rw [begin_openBrace (by omega)] at hstart
    rw [htokens, run_cons hstart, hentries (by omega) (by simp), run_cons hend]

/-- The tokens of the elements of an array lead to the state after the last one. -/
theorem run_itemTokens (limit : Nat) : ∀ (items : List Json) (s : State) (before : List Json)
    (stack : List Frame) (rest : List Token), TakesValue limit s (.element before :: stack) →
    itemsNesting items + (stack.length + 1) ≤ limit → items ≠ [] →
    s.run limit (itemTokens items ++ rest) =
      (afterElement (items.reverse ++ before) stack).run limit rest
  | [], _, _, _, _, _, _, hne => absurd rfl hne
  | [v], s, before, stack, rest, hs, h, _ => by
    rw [itemsNesting] at h
    exact run_tokens limit v s (.element before :: stack) rest hs
      (by rw [List.length_cons]; omega)
  | v :: w :: vs, s, before, stack, rest, hs, h, _ => by
    rw [itemsNesting] at h
    have hfirst := run_tokens limit v s (.element before :: stack)
      (.comma :: (itemTokens (w :: vs) ++ rest)) hs (by rw [List.length_cons]; omega)
    have hlater := run_itemTokens limit (w :: vs) (.value (.element (v :: before) :: stack))
      (v :: before) stack rest (takesValue_value limit _) (by omega) (by simp)
    have htokens : itemTokens (v :: w :: vs) ++ rest =
        v.tokens ++ .comma :: (itemTokens (w :: vs) ++ rest) := by
      simp [itemTokens]
    have hcomma : (complete v (.element before :: stack)).step limit .comma =
        some (.value (.element (v :: before) :: stack)) := rfl
    rw [htokens, hfirst, run_cons hcomma, hlater]
    simp

/-- The tokens of the entries of an object lead to the state after the last one. -/
theorem run_entryTokens (limit : Nat) : ∀ (entries : List (String × Json)) (s : State)
    (before : List (String × Json)) (stack : List Frame) (rest : List Token),
    TakesName limit s before stack → entriesNesting entries + (stack.length + 1) ≤ limit →
    entries ≠ [] →
    s.run limit (entryTokens entries ++ rest) =
      (afterMember (entries.reverse ++ before) stack).run limit rest
  | [], _, _, _, _, _, _, hne => absurd rfl hne
  | [(name, v)], s, before, stack, rest, hs, h, _ => by
    rw [entriesNesting] at h
    have hvalue := run_tokens limit v (.value (.member before name :: stack))
      (.member before name :: stack) rest (takesValue_value limit _)
      (by rw [List.length_cons]; omega)
    have hcolon : (State.colon before name stack).step limit .colon =
        some (.value (.member before name :: stack)) := rfl
    have htokens : entryTokens [(name, v)] ++ rest =
        .string name :: .colon :: (v.tokens ++ rest) := rfl
    rw [htokens, run_cons (hs name), run_cons hcolon, hvalue]
    rfl
  | (name, v) :: e :: es, s, before, stack, rest, hs, h, _ => by
    rw [entriesNesting] at h
    have hvalue := run_tokens limit v (.value (.member before name :: stack))
      (.member before name :: stack) (.comma :: (entryTokens (e :: es) ++ rest))
      (takesValue_value limit _) (by rw [List.length_cons]; omega)
    have hlater := run_entryTokens limit (e :: es) (.nextName ((name, v) :: before) stack)
      ((name, v) :: before) stack rest (takesName_nextName limit _ _) (by omega) (by simp)
    have hcolon : (State.colon before name stack).step limit .colon =
        some (.value (.member before name :: stack)) := rfl
    have hcomma : (complete v (.member before name :: stack)).step limit .comma =
        some (.nextName ((name, v) :: before) stack) := rfl
    have htokens : entryTokens ((name, v) :: e :: es) ++ rest =
        .string name :: .colon :: (v.tokens ++ .comma :: (entryTokens (e :: es) ++ rest)) := by
      simp [entryTokens]
    rw [htokens, run_cons (hs name), run_cons hcolon, hvalue, run_cons hcomma, hlater]
    simp

end

end State

/-! ## Documents -/

/-- A text that is scanned into the tokens of a document is read as the document, if the document
nests no deeper than the reader allows. -/
theorem read_of_scan {limit : Nat} {text : String} {v : Json}
    (hscan : Token.scan text.toList = v.tokens) (hdepth : v.nesting ≤ limit) :
    read limit text = .ok v := by
  have hrun : (State.value []).run limit v.tokens = .ok (.done v) := by
    have hrun := State.run_tokens limit v (.value []) [] [] (State.takesValue_value limit [])
      (by rw [List.length_nil]; omega)
    rw [List.append_nil] at hrun
    exact hrun
  rw [read, hscan, hrun]

/-- **Reading a document back.** A document without numbers is what is read from its indented text,
if it nests no deeper than the reader allows. -/
theorem read_indented {limit : Nat} {v : Json} (hnumbers : v.NumberFree)
    (hdepth : v.nesting ≤ limit) : read limit v.indented = .ok v := by
  have hscan := scan_writeIndented v 0 [] hnumbers
  rw [List.append_nil, Token.scan, List.append_nil] at hscan
  apply read_of_scan _ hdepth
  rw [indented, String.toList_ofList, hscan]

end Stencil.Json
