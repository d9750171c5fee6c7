import Stencil.Value

/-!
# State stores

A store holds the state of a component and who observes its fields. A patch changes the fields
whose values differ; each change is reported with the value before it. Main statements: the changes
are the entries of the patch that the state does not hold yet, in the order of their keys
(`overlay_changes`, `pairwise_diff`), and a patch without changes leaves the store as it was
(`overlay_of_diff_eq_nil`).
-/

namespace Stencil

/-- A field that a patch has changed. -/
structure Change where
  key : String
  /-- The value before, if the field was there. -/
  old : Option Value
  new : Value

/-- What happens to a component that others can notice. -/
inductive Event where
  /-- A component is about to compile its template. -/
  | init (state : Data)
  /-- A component is about to render. -/
  | before (state : Data)
  /-- A component has rendered. -/
  | after (state : Data)
  /-- A component is about to be taken down. -/
  | cleanup
  /-- An observer is told of a change. -/
  | watch (observer : String) (old : Option Value) (new : Value)

/-- The state of a component, and the observers of each field in the order in which they came. -/
structure Store where
  state : Data
  observers : KeyMap (List String) := ∅

namespace Store

/-- The value of a field. -/
def get? (s : Store) (key : String) : Option Value :=
  s.state.get? key

/-- One more observer of a field. -/
def observe (s : Store) (key observer : String) : Store :=
  { s with observers := s.observers.insert key ((s.observers.get? key).getD [] ++ [observer]) }

/-- Whether a field of some data has a value already. -/
def holds (state : Data) (key : String) (v : Value) : Bool :=
  match state.get? key with
  | some w => w.valueEq v
  | none => false

/-- The changes that some entries make to a state, in order, and the state after them. An entry
that the state holds already makes none. -/
def overlayEntries (state : Data) : List (String × Value) → List Change × Data
  | [] => ([], state)
  | (key, new) :: es =>
    if holds state key new then overlayEntries state es
    else
      let (changes, after) := overlayEntries (state.insert key new) es
      (⟨key, state.get? key, new⟩ :: changes, after)

/-- The changes that a patch makes, and the store after them. -/
def overlay (s : Store) (patch : Data) : List Change × Store :=
  let (changes, state) := overlayEntries s.state patch.toList
  (changes, { s with state })

/-- What the observers of the changed fields are told, in the order of the changes. -/
def notify (s : Store) (changes : List Change) : List Event :=
  changes.flatMap fun c =>
    ((s.observers.get? c.key).getD []).map fun observer => .watch observer c.old c.new

/-! ## The changes of a patch -/

/-- What a patch changes in a state: its entries that the state does not hold, each with the value
before it. -/
def diff (state patch : Data) : List Change :=
  (patch.toList.filter fun e => !holds state e.1 e.2).map fun e => ⟨e.1, state.get? e.1, e.2⟩

/-- An insertion makes no difference to what is held under other keys. -/
theorem holds_insert_of_ne {state : Data} {k x : String} (hx : x ≠ k) (v w : Value) :
    holds (state.insert k v) x w = holds state x w := by
  simp [holds, hx]

/-- The changes that some entries make are those that they make one by one to the state at first:
no entry is for a key that one before it has set. -/
theorem overlayEntries_changes (state : Data) {es : List (String × Value)} (h : InKeyOrder es) :
    (overlayEntries state es).1 =
      (es.filter fun e => !holds state e.1 e.2).map fun e => ⟨e.1, state.get? e.1, e.2⟩ := by
  induction es generalizing state with
  | nil => rfl
  | cons a es ih =>
    obtain ⟨ha, hes⟩ := List.pairwise_cons.1 h
    rw [overlayEntries]
    split
    · next hheld =>
      rw [ih state hes, List.filter_cons_of_neg (by simp [hheld])]
    · next hheld =>
      have hne : ∀ e ∈ es, e.1 ≠ a.1 := fun e he heq => String.lt_irrefl a.1 (heq ▸ ha e he)
      rw [List.filter_cons_of_pos (by simpa using hheld), List.map_cons]
      show _ :: (overlayEntries (state.insert a.1 a.2) es).1 = _
      rw [ih _ hes]
      congr 1
      have hfilter : (es.filter fun e => !holds (state.insert a.1 a.2) e.1 e.2) =
          es.filter fun e => !holds state e.1 e.2 :=
        List.filter_congr fun e he => by rw [holds_insert_of_ne (hne e he)]
      rw [hfilter]
      refine List.map_congr_left fun e he => ?_
      rw [KeyMap.get?_insert, if_neg (hne e (List.mem_filter.1 he).1)]

/-- The changes that are reported of a patch are its changes of the state. -/
@[simp] theorem overlay_changes (s : Store) (patch : Data) :
    (s.overlay patch).1 = diff s.state patch :=
  overlayEntries_changes s.state patch.sorted

/-- A patch leaves the observers alone. -/
@[simp] theorem overlay_observers (s : Store) (patch : Data) :
    (s.overlay patch).2.observers = s.observers := rfl

/-- The changes come in the order of their keys, one for a key. -/
theorem pairwise_diff (state patch : Data) :
    (diff state patch).Pairwise fun a b => a.key < b.key :=
  List.pairwise_map.2 (List.Pairwise.filter _ patch.sorted)

/-- Entries that a state holds already leave it as it was. -/
theorem overlayEntries_of_holds {state : Data} {es : List (String × Value)}
    (h : ∀ e ∈ es, holds state e.1 e.2 = true) : overlayEntries state es = ([], state) := by
  induction es with
  | nil => rfl
  | cons a es ih =>
    rw [overlayEntries, if_pos (h a List.mem_cons_self)]
    exact ih fun e he => h e (List.mem_cons_of_mem a he)

/-- A patch that changes nothing leaves the store as it was. -/
theorem overlay_of_diff_eq_nil {s : Store} {patch : Data} (h : diff s.state patch = []) :
    s.overlay patch = ([], s) := by
  have hheld : ∀ e ∈ patch.toList, holds s.state e.1 e.2 = true := by
    simpa [diff] using h
  rw [overlay, overlayEntries_of_holds hheld]

/-! ## Observers -/

/-- The observers of a field. -/
def observersOf (s : Store) (key : String) : List String :=
  (s.observers.get? key).getD []

/-- An observer comes last among those of its field, and those of other fields stay. -/
theorem observersOf_observe (s : Store) (key x observer : String) :
    (s.observe key observer).observersOf x =
      if x = key then s.observersOf key ++ [observer] else s.observersOf x := by
  by_cases hx : x = key <;> simp [observersOf, observe, hx]

end Store

end Stencil
