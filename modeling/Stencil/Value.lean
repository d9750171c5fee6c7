import Stencil.Program
import Stencil.Json.Writer
import Stencil.KeyMap

/-!
# Values

The values that data may hold: what a document may hold, and besides it text that is safe already
and templates that have not been rendered yet. The entries of an object stand in increasing order
of their keys. As text, before it is escaped, a value reads as a template puts it out: nothing for
null, the elements of an array with commas between them, and an object as a compact document. The
data of a rendering is a map from keys to values. Main statements: equality of values is an
equivalence (`valueEq_refl`, `valueEq_symm`, `valueEq_trans`).
-/

namespace Stencil

/-- A value. -/
inductive Value where
  | null
  | bool (b : Bool)
  | number (n : Json.Number)
  /-- Text that is escaped when it is put out. -/
  | string (s : String)
  | array (items : List Value)
  | object (entries : List (String × Value))
  /-- Text that is put out as it is. -/
  | safe (s : String)
  /-- A template that has not been rendered yet. -/
  | template (t : Template)

namespace Value

open Stencil.Decimal (Layout)

/-- Whether a condition on the value holds: nothing, false, zero and the empty string fail. -/
def isTruthy : Value → Bool
  | .null => false
  | .bool b => b
  | .number n => !n.isZero
  | .string s => s ≠ ""
  | _ => true

/-- Whether the value is the null of documents. -/
def isNull : Value → Bool
  | .null => true
  | _ => false

/-- The value of a floating-point number; one that is not finite has no value and becomes null. -/
def ofFloat : Option Decimal.Double → Value
  | some x => .number (.float x)
  | none => .null

/-- The elements of an array. -/
def items? : Value → Option (List Value)
  | .array items => some items
  | _ => none

/-- The name of the value's type. -/
def typeName : Value → String
  | .null => "null"
  | .bool _ => "boolean"
  | .number _ => "number"
  | .string _ => "string"
  | .array _ => "array"
  | .object _ => "object"
  | .safe _ => "safe string"
  | .template _ => "template"

/-- The object of a map. -/
def ofMap (m : KeyMap Value) : Value :=
  .object m.toList

/-! ## Equality -/

mutual

/-- Equality of values. An integer never equals a double, and a template equals only copies of the
same compilation. -/
def valueEq : Value → Value → Bool
  | .null, .null => true
  | .bool a, .bool b => a == b
  | .number a, .number b => a.numEq b
  | .string a, .string b => a == b
  | .array as, .array bs => listEq as bs
  | .object as, .object bs => entriesEq as bs
  | .safe a, .safe b => a == b
  | .template a, .template b => a.handle == b.handle
  | _, _ => false

/-- Equality of lists of values. -/
def listEq : List Value → List Value → Bool
  | [], [] => true
  | a :: as, b :: bs => valueEq a b && listEq as bs
  | _, _ => false

/-- Equality of lists of entries. -/
def entriesEq : List (String × Value) → List (String × Value) → Bool
  | [], [] => true
  | (k, a) :: as, (l, b) :: bs => k == l && valueEq a b && entriesEq as bs
  | _, _ => false

end

instance : BEq Value := ⟨valueEq⟩

mutual

/-- A value equals itself. -/
theorem valueEq_refl : (v : Value) → v.valueEq v = true
  | .null => rfl
  | .bool _ => by simp [valueEq]
  | .number _ => by simp [valueEq]
  | .string _ => by simp [valueEq]
  | .array items => by rw [valueEq]; exact listEq_refl items
  | .object entries => by rw [valueEq]; exact entriesEq_refl entries
  | .safe _ => by simp [valueEq]
  | .template _ => by simp [valueEq]

/-- A list of values equals itself. -/
theorem listEq_refl : (vs : List Value) → listEq vs vs = true
  | [] => rfl
  | v :: vs => by simp [listEq, valueEq_refl v, listEq_refl vs]

/-- A list of entries equals itself. -/
theorem entriesEq_refl : (es : List (String × Value)) → entriesEq es es = true
  | [] => rfl
  | (k, v) :: es => by simp [entriesEq, valueEq_refl v, entriesEq_refl es]

end

mutual

/-- Equality of values goes both ways. -/
theorem valueEq_symm : (v w : Value) → v.valueEq w = true → w.valueEq v = true
  | .null, w, h => by
    cases w <;> simp only [valueEq, Bool.false_eq_true] at h ⊢
  | .bool _, w, h => by
    cases w <;> simp only [valueEq, Bool.false_eq_true] at h ⊢
    exact BEq.symm h
  | .number _, w, h => by
    cases w <;> simp only [valueEq, Bool.false_eq_true] at h ⊢
    exact Json.Number.numEq_symm h
  | .string _, w, h => by
    cases w <;> simp only [valueEq, Bool.false_eq_true] at h ⊢
    exact BEq.symm h
  | .array items, w, h => by
    cases w <;> simp only [valueEq, Bool.false_eq_true] at h ⊢
    exact listEq_symm items _ h
  | .object entries, w, h => by
    cases w <;> simp only [valueEq, Bool.false_eq_true] at h ⊢
    exact entriesEq_symm entries _ h
  | .safe _, w, h => by
    cases w <;> simp only [valueEq, Bool.false_eq_true] at h ⊢
    exact BEq.symm h
  | .template _, w, h => by
    cases w <;> simp only [valueEq, Bool.false_eq_true] at h ⊢
    exact BEq.symm h

/-- Equality of lists of values goes both ways. -/
theorem listEq_symm : (vs ws : List Value) → listEq vs ws = true → listEq ws vs = true
  | [], ws, h => by
    cases ws <;> simp [listEq] at h ⊢
  | v :: vs, ws, h => by
    cases ws with
    | nil => simp [listEq] at h
    | cons w ws =>
      rw [listEq, Bool.and_eq_true] at h ⊢
      exact ⟨valueEq_symm v w h.1, listEq_symm vs ws h.2⟩

/-- Equality of lists of entries goes both ways. -/
theorem entriesEq_symm : (es fs : List (String × Value)) → entriesEq es fs = true →
    entriesEq fs es = true
  | [], fs, h => by
    cases fs <;> simp [entriesEq] at h ⊢
  | (k, v) :: es, fs, h => by
    cases fs with
    | nil => simp [entriesEq] at h
    | cons f fs =>
      obtain ⟨l, w⟩ := f
      rw [entriesEq, Bool.and_eq_true, Bool.and_eq_true, beq_iff_eq] at h ⊢
      exact ⟨⟨h.1.1.symm, valueEq_symm v w h.1.2⟩, entriesEq_symm es fs h.2⟩

end

mutual

/-- Equality of values carries on. -/
theorem valueEq_trans : (u v w : Value) → u.valueEq v = true → v.valueEq w = true →
    u.valueEq w = true
  | .null, v, w, huv, hvw => by
    cases v <;> simp only [valueEq, Bool.false_eq_true] at huv
    exact hvw
  | .bool _, v, w, huv, hvw => by
    cases v <;> simp only [valueEq, Bool.false_eq_true, beq_iff_eq] at huv
    subst huv
    exact hvw
  | .number _, v, w, huv, hvw => by
    cases v <;> simp only [valueEq, Bool.false_eq_true] at huv
    cases w <;> simp only [valueEq, Bool.false_eq_true] at hvw ⊢
    exact Json.Number.numEq_trans huv hvw
  | .string _, v, w, huv, hvw => by
    cases v <;> simp only [valueEq, Bool.false_eq_true, beq_iff_eq] at huv
    subst huv
    exact hvw
  | .array items, v, w, huv, hvw => by
    cases v <;> simp only [valueEq, Bool.false_eq_true] at huv
    cases w <;> simp only [valueEq, Bool.false_eq_true] at hvw ⊢
    exact listEq_trans items _ _ huv hvw
  | .object entries, v, w, huv, hvw => by
    cases v <;> simp only [valueEq, Bool.false_eq_true] at huv
    cases w <;> simp only [valueEq, Bool.false_eq_true] at hvw ⊢
    exact entriesEq_trans entries _ _ huv hvw
  | .safe _, v, w, huv, hvw => by
    cases v <;> simp only [valueEq, Bool.false_eq_true, beq_iff_eq] at huv
    subst huv
    exact hvw
  | .template _, v, w, huv, hvw => by
    cases v <;> simp only [valueEq, Bool.false_eq_true] at huv
    cases w <;> simp only [valueEq, Bool.false_eq_true] at hvw ⊢
    exact BEq.trans huv hvw

/-- Equality of lists of values carries on. -/
theorem listEq_trans : (us vs ws : List Value) → listEq us vs = true → listEq vs ws = true →
    listEq us ws = true
  | [], vs, ws, huv, hvw => by
    cases vs with
    | nil => exact hvw
    | cons v vs => simp [listEq] at huv
  | u :: us, vs, ws, huv, hvw => by
    cases vs with
    | nil => simp [listEq] at huv
    | cons v vs =>
      cases ws with
      | nil => simp [listEq] at hvw
      | cons w ws =>
        rw [listEq, Bool.and_eq_true] at huv hvw ⊢
        exact ⟨valueEq_trans u v w huv.1 hvw.1, listEq_trans us vs ws huv.2 hvw.2⟩

/-- Equality of lists of entries carries on. -/
theorem entriesEq_trans : (ds es fs : List (String × Value)) → entriesEq ds es = true →
    entriesEq es fs = true → entriesEq ds fs = true
  | [], es, fs, hde, hef => by
    cases es with
    | nil => exact hef
    | cons e es => simp [entriesEq] at hde
  | (k, u) :: ds, es, fs, hde, hef => by
    rcases es with _ | ⟨⟨l, v⟩, es⟩
    · simp [entriesEq] at hde
    · rcases fs with _ | ⟨⟨m, w⟩, fs⟩
      · simp [entriesEq] at hef
      · rw [entriesEq, Bool.and_eq_true, Bool.and_eq_true, beq_iff_eq] at hde hef ⊢
        exact ⟨⟨hde.1.1.trans hef.1.1, valueEq_trans u v w hde.1.2 hef.1.2⟩,
          entriesEq_trans ds es fs hde.2 hef.2⟩

end

/-! ## Documents -/

mutual

/-- The value of a document. Of several entries of an object with one name the last one counts. -/
def ofJson : Json → Value
  | .null => .null
  | .bool b => .bool b
  | .number n => .number n
  | .string s => .string s
  | .array items => .array (listOfJson items)
  | .object entries => .ofMap (mapOfJson ∅ entries)

/-- The values of some documents. -/
def listOfJson : List Json → List Value
  | [] => []
  | v :: vs => ofJson v :: listOfJson vs

/-- A map with some entries of an object put into it. -/
def mapOfJson (m : KeyMap Value) : List (String × Json) → KeyMap Value
  | [] => m
  | (k, v) :: es => mapOfJson (m.insert k (ofJson v)) es

end

mutual

/-- The document of a value: safe text as a string, and a template as its source. -/
def toJson : Value → Json
  | .null => .null
  | .bool b => .bool b
  | .number n => .number n
  | .string s => .string s
  | .array items => .array (listToJson items)
  | .object entries => .object (entriesToJson entries)
  | .safe s => .string s
  | .template t => .string t.source

/-- The documents of some values. -/
def listToJson : List Value → List Json
  | [] => []
  | v :: vs => toJson v :: listToJson vs

/-- The entries of an object as those of a document. -/
def entriesToJson : List (String × Value) → List (String × Json)
  | [] => []
  | (k, v) :: es => (k, toJson v) :: entriesToJson es

end

/-! ## Text -/

/-- The layout of doubles in output: no exponent and no fraction of whole numbers; a half goes away
from zero. -/
def layout : Layout where
  tie := .up
  positional _ := true
  wholeFraction := false

/-- The text of a number. -/
def numberText : Json.Number → List Char
  | .integer n _ => Json.Number.writeInt n
  | .float x => layout.write x

mutual

/-- The text of a value. -/
def text : Value → String
  | .null => ""
  | .bool true => "true"
  | .bool false => "false"
  | .number n => String.ofList (numberText n)
  | .string s => s
  | .array items => listText items
  | .object entries => (toJson (.object entries)).compact
  | .safe s => s
  | .template t => t.source

/-- The texts of some values, a comma between any two. -/
def listText : List Value → String
  | [] => ""
  | [v] => v.text
  | v :: vs => v.text ++ "," ++ listText vs

end

end Value

/-! ## Data -/

/-- The data of a rendering. -/
abbrev Data := KeyMap Value

namespace Data

/-- The data of a document, which has to be an object. -/
def ofJson : Json → Except Error Data
  | .object entries => .ok (Value.mapOfJson ∅ entries)
  | v => .error (.invalidData (Value.ofJson v).typeName)

/-- Equality of data: the same keys with equal values. -/
def dataEq (d e : Data) : Bool :=
  (Value.ofMap d).valueEq (.ofMap e)

/-- The document of the data. -/
def toJson (d : Data) : Json :=
  Value.toJson (.ofMap d)

end Data

end Stencil
