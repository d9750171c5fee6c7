import Stencil.Decimal.Shortest

/-!
# Documents

A document is a tree of arrays and objects over scalars. An object keeps its entries in the order
in which they were read, repeated names included: which of them counts is for the reader's user to
say. A number is an integer of sixty-four bits, signed or unsigned, or a double. How a number is
spelled decides which: without a fraction and an exponent it is an integer as long as it fits. Main
statement: equality of numbers is an equivalence (`numEq_refl`, `numEq_symm`, `numEq_trans`).
-/

namespace Stencil

namespace Json

open Stencil.Decimal (Double Layout)

/-- The least integer of a signed word of sixty-four bits. -/
def Word.least : Int := -9223372036854775808

/-- The number of unsigned words of sixty-four bits. -/
def Word.count : Nat := 18446744073709551616

/-- A number of a document. -/
inductive Number where
  /-- An integer that fits a signed or an unsigned word of sixty-four bits. -/
  | integer (n : Int) (inRange : Word.least ≤ n ∧ n < Word.count)
  /-- A finite double. -/
  | float (x : Double)
  deriving DecidableEq, Repr

namespace Number

/-! ## Reading -/

/-- The value of a decimal digit. -/
def digitValue (c : Char) : Nat :=
  c.toNat - 48

/-- The number that decimal digits spell. -/
def natOfDigits (ds : List Char) : Nat :=
  ds.foldl (fun n c => 10 * n + digitValue c) 0

/-- Takes digits into a significand as long as it fits sixty-four bits. Gives the significand and
how many digits are left over. -/
def takeDigits (significand : Nat) : List Char → Nat × Nat
  | [] => (significand, 0)
  | c :: cs =>
    let next := 10 * significand + digitValue c
    if next < Word.count then takeDigits next cs else (significand, cs.length + 1)

/-- The double nearest to a power of ten up to `10 ^ 308`. -/
def powerOfTen (k : Nat) : Double :=
  (Double.ofNat? false (Nat.pow 10 k)).getD Double.zero

/-- A double divided by `10 ^ k`: past `10 ^ 308` in several steps, each of which rounds. -/
def scaleDown (x : Double) (k : Nat) : Double :=
  if k ≤ 308 then (x.div? (powerOfTen k)).getD x
  else if x.isZero then x
  else scaleDown ((x.div? (powerOfTen 308)).getD x) (k - 308)
termination_by k

/-- A double multiplied by `10 ^ k`; none if the product is no finite double. -/
def scaleUp? (x : Double) (k : Nat) : Option Double :=
  if k ≤ 308 then x.mul? (powerOfTen k) else if x.isZero then some x else none

/-- The double of a spelled number. Only the leading digits that fit sixty-four bits count; they
are rounded to a double first and scaled by the power of ten afterwards. -/
def floatOfParts? (negative : Bool) (whole fraction : List Char) (exponent : Int) :
    Option Double :=
  let (wholePart, droppedWhole) := takeDigits 0 whole
  let (significand, droppedFraction) := takeDigits wholePart fraction
  let places := fraction.length - droppedFraction
  let scale := exponent + droppedWhole - places
  match Double.ofNat? negative significand with
  | none => none
  | some x => if 0 ≤ scale then scaleUp? x scale.toNat else some (scaleDown x scale.natAbs)

/-- The integer of a sign and a magnitude, if it is one: minus zero is a double. -/
def integer? (negative : Bool) (n : Nat) : Option Number :=
  if negative && n == 0 then none
  else
    let value : Int := if negative then -n else n
    if h : Word.least ≤ value ∧ value < Word.count then some (.integer value h) else none

/-- The number of a spelling without fraction and exponent. -/
def ofWhole? (negative : Bool) (whole : List Char) : Option Number :=
  match integer? negative (natOfDigits whole) with
  | some n => some n
  | none => (floatOfParts? negative whole [] 0).map .float

/-! ## Properties -/

/-- Whether the number is zero. -/
def isZero : Number → Bool
  | .integer n _ => n == 0
  | .float x => x.isZero

/-- Equality of numbers: an integer never equals a double, and the two zeros of the doubles are
equal. -/
def numEq : Number → Number → Bool
  | .integer m _, .integer n _ => m == n
  | .float x, .float y => x.numEq y
  | _, _ => false

/-- A number equals itself. -/
@[simp] theorem numEq_refl (n : Number) : n.numEq n = true := by
  cases n <;> simp [numEq]

/-- Equality of numbers goes both ways. -/
theorem numEq_symm {m n : Number} (h : m.numEq n = true) : n.numEq m = true := by
  cases m <;> cases n <;> simp_all [numEq]
  exact Double.numEq_symm h

/-- Equality of numbers carries on. -/
theorem numEq_trans {l m n : Number} (h : l.numEq m = true) (h' : m.numEq n = true) :
    l.numEq n = true := by
  cases l <;> cases m <;> cases n <;> simp_all [numEq]
  exact Double.numEq_trans h h'

/-! ## Writing -/

/-- The decimal form of an integer. -/
def writeInt (n : Int) : List Char :=
  (if n < 0 then ['-'] else []) ++ Nat.toDigits 10 n.natAbs

/-- The layout of doubles in a document: first digits from `10 ^ -5` to `10 ^ 15` are written
without an exponent, whole numbers keep a fraction, and a half goes to the even digit. -/
def layout : Layout where
  tie := .toEven
  positional e := -5 ≤ e && e ≤ 15
  wholeFraction := true

/-- The number as it stands in a document. -/
def write : Number → List Char
  | .integer n _ => writeInt n
  | .float x => layout.write x

end Number

end Json

/-! ## Trees -/

/-- A document. -/
inductive Json where
  | null
  | bool (b : Bool)
  | number (n : Json.Number)
  | string (s : String)
  | array (items : List Json)
  | object (entries : List (String × Json))
  deriving Repr

end Stencil
