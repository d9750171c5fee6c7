/-!
# Binary floating-point numbers

The finite numbers of a binary format are counted upwards from zero: the number of rank `r` is the
`r`-th non-negative one, so that the neighbours of a number are one rank away, and a number has an
even significand when its rank is even. Values are whole numbers of the format's smallest step, and
all arithmetic is exact and rounded once. Main statement: numerical equality is an equivalence that
identifies only the two zeros (`numEq_iff`, `numEq_trans`).
-/

namespace Stencil.Decimal

/-! ## Formats -/

/-- A binary format: the bits of a significand after its leading one, the number of halvings from
one to the smallest step, and the number of exponents of finite numbers. -/
structure BinaryFormat where
  fractionBits : Nat
  halvings : Nat
  exponents : Nat
  deriving DecidableEq, Repr

/-- Single precision. -/
def single : BinaryFormat := ⟨23, 149, 255⟩

/-- Double precision. -/
def double : BinaryFormat := ⟨52, 1074, 2047⟩

/-- The quotient of two numbers rounded to a whole number; a half goes to the even neighbour. -/
def divNearestEven (n d : Nat) : Nat :=
  let q := n / d
  let r := n % d
  if 2 * r < d ∨ (2 * r = d ∧ q % 2 = 0) then q else q + 1

namespace BinaryFormat

/-- The number of finite non-negative numbers. -/
def count (f : BinaryFormat) : Nat :=
  f.exponents * Nat.pow 2 f.fractionBits

/-- The value of the number of a rank, in smallest steps. -/
def units (f : BinaryFormat) (rank : Nat) : Nat :=
  let e := rank / Nat.pow 2 f.fractionBits
  let m := rank % Nat.pow 2 f.fractionBits
  if e = 0 then m else (Nat.pow 2 f.fractionBits + m) * Nat.pow 2 (e - 1)

/-- The rank of the number nearest to the fraction `n / d`; a half goes to the even neighbour. The
rank may lie past the finite numbers. -/
def nearest (f : BinaryFormat) (n d : Nat) : Nat :=
  let steps := n * Nat.pow 2 f.halvings
  let e := (steps / d).log2 - f.fractionBits
  e * Nat.pow 2 f.fractionBits + divNearestEven steps (d * Nat.pow 2 e)

end BinaryFormat

/-! ## Doubles -/

/-- A finite double: its sign and the rank of its magnitude. -/
structure Double where
  negative : Bool
  rank : Fin double.count
  deriving DecidableEq, Repr

namespace Double

/-- The magnitude in steps of `2 ^ -1074`. -/
def units (x : Double) : Nat :=
  double.units x.rank

/-- Positive zero. -/
def zero : Double := ⟨false, ⟨0, by decide⟩⟩

/-- The double of a sign nearest to a fraction; none if that lies past the finite doubles. -/
def ofFraction? (negative : Bool) (n d : Nat) : Option Double :=
  let r := double.nearest n d
  if h : r < double.count then some ⟨negative, ⟨r, h⟩⟩ else none

/-- The double nearest to a whole number. -/
def ofNat? (negative : Bool) (n : Nat) : Option Double :=
  ofFraction? negative n 1

/-- The product, rounded once; none if it lies past the finite doubles. -/
def mul? (x y : Double) : Option Double :=
  ofFraction? (x.negative != y.negative) (x.units * y.units) (Nat.pow 2 (2 * double.halvings))

/-- The quotient, rounded once; none if it lies past the finite doubles. -/
def div? (x y : Double) : Option Double :=
  ofFraction? (x.negative != y.negative) x.units y.units

/-- The opposite number. -/
def neg (x : Double) : Double :=
  { x with negative := !x.negative }

/-- Whether the number is one of the two zeros. -/
def isZero (x : Double) : Bool :=
  x.rank.val == 0

/-- The number rounded to single precision and read as a double again; none if it lies past the
finite single-precision numbers. -/
def toSingle? (x : Double) : Option Double :=
  let r := single.nearest x.units (Nat.pow 2 double.halvings)
  if r < single.count then
    ofFraction? x.negative (single.units r) (Nat.pow 2 single.halvings)
  else none

/-! ## Equality of numbers -/

/-- Equality of the numbers themselves: the two zeros are equal. -/
def numEq (x y : Double) : Bool :=
  x == y || (x.isZero && y.isZero)

/-- Two doubles are the same number when they are one double or both zero. -/
theorem numEq_iff (x y : Double) :
    x.numEq y = true ↔ x = y ∨ (x.isZero = true ∧ y.isZero = true) := by
  simp [numEq]

/-- A double is the same number as itself. -/
@[simp] theorem numEq_refl (x : Double) : x.numEq x = true := by
  simp [numEq_iff]

/-- Being the same number goes both ways. -/
theorem numEq_symm {x y : Double} (h : x.numEq y = true) : y.numEq x = true := by
  rw [numEq_iff] at *
  exact h.imp Eq.symm And.symm

/-- Being the same number carries on. -/
theorem numEq_trans {x y z : Double} (hxy : x.numEq y = true) (hyz : y.numEq z = true) :
    x.numEq z = true := by
  rw [numEq_iff] at *
  rcases hxy with rfl | ⟨hx, hy⟩
  · exact hyz
  · rcases hyz with rfl | ⟨_, hz⟩
    · exact Or.inr ⟨hx, hy⟩
    · exact Or.inr ⟨hx, hz⟩

end Double

end Stencil.Decimal
