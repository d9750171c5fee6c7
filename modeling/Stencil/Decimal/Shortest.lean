import Stencil.Decimal.Double

/-!
# Shortest decimals and their layout

A double is written with the fewest digits that read back as the same double, and among those with
the digits nearest to it. All comparisons are exact: the double, the ends of the interval of reals
that round to it, and the decimal grid are whole numbers of one common unit. The digits are laid out
with a point among them, or with an exponent behind them: a layout is a record of the choices that
one output format makes.
-/

namespace Stencil.Decimal

/-! ## Decimals -/

/-- The decimal number `digits · 10 ^ exponent`. -/
structure Scientific where
  digits : Nat
  exponent : Int
  deriving DecidableEq, Repr

/-- The number of decimal digits of a number; zero has one. -/
def digitCount (n : Nat) : Nat :=
  (Nat.toDigits 10 n).length

/-- The power of ten that the first digit counts. -/
def Scientific.leading (x : Scientific) : Int :=
  x.exponent + (digitCount x.digits - 1 : Nat)

/-- Which way a value goes that lies half-way between two decimals. -/
inductive Tie where
  /-- To the decimal with an even last digit. -/
  | toEven
  /-- Away from zero. -/
  | up
  deriving DecidableEq, Repr

/-! ## The interval of a double -/

/-- A magnitude between the two reals that bound what rounds to it, all in steps of `2 ^ -1075`,
and whether the bounds themselves round to it. -/
structure Interval where
  low : Nat
  value : Nat
  high : Nat
  closed : Bool
  deriving DecidableEq, Repr

/-- The interval of the double of a rank. -/
def Interval.ofRank (rank : Nat) : Interval where
  low := double.units (rank - 1) + double.units rank
  value := 2 * double.units rank
  high := double.units rank + double.units (rank + 1)
  closed := rank % 2 == 0

/-- Whether the fraction `n / d` lies in the interval. -/
def Interval.holds (i : Interval) (n d : Nat) : Bool :=
  if i.closed then i.low * d ≤ n && n ≤ i.high * d else i.low * d < n && n < i.high * d

/-- The steps of `2 ^ -1075` in one, as a power of two. -/
def Interval.one : Nat := Nat.pow 2 (double.halvings + 1)

/-- The power of ten that the first digit of the value counts. The smallest double has its first
digit at the place `10 ^ -324`, so that scaling by `10 ^ 324` leaves at least one whole digit. -/
def Interval.leading (i : Interval) : Int :=
  (digitCount (i.value * Nat.pow 10 324 / Interval.one) : Int) - 325

/-! ## Search -/

/-- The decimal with its last digit at `10 ^ exponent` that reads back as the value and is nearest
to it; none if no multiple of `10 ^ exponent` next to the value reads back. -/
def Interval.onGrid (i : Interval) (tie : Tie) (exponent : Int) : Option Scientific :=
  -- The grid has the step `step / scale`, in the interval's unit.
  let step := Interval.one * Nat.pow 10 exponent.toNat
  let scale := Nat.pow 10 (-exponent).toNat
  let below := i.value * scale / step
  let rest := i.value * scale % step
  let above := below + 1
  let takesBelow := i.holds (below * step) scale
  let takesAbove := i.holds (above * step) scale
  let prefersAbove := step < 2 * rest ||
    (step == 2 * rest && (match tie with
      | .toEven => below % 2 == 1
      | .up => true))
  if takesBelow && takesAbove then some ⟨if prefersAbove then above else below, exponent⟩
  else if takesBelow then some ⟨below, exponent⟩
  else if takesAbove then some ⟨above, exponent⟩
  else none

/-- The first hit on ever finer grids, starting with the one of the given exponent. -/
def Interval.search (i : Interval) (tie : Tie) : Nat → Int → Option Scientific
  | 0, _ => none
  | tries + 1, exponent =>
    match i.onGrid tie exponent with
    | some x => some x
    | none => i.search tie tries (exponent - 1)

/-- The same decimal without a zero at its end. Only the first grid of a search gives one, as ten
of its steps: on a finer grid the decimal would have been found before. -/
def Scientific.dropZero (x : Scientific) : Scientific :=
  if x.digits % 10 = 0 then ⟨x.digits / 10, x.exponent + 1⟩ else x

/-- The shortest decimal of a double's magnitude. Seventeen digits always suffice, so the search
never runs out. -/
def Double.shortest (tie : Tie) (x : Double) : Scientific :=
  if x.isZero then ⟨0, 0⟩
  else
    let i := Interval.ofRank x.rank
    match i.search tie 17 i.leading with
    | some s => s.dropZero
    | none => ⟨0, 0⟩

/-! ## Layouts -/

/-- The choices of a format for its numbers. -/
structure Layout where
  /-- Which of two equally near shortest decimals is written. -/
  tie : Tie
  /-- The powers of ten of a first digit that are written without an exponent. -/
  positional : Int → Bool
  /-- Whether a whole number is written with a zero after the point. -/
  wholeFraction : Bool

namespace Layout

/-- The digits of a number, the most significant first. -/
def digitsOf (n : Nat) : List Char :=
  Nat.toDigits 10 n

/-- A run of zeros. -/
def zeros (n : Nat) : List Char :=
  List.replicate n '0'

/-- A number written without an exponent. -/
def plain (f : Layout) (x : Scientific) : List Char :=
  let ds := digitsOf x.digits
  if 0 ≤ x.exponent then
    ds ++ zeros x.exponent.toNat ++ (if f.wholeFraction then ['.', '0'] else [])
  else
    let places := (-x.exponent).toNat
    if places < ds.length then
      ds.take (ds.length - places) ++ '.' :: ds.drop (ds.length - places)
    else '0' :: '.' :: zeros (places - ds.length) ++ ds

/-- A number written with one digit before the point and a signed exponent. -/
def scientific (x : Scientific) : List Char :=
  let ds := digitsOf x.digits
  let e := x.leading
  ds.take 1 ++ (if ds.length = 1 then [] else '.' :: ds.drop 1) ++
    'e' :: (if e < 0 then '-' else '+') :: digitsOf e.natAbs

/-- The written form of a double. -/
def write (f : Layout) (x : Double) : List Char :=
  let s := x.shortest f.tie
  (if x.negative then ['-'] else []) ++ (if f.positional s.leading then f.plain s else scientific s)

end Layout

end Stencil.Decimal
