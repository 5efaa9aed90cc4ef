import CiRunner.Decimal.Binary

/-!
# The shortest decimal that reads back

Every real number in a certain interval around a double rounds to that double.  Among the decimals
in the interval, `shortest` picks one with the fewest digits, and of those the nearest to the
double.  It walks from coarse decimal grids to fine ones: if a point of a grid lies in the interval,
so does one of the two neighbours of the double on that grid, so only these two are tried.
-/

namespace CiRunner.Decimal

/-- A positive decimal `digits · 10 ^ power`. -/
structure Scaled where
  /-- The digits read as a natural number. -/
  digits : Nat
  /-- The power of ten of the last digit. -/
  power : Int
  deriving DecidableEq, Repr

/-- The reals that round to a double, as an interval of quarters of the unit `2 ^ (q - 2)`: its two
ends and the double itself, and whether the ends belong to it. -/
structure Interval where
  /-- The lower end. -/
  low : Nat
  /-- The double itself. -/
  mid : Nat
  /-- The upper end. -/
  high : Nat
  /-- The common denominator. -/
  den : Nat
  /-- Whether the two ends round to the double. -/
  closed : Bool

namespace Interval

/-- The interval of a double: half a unit in both directions, a quarter below a power of two. -/
def around (b : Binary) : Interval :=
  let factor := twoTo (b.exponent - 2).toNat
  let atPower := b.mantissa == twoTo 52 && b.exponent != -1074
  { low := (4 * b.mantissa - if atPower then 1 else 2) * factor
    mid := 4 * b.mantissa * factor
    high := (4 * b.mantissa + 2) * factor
    den := twoTo (2 - b.exponent).toNat
    closed := b.mantissa % 2 == 0 }

/-- Whether a decimal lies in the interval. -/
def contains (i : Interval) (s : Scaled) : Bool :=
  let x := s.digits * tenTo s.power.toNat * i.den
  let scale := tenTo (-s.power).toNat
  if i.closed then i.low * scale ≤ x && x ≤ i.high * scale
  else i.low * scale < x && x < i.high * scale

/-- The largest point of a decimal grid that is not above the double. -/
def below (i : Interval) (power : Int) : Scaled :=
  ⟨i.mid * tenTo (-power).toNat / (i.den * tenTo power.toNat), power⟩

/-- Of the two points of a grid next to the double, the nearer one that lies in the interval; of two
equally near ones the one that is even. -/
def onGrid? (i : Interval) (power : Int) : Option Scaled :=
  let down := i.below power
  let up : Scaled := ⟨down.digits + 1, power⟩
  match i.contains down, i.contains up with
  | false, false => none
  | true, false => some down
  | false, true => some up
  | true, true =>
    some ⟨roundDiv (i.mid * tenTo (-power).toNat) (i.den * tenTo power.toNat), power⟩

/-- Tries finer and finer grids. -/
def search (i : Interval) (power : Int) : Nat → Scaled
  | 0 => i.below power
  | tries + 1 => (i.onGrid? power).getD (i.search (power - 1) tries)

end Interval

/-- The number of decimal digits of a natural number. -/
def digitCount (n : Nat) : Nat := (Nat.toDigits 10 n).length

/-- The shortest decimal that rounds to a positive double.  The walk starts on a grid coarser than
the double and needs at most eighteen steps, since seventeen digits always suffice. -/
def shortest (b : Binary) : Scaled :=
  let i := Interval.around b
  let start : Int := (digitCount i.mid : Int) - (digitCount i.den : Int) + 1
  i.search start 24

end CiRunner.Decimal
