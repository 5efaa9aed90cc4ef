/-!
# The exact value of a binary floating-point number

A finite double is `± m · 2 ^ q` with a natural number `m` and an integer `q`.  `Binary.read` takes
one apart, `Binary.nearest` goes back: it gives the double nearest to a quotient of natural numbers,
and of two equally near ones the one with the even `m`.
-/

namespace CiRunner.Decimal

/-- A power of two. -/
def twoTo (n : Nat) : Nat := Nat.pow 2 n

/-- A power of ten. -/
def tenTo (n : Nat) : Nat := Nat.pow 10 n

theorem twoTo_pos (n : Nat) : 0 < twoTo n := Nat.two_pow_pos n

/-- The quotient rounded to the nearest natural number, a half going to the even neighbour. -/
def roundDiv (num den : Nat) : Nat :=
  let floor := num / den
  let twice := 2 * (num % den)
  if twice < den then floor
  else if den < twice then floor + 1
  else if floor % 2 = 0 then floor else floor + 1

/-- A finite floating-point number: its sign, `m` and `q` in `± m · 2 ^ q`. -/
structure Binary where
  /-- Whether the sign is minus, which a zero can carry too. -/
  negative : Bool
  /-- The natural number `m`. -/
  mantissa : Nat
  /-- The integer `q`. -/
  exponent : Int
  deriving DecidableEq, Repr

/-- What a double holds. -/
inductive Content where
  /-- No number. -/
  | nan
  /-- Beyond every finite number. -/
  | infinite (negative : Bool)
  /-- A finite number. -/
  | finite (value : Binary)
  deriving DecidableEq, Repr

namespace Binary

/-- Takes a double apart. -/
def read (x : Float) : Content :=
  let bits : Nat := x.toBits.toNat
  let negative := twoTo 63 ≤ bits
  let field : Nat := bits / twoTo 52 % 2048
  let fraction : Nat := bits % twoTo 52
  if field = 2047 then (if fraction = 0 then .infinite negative else .nan)
  else if field = 0 then .finite ⟨negative, fraction, -1074⟩
  else .finite ⟨negative, twoTo 52 + fraction, (field : Int) - 1075⟩

/-- The numerator of the absolute value. -/
def num (b : Binary) : Nat := b.mantissa * twoTo b.exponent.toNat

/-- The denominator of the absolute value. -/
def den (b : Binary) : Nat := twoTo (-b.exponent).toNat

/-- The value as an integer, if it is one. -/
def toInt? (b : Binary) : Option Int :=
  if b.num % b.den = 0 then
    let n : Int := (b.num / b.den : Nat)
    some (if b.negative then -n else n)
  else none

/-- The exact value as a rational number. -/
def toRat (b : Binary) : Rat :=
  (if b.negative then -1 else 1) * ((b.num : Rat) / (b.den : Rat))

/-- The power `q` for which a quotient divided by `2 ^ q` has 53 binary digits, or the least power
there is. -/
def scale (num den : Nat) : Int :=
  let e : Int := (num.log2 : Int) - (den.log2 : Int)
  let e := if num * twoTo (-e).toNat < den * twoTo e.toNat then e - 1 else e
  max (e - 52) (-1074)

/-- The double nearest to a quotient, infinite when the quotient is beyond the largest one. -/
def nearest (negative : Bool) (num den : Nat) : Float :=
  let magnitude :=
    if num = 0 then 0
    else
      let q := scale num den
      let m := roundDiv (num * twoTo (-q).toNat) (den * twoTo q.toNat)
      min ((q + 1074).toNat * twoTo 52 + m) (2047 * twoTo 52)
  Float.ofBits (UInt64.ofNat (magnitude + if negative then twoTo 63 else 0))

/-- The double nearest to an integer, `none` when the integer is beyond the largest one. -/
def ofInt? (n : Int) : Option Float :=
  let x := nearest (n < 0) n.natAbs 1
  match read x with
  | .finite _ => some x
  | _ => none

end Binary

end CiRunner.Decimal
