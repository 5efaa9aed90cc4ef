import CiRunner.Decimal.Style

/-!
# A fixed number of decimal places

The exact value of a double is rounded to a multiple of a power of ten, a half going to the even
neighbour.  `fixed` writes the result with all its places, `roundTo` gives the double nearest to it.
-/

namespace CiRunner.Decimal

/-- The absolute value in units of `10 ^ (-places)`, rounded. -/
def Binary.units (b : Binary) (places : Nat) : Nat :=
  roundDiv (b.num * tenTo places) b.den

/-- The text of a number with a fixed, positive number of places. -/
def fixed (places : Nat) (x : Float) : String :=
  match Binary.read x with
  | .nan => standard.notANumber
  | .infinite negative => (if negative then "-" else "") ++ standard.infinity
  | .finite b =>
    let digits := padLeft (places + 1) (Nat.toDigits 10 (b.units places))
    let whole := digits.length - places
    String.ofList
      ((if b.negative then ['-'] else []) ++ digits.take whole ++ '.' :: digits.drop whole)

/-- The double nearest to a number rounded to a number of places. -/
def roundTo (places : Nat) (x : Float) : Float :=
  match Binary.read x with
  | .finite b => Binary.nearest b.negative (b.units places) (tenTo places)
  | _ => x

end CiRunner.Decimal
