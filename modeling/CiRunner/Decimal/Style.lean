import CiRunner.Decimal.Shortest

/-!
# How a floating-point number is written

The shortest digits that read back are written positionally, with at least one digit on each side of
the point, as long as the decimal exponent lies in `-4 … 15`; beyond that range with an exponent of
a sign and at least two digits.
-/

namespace CiRunner.Decimal

/-- The decisions of a style of writing numbers. -/
structure Style where
  /-- The least decimal exponent that is written positionally. -/
  least : Int
  /-- The first decimal exponent that is not written positionally. -/
  limit : Int
  /-- The least number of digits of a written exponent. -/
  exponentWidth : Nat
  /-- The text of an infinite value, after its sign. -/
  infinity : String
  /-- The text of a value that is no number. -/
  notANumber : String

/-- The style used throughout: positional from `0.0001` up to below `10 ^ 16`. -/
def standard : Style := ⟨-4, 16, 2, "inf", "nan"⟩

/-- A number of zeros. -/
def zeros (n : Nat) : List Char := List.replicate n '0'

/-- Pads digits with zeros on the left to a least width. -/
def padLeft (width : Nat) (digits : List Char) : List Char :=
  zeros (width - digits.length) ++ digits

/-- Digits with the point after the first `whole` of them, filled up with zeros on either side. -/
def pointed (digits : List Char) (whole : Int) : List Char :=
  if whole ≤ 0 then '0' :: '.' :: zeros (-whole).toNat ++ digits
  else
    let n := whole.toNat
    let fraction := digits.drop n
    padRight n (digits.take n) ++ '.' :: if fraction.isEmpty then ['0'] else fraction
where
  /-- Pads digits with zeros on the right to a least width. -/
  padRight (width : Nat) (digits : List Char) : List Char :=
    digits ++ zeros (width - digits.length)

/-- Digits with the point after the first of them and an exponent of ten. -/
def scientific (n : Style) (digits : List Char) (exponent : Int) : List Char :=
  let mantissa :=
    match digits with
    | [] => []
    | [d] => [d]
    | d :: rest => d :: '.' :: rest
  let sign := if exponent < 0 then '-' else '+'
  mantissa ++ 'e' :: sign :: padLeft n.exponentWidth (Nat.toDigits 10 exponent.natAbs)

/-- The text of a positive decimal. -/
def Scaled.write (n : Style) (s : Scaled) : List Char :=
  let all := Nat.toDigits 10 s.digits
  let digits := (all.reverse.dropWhile (· == '0')).reverse
  let exponent := s.power + (all.length : Int) - 1
  if n.least ≤ exponent ∧ exponent < n.limit then pointed digits (exponent + 1)
  else scientific n digits exponent

/-- The text of a floating-point number in a style. -/
def Style.write (n : Style) (x : Float) : String :=
  let signed (negative : Bool) (body : List Char) : String :=
    String.ofList (if negative then '-' :: body else body)
  match Binary.read x with
  | .nan => n.notANumber
  | .infinite negative => signed negative n.infinity.toList
  | .finite b =>
    signed b.negative (if b.mantissa = 0 then ['0', '.', '0'] else (shortest b).write n)

/-- The text of a floating-point number. -/
def text (x : Float) : String := standard.write x

end CiRunner.Decimal
