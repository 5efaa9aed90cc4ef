import CiRunner.Decimal.Binary
import CiRunner.Text.Blank
import CiRunner.Text.DecimalDigit
import CiRunner.Text.Hex

/-!
# Reading numbers

An integer is a sign and digits of any script, with single underscores allowed between digits and
blanks around the whole.  A floating-point number has in addition a point and an exponent, or is one
of the words for infinity and for no number.

Integers are read from and shown in no more than `maxDigits` digits, unless the base is a power of
two.
-/

namespace CiRunner.Decimal

open CiRunner.Text

/-- The most digits that an integer is read from or shown in. -/
def maxDigits : Nat := 4300

/-- A sign in front of a number: whether it is minus, and the rest. -/
def takeSign : List Char → Bool × List Char
  | '-' :: rest => (true, rest)
  | '+' :: rest => (false, rest)
  | rest => (false, rest)

/-- The value of a digit: a decimal digit of any script, or an ASCII letter from ten on. -/
def anyDigit? (c : Char) : Option Nat :=
  (decimalValue? c).orElse fun _ => digitValue? c

/-- Digits of a base with single underscores between them. -/
def separatedDigits? (base : Nat) (value : Nat) : List Char → Option Nat
  | [] => some value
  | c :: rest =>
    match (anyDigit? c).filter (· < base), rest with
    | some _, ['_'] => none
    | some d, '_' :: rest => separatedDigits? base (value * base + d) rest
    | some d, rest => separatedDigits? base (value * base + d) rest
    | none, _ => none

/-- The letter that may follow a zero in front of the digits of a base. -/
def baseLetter (base : Nat) : Option Char :=
  match base with
  | 2 => some 'b'
  | 8 => some 'o'
  | 16 => some 'x'
  | _ => none

/-- Drops the mark of a base, such as `0x`, and an underscore after it. -/
def dropBaseMark (base : Nat) (s : List Char) : List Char :=
  match s with
  | '0' :: c :: rest =>
    if baseLetter base = some c.toLower then
      match rest with
      | '_' :: rest' => rest'
      | _ => rest
    else s
  | _ => s

/-- Reads an integer written in a base. -/
def readInt? (base : Nat) (s : List Char) : Option Int :=
  let (negative, body) := takeSign (trimChars s)
  match dropBaseMark base body with
  | [] => none
  | '_' :: _ => none
  | digits =>
    if baseLetter base = none ∧ maxDigits < digits.countP (· != '_') then none
    else (separatedDigits? base 0 digits).map fun n => if negative then -(n : Int) else (n : Int)

/-- Reads an integer written in base ten. -/
def intOfText? (s : String) : Option Int := readInt? 10 s.toList

/-- Drops an underscore that stands before a digit. -/
def dropSeparator : List Char → List Char
  | '_' :: c :: rest => if (decimalValue? c).isSome then c :: rest else '_' :: c :: rest
  | rest => rest

theorem length_dropSeparator_le (s : List Char) : (dropSeparator s).length ≤ s.length := by
  fun_cases dropSeparator s <;> simp [*]

/-- Reads decimal digits with single underscores between them: the digits and the rest. -/
def takeDigits : List Char → List Nat × List Char
  | [] => ([], [])
  | c :: rest =>
    match decimalValue? c with
    | none => ([], c :: rest)
    | some d =>
      let (ds, r) := takeDigits (dropSeparator rest)
      (d :: ds, r)
termination_by s => s.length
decreasing_by
  have := length_dropSeparator_le rest
  simp only [List.length_cons]
  omega

/-- The number that decimal digits write. -/
def ofDigits (digits : List Nat) : Nat := digits.foldl (fun n d => n * 10 + d) 0

/-- The double nearest to `mantissa · 10 ^ power`.  Powers far beyond the range of doubles are
settled without computing them. -/
def nearestDecimal (negative : Bool) (mantissa : Nat) (power : Int) : Float :=
  let size : Int := (Nat.toDigits 10 mantissa).length + power
  if mantissa = 0 ∨ size < -400 then Binary.nearest negative 0 1
  else if 400 < size then Binary.nearest negative (tenTo 400) 1
  else Binary.nearest negative (mantissa * tenTo power.toNat) (tenTo (-power).toNat)

/-- Reads the exponent of a number: none gives zero. -/
def readExponent? : List Char → Option Int
  | [] => some 0
  | c :: rest =>
    if c = 'e' ∨ c = 'E' then
      let (negative, body) := takeSign rest
      match takeDigits body with
      | ([], _) => none
      | (ds, []) => some (if negative then -(ofDigits ds : Int) else (ofDigits ds : Int))
      | (_, _ :: _) => none
    else none

/-- Reads digits, a point, more digits and an exponent; digits are needed on one side of the
point. -/
def readDecimal? (negative : Bool) (s : List Char) : Option Float := do
  let (whole, rest) := takeDigits s
  let (fraction, rest) :=
    match rest with
    | '.' :: r => takeDigits r
    | _ => ([], rest)
  if whole.isEmpty && fraction.isEmpty then none
  else
    let exponent ← readExponent? rest
    pure (nearestDecimal negative (ofDigits (whole ++ fraction)) (exponent - fraction.length))

/-- A positive or negative infinity. -/
def infinite (negative : Bool) : Float := Binary.nearest negative (tenTo 400) 1

/-- The value that is no number. -/
def notANumber : Float := 0.0 / 0.0

/-- Reads a floating-point number. -/
def readFloat? (s : List Char) : Option Float :=
  let (negative, body) := takeSign (trimChars s)
  let word := String.ofList (body.map Char.toLower)
  if word = "inf" ∨ word = "infinity" then some (infinite negative)
  else if word = "nan" then some notANumber
  else readDecimal? negative body

end CiRunner.Decimal
