import CiRunner.Text.Utf8

/-!
# Reading texts of 16-bit and 32-bit units

Text may also be stored as units of two or four bytes, in either byte order.  A character above
U+FFFF takes a pair of 16-bit units, a high one and then a low one.  A half without its partner is
replaced by U+FFFD.
-/

namespace CiRunner.Text

/-- Which byte of a unit comes first. -/
inductive ByteOrder where
  /-- The most significant byte comes first. -/
  | big
  /-- The least significant byte comes first. -/
  | little
  deriving DecidableEq, Repr

namespace WideUnits

/-- The number that a group of bytes stands for. -/
def unit (order : ByteOrder) (bytes : List UInt8) : Nat :=
  match order with
  | .big => bytes.foldl (fun n b => n * 256 + b.toNat) 0
  | .little => bytes.foldr (fun b n => n * 256 + b.toNat) 0

/-- The 16-bit units of a byte sequence of even length. -/
def units16? (order : ByteOrder) : List UInt8 → Option (List Nat)
  | [] => some []
  | a :: b :: rest => (units16? order rest).map (unit order [a, b] :: ·)
  | [_] => none

/-- The 32-bit units of a byte sequence whose length is a multiple of four. -/
def units32? (order : ByteOrder) : List UInt8 → Option (List Nat)
  | [] => some []
  | a :: b :: c :: d :: rest => (units32? order rest).map (unit order [a, b, c, d] :: ·)
  | _ => none

/-- A high unit opens a pair. -/
def isHigh (n : Nat) : Bool := 0xD800 ≤ n && n < 0xDC00

/-- A low unit closes a pair. -/
def isLow (n : Nat) : Bool := 0xDC00 ≤ n && n < 0xE000

/-- The characters of a sequence of units: a high unit and the low unit after it make one character,
and a unit without its partner is replaced. -/
def ofUnits : List Nat → List Char
  | [] => []
  | [n] => [charOfCode n]
  | n :: m :: rest =>
    if isHigh n && isLow m then
      Char.ofNat (0x10000 + (n - 0xD800) * 0x400 + (m - 0xDC00)) :: ofUnits rest
    else charOfCode n :: ofUnits (m :: rest)

/-- The characters of a sequence of code points, with halves of pairs replaced. -/
def ofCodes? (codes : List Nat) : Option (List Char) :=
  codes.mapM fun n => if n < 0x110000 then some (charOfCode n) else none

/-- Reads text stored as 16-bit units. -/
def decode16? (order : ByteOrder) (bytes : List UInt8) : Option (List Char) :=
  (units16? order bytes).map ofUnits

/-- Reads text stored as 32-bit units. -/
def decode32? (order : ByteOrder) (bytes : List UInt8) : Option (List Char) :=
  units32? order bytes >>= ofCodes?

end WideUnits

end CiRunner.Text
