import CiRunner.Json.Reader

/-!
# Plain values

A value may nest as deep as it likes, an integer may have any number of digits, and half of a
surrogate pair is read as U+FFFD.  Whatever works through a value piece by piece has a stack that
ends at some depth, refuses to show an integer of too many digits, and tells the halves of surrogate
pairs apart. None of this comes up with a value that is plain, nor with a document that is.
-/

namespace CiRunner

open Decimal

/-- How deep parts may stand in one another so that the depth surely does no harm. -/
def safeDepth : Nat := 100

namespace Value

/-- Collections in a value nest at most a number of times, no integer in it has more digits than are
shown, and no character of its texts stands for half of a surrogate pair. -/
def isPlainWithin : Nat → Value → Bool
  | _, int n => n.natAbs < tenTo maxDigits
  | _, text s => !s.toList.contains '\uFFFD'
  | room + 1, list items => items.all (isPlainWithin room)
  | room + 1, pair a b => isPlainWithin room a && isPlainWithin room b
  | room + 1, map entries =>
    entries.all fun e => isPlainWithin room e.1 && isPlainWithin room e.2
  | room + 1, set members => members.all (isPlainWithin room)
  | 0, list _ | 0, pair _ _ | 0, map _ | 0, set _ => false
  | _, _ => true

/-- A value is plain. -/
def isPlain (v : Value) : Bool := v.isPlainWithin safeDepth

end Value

namespace Json

/-- The brackets and braces of a document nest at most a number of times, within a string or not.
Those in strings do not count. -/
def isShallow : (room : Nat) → (quoted : Bool) → List Char → Bool
  | _, _, [] => true
  | room, true, '\\' :: _ :: rest => isShallow room true rest
  | room, true, c :: rest => isShallow room (c != '"') rest
  | room, false, c :: rest =>
    if c = '[' ∨ c = '\x7b' then room != 0 && isShallow (room - 1) false rest
    else if c = ']' ∨ c = '\x7d' then isShallow (room + 1) false rest
    else isShallow room (c == '"') rest

/-- A document is plain: its brackets and braces do not nest too deep, whether it can be read or
not, and if it can be read, its value is plain. -/
def isPlain (body : List UInt8) : Bool :=
  (decode? body).all (isShallow safeDepth false) && (ofBytes? body).all Value.isPlain

end Json

end CiRunner
