/-!
# Reading UTF-8

A character is written in one to four bytes.  The first byte tells how many follow and narrows the
range of the second; every later byte lies in `0x80 … 0xBF`.  `Utf8.decode?` refuses a sequence
that breaks the rules, `Utf8.decodeLossy` puts the replacement character U+FFFD for each maximal
part that could have begun a character.

The code points of halves of surrogate pairs are no characters.  `Utf8.decodeHalves?` takes them as
they come, each as the replacement character.
-/

namespace CiRunner.Text

/-- The replacement character. -/
def replacement : Char := Char.ofNat 0xFFFD

/-- The character of a code point, a half of a surrogate pair being replaced. -/
def charOfCode (code : Nat) : Char := if code.isValidChar then Char.ofNat code else replacement

namespace Utf8

/-- What a first byte announces: how many bytes follow, the range of the first of them, and the
bits the first byte contributes. -/
structure Lead where
  /-- The number of bytes that follow. -/
  more : Nat
  /-- The least value of the next byte. -/
  low : Nat
  /-- The greatest value of the next byte. -/
  high : Nat
  /-- The bits of the first byte that belong to the code point. -/
  bits : Nat

/-- Reads a first byte; `none` for a byte that begins no character.  Halves of pairs are taken or
not. -/
def lead? (halves : Bool) (b : Nat) : Option Lead :=
  if b < 0x80 then some ⟨0, 0, 0, b⟩
  else if 0xC2 ≤ b ∧ b ≤ 0xDF then some ⟨1, 0x80, 0xBF, b - 0xC0⟩
  else if b = 0xE0 then some ⟨2, 0xA0, 0xBF, 0⟩
  else if b = 0xED then some ⟨2, 0x80, if halves then 0xBF else 0x9F, 0xD⟩
  else if 0xE1 ≤ b ∧ b ≤ 0xEF then some ⟨2, 0x80, 0xBF, b - 0xE0⟩
  else if b = 0xF0 then some ⟨3, 0x90, 0xBF, 0⟩
  else if 0xF1 ≤ b ∧ b ≤ 0xF3 then some ⟨3, 0x80, 0xBF, b - 0xF0⟩
  else if b = 0xF4 then some ⟨3, 0x80, 0x8F, 4⟩
  else none

/-- Reads the bytes that a first byte announced: the code point and how many bytes were read, with
`none` as the code point when a byte does not fit. -/
def follow (code count low high : Nat) : Nat → List UInt8 → Option Nat × Nat
  | 0, _ => (some code, count)
  | _ + 1, [] => (none, count)
  | more + 1, b :: rest =>
    let n := b.toNat
    if low ≤ n ∧ n ≤ high then follow (code * 64 + (n - 0x80)) (count + 1) 0x80 0xBF more rest
    else (none, count)

/-- Reads one character: it, or `none` for a part that is no character, and the number of bytes
after the first that belong to it. -/
def next (halves : Bool) (b : UInt8) (rest : List UInt8) : Option Char × Nat :=
  match lead? halves b.toNat with
  | none => (none, 0)
  | some l =>
    let (code?, count) := follow l.bits 0 l.low l.high l.more rest
    (code?.map charOfCode, count)

/-- The characters of a byte sequence, with `none` for each maximal part that is not a character. -/
def characters (halves : Bool) : List UInt8 → List (Option Char)
  | [] => []
  | b :: rest =>
    let (c, count) := next halves b rest
    c :: characters halves (rest.drop count)
termination_by bytes => bytes.length
decreasing_by simp only [List.length_drop, List.length_cons]; omega

/-- The characters of a byte sequence that is entirely UTF-8. -/
def decode? (bytes : List UInt8) : Option (List Char) :=
  (characters false bytes).mapM id

/-- The characters of a byte sequence that is UTF-8 but for halves of pairs, which are replaced. -/
def decodeHalves? (bytes : List UInt8) : Option (List Char) :=
  (characters true bytes).mapM id

/-- The characters of a byte sequence, U+FFFD standing for each maximal part that is none. -/
def decodeLossy (bytes : List UInt8) : List Char :=
  (characters false bytes).map (·.getD replacement)

/-- The bytes of a text. -/
def encode (s : String) : List UInt8 :=
  s.toUTF8.toList

end Utf8

end CiRunner.Text
