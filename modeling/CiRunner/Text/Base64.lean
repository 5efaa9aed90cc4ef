/-!
# Base64

Four characters of the alphabet carry three bytes.  Characters outside the alphabet are skipped; the
last group is filled up with equals signs, and what follows a filled group is not read.
-/

namespace CiRunner.Text.Base64

/-- The six bits that a character of the alphabet carries. -/
def sextet? (c : Char) : Option Nat :=
  if 'A' ≤ c ∧ c ≤ 'Z' then some (c.toNat - 65)
  else if 'a' ≤ c ∧ c ≤ 'z' then some (c.toNat - 71)
  else if c.isDigit then some (c.toNat + 4)
  else if c = '+' then some 62
  else if c = '/' then some 63
  else none

/-- Decodes from inside a group: `place` characters of it were read, `left` holds the bits that no
byte has yet, and `pads` counts the equals signs just read. -/
def decodeFrom? (place left pads : Nat) : List Char → Option (List UInt8)
  | [] => if place = 0 then some [] else none
  | c :: rest =>
    if c = '=' then
      if 2 ≤ place then
        if 4 ≤ place + pads + 1 then some [] else decodeFrom? place left (pads + 1) rest
      else decodeFrom? place left pads rest
    else
      match sextet? c with
      | none => decodeFrom? place left pads rest
      | some bits =>
        match place with
        | 0 => decodeFrom? 1 bits 0 rest
        | 1 => (decodeFrom? 2 (bits % 16) 0 rest).map (UInt8.ofNat (left * 4 + bits / 16) :: ·)
        | 2 => (decodeFrom? 3 (bits % 4) 0 rest).map (UInt8.ofNat (left * 16 + bits / 4) :: ·)
        | _ => (decodeFrom? 0 0 0 rest).map (UInt8.ofNat (left * 64 + bits) :: ·)

/-- Decodes a text; `none` when its last group is not complete. -/
def decode? (s : List Char) : Option (List UInt8) := decodeFrom? 0 0 0 s

end CiRunner.Text.Base64
