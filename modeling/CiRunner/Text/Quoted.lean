import CiRunner.Text.Hex
import CiRunner.Text.Printable

/-!
# Quoted texts

A quoted text stands between single quotes, or between double quotes when it holds a single quote
and no double one.  A backslash and the quote in use are escaped by a backslash; line ends and tabs
have letters of their own; any other character that is not printable is written by its code point.
-/

namespace CiRunner.Text.Quoted

/-- The quote put around a text, given whether single and double quotes occur in it. -/
def quoteFor (hasSingle hasDouble : Bool) : Char :=
  if hasSingle && !hasDouble then '"' else '\''

/-- The code point of a character in two, four or eight hexadecimal digits. -/
def escapeCode (n : Nat) : List Char :=
  if n < 0x100 then '\\' :: 'x' :: hexDigits 2 n
  else if n < 0x10000 then '\\' :: 'u' :: hexDigits 4 n
  else '\\' :: 'U' :: hexDigits 8 n

/-- One character between quotes. -/
def escapeChar (quote c : Char) : List Char :=
  if c = '\\' || c = quote then ['\\', c]
  else if c = '\n' then ['\\', 'n']
  else if c = '\r' then ['\\', 'r']
  else if c = '\t' then ['\\', 't']
  else if isPrintable c then [c]
  else escapeCode c.toNat

/-- The characters of a quoted text. -/
def encode (s : List Char) : List Char :=
  let quote := quoteFor (s.contains '\'') (s.contains '"')
  quote :: (s.flatMap (escapeChar quote) ++ [quote])

/-- One byte between quotes: printable ASCII as itself, any other by its value. -/
def escapeByte (quote : Char) (b : UInt8) : List Char :=
  if b.toNat < 0x7F then escapeChar quote (Char.ofNat b.toNat) else escapeCode b.toNat

/-- The characters of quoted bytes, which begin with a mark in front of the quote. -/
def encodeBytes (bytes : List UInt8) : List Char :=
  let quote := quoteFor (bytes.contains 39) (bytes.contains 34)
  'b' :: quote :: (bytes.flatMap (escapeByte quote) ++ [quote])

end CiRunner.Text.Quoted

namespace CiRunner.Text

/-- A text between quotes. -/
def quoted (s : String) : String := String.ofList (Quoted.encode s.toList)

end CiRunner.Text
