import CiRunner.Decimal.Reading
import CiRunner.Text.WideUnits
import CiRunner.Value.Basic

/-!
# Reading JSON

A document is read from bytes: the encoding is told from the first of them, then the text has to be
one value with blanks around it.  The words `NaN`, `Infinity` and `-Infinity` are numbers, and of
two entries of an object with the same key the later one counts, at the place of the earlier one.

Half of a surrogate pair, which may stand in a text as bytes or as an escape, is read as U+FFFD, and
values may nest as deep as they like.
-/

namespace CiRunner.Json

open CiRunner.Text CiRunner.Decimal

/-- The blanks between the parts of a document. -/
def isSpace (c : Char) : Bool := c == ' ' || c == '\t' || c == '\n' || c == '\r'

/-- The document without the blanks it begins with. -/
def skipSpace (s : List Char) : List Char := s.dropWhile isSpace

/-- The character that an escape letter stands for. -/
def escaped? (c : Char) : Option Char :=
  if c = '"' ∨ c = '\\' ∨ c = '/' then some c
  else if c = 'b' then some '\x08' else if c = 'f' then some '\x0c'
  else if c = 'n' then some '\n' else if c = 'r' then some '\r'
  else if c = 't' then some '\t' else none

/-- Reads the rest of a string up to its closing quote: its 16-bit units and characters as numbers,
and the text after it. -/
def readUnits? : List Char → Option (List Nat × List Char)
  | [] => none
  | '"' :: rest => some ([], rest)
  | '\\' :: 'u' :: a :: b :: c :: d :: rest => do
    let n ← digitsValue? 16 [a, b, c, d]
    let (units, after) ← readUnits? rest
    pure (n :: units, after)
  | '\\' :: c :: rest => do
    let e ← escaped? c
    let (units, after) ← readUnits? rest
    pure (e.toNat :: units, after)
  | c :: rest =>
    if c.toNat < 0x20 then none
    else do
      let (units, after) ← readUnits? rest
      pure (c.toNat :: units, after)

/-- Reads the rest of a string after its opening quote. -/
def readString? (s : List Char) : Option (String × List Char) :=
  (readUnits? s).map fun (units, after) => (String.ofList (WideUnits.ofUnits units), after)

/-- The value of ASCII digits. -/
def digitsOf (s : List Char) : List Nat := s.map fun c => c.toNat - 48

/-- Reads the fraction of a number: its digits, or `none` if there is no point with a digit after
it. -/
def readFraction (s : List Char) : Option (List Char) × List Char :=
  match s with
  | '.' :: rest =>
    let digits := rest.takeWhile Char.isDigit
    if digits.isEmpty then (none, s) else (some digits, rest.dropWhile Char.isDigit)
  | _ => (none, s)

/-- Reads the exponent of a number, or `none` if there is no mark with a digit after it. -/
def readPower (s : List Char) : Option Int × List Char :=
  match s with
  | c :: rest =>
    if c = 'e' ∨ c = 'E' then
      let (negative, body) := takeSign rest
      let digits := body.takeWhile Char.isDigit
      if digits.isEmpty then (none, s)
      else
        let n : Int := ofDigits (digitsOf digits)
        (some (if negative then -n else n), body.dropWhile Char.isDigit)
    else (none, s)
  | [] => (none, s)

/-- Reads a number.  Without fraction and exponent it is an integer. -/
def readNumber? (s : List Char) : Option (Value × List Char) :=
  let (negative, body) :=
    match s with
    | '-' :: rest => (true, rest)
    | _ => (false, s)
  let whole :=
    match body with
    | '0' :: _ => ['0']
    | _ => body.takeWhile Char.isDigit
  if whole.isEmpty then none
  else
    let rest := body.drop whole.length
    let (fraction?, rest) := readFraction rest
    let (power?, rest) := readPower rest
    match fraction?, power? with
    | none, none =>
      if maxDigits < whole.length then none
      else
        let n : Int := ofDigits (digitsOf whole)
        some (.int (if negative then -n else n), rest)
    | _, _ =>
      let fraction := fraction?.getD []
      some (.float (nearestDecimal negative (ofDigits (digitsOf (whole ++ fraction)))
        (power?.getD 0 - fraction.length)), rest)

/-- Reads a word with a meaning, or else a number. -/
def readWord? (s : List Char) : Option (Value × List Char) :=
  match s with
  | 'n' :: 'u' :: 'l' :: 'l' :: rest => some (.null, rest)
  | 't' :: 'r' :: 'u' :: 'e' :: rest => some (.bool true, rest)
  | 'f' :: 'a' :: 'l' :: 's' :: 'e' :: rest => some (.bool false, rest)
  | 'N' :: 'a' :: 'N' :: rest => some (.float notANumber, rest)
  | 'I' :: 'n' :: 'f' :: 'i' :: 'n' :: 'i' :: 't' :: 'y' :: rest =>
    some (.float (infinite false), rest)
  | '-' :: 'I' :: 'n' :: 'f' :: 'i' :: 'n' :: 'i' :: 't' :: 'y' :: rest =>
    some (.float (infinite true), rest)
  | _ => readNumber? s

mutual

/-- Reads a value that begins here; the number bounds how deep and how far the reading goes. -/
def readValue? : Nat → List Char → Option (Value × List Char)
  | 0, _ => none
  | n + 1, s =>
    match s with
    | '"' :: rest => (readString? rest).map fun (t, after) => (.text t, after)
    | '[' :: rest =>
      match skipSpace rest with
      | ']' :: after => some (.list [], after)
      | rest => (readItems? n rest).map fun (items, after) => (.list items, after)
    | '\x7b' :: rest =>
      match skipSpace rest with
      | '\x7d' :: after => some (.map [], after)
      | rest => (readEntries? n rest).map fun (es, after) => (.map (Value.ofEntries es), after)
    | _ => readWord? s

/-- Reads the items of a list, at least one, up to its closing bracket. -/
def readItems? : Nat → List Char → Option (List Value × List Char)
  | 0, _ => none
  | n + 1, s => do
    let (v, rest) ← readValue? n (skipSpace s)
    match skipSpace rest with
    | ',' :: rest =>
      let (vs, after) ← readItems? n rest
      pure (v :: vs, after)
    | ']' :: after => pure ([v], after)
    | _ => none

/-- Reads the entries of an object, at least one, up to its closing brace. -/
def readEntries? : Nat → List Char → Option (List (Value × Value) × List Char)
  | 0, _ => none
  | n + 1, s =>
    match skipSpace s with
    | '"' :: rest => do
      let (key, rest) ← readString? rest
      match skipSpace rest with
      | ':' :: rest =>
        let (v, rest) ← readValue? n (skipSpace rest)
        match skipSpace rest with
        | ',' :: rest =>
          let (es, after) ← readEntries? n rest
          pure ((.text key, v) :: es, after)
        | '\x7d' :: after => pure ([(.text key, v)], after)
        | _ => none
      | _ => none
    | _ => none

end

/-- Reads a document from its characters. -/
def ofChars? (s : List Char) : Option Value := do
  let (v, rest) ← readValue? (2 * s.length + 2) (skipSpace s)
  if (skipSpace rest).isEmpty then some v else none

/-! ### Encodings -/

/-- The characters of a document, its encoding told from a mark at the beginning or else from where
the first four bytes are zero. -/
def decode? (bytes : List UInt8) : Option (List Char) :=
  match bytes with
  | 0 :: 0 :: 0xFE :: 0xFF :: rest => WideUnits.decode32? .big rest
  | 0xFF :: 0xFE :: 0 :: 0 :: rest => WideUnits.decode32? .little rest
  | 0xFE :: 0xFF :: rest => WideUnits.decode16? .big rest
  | 0xFF :: 0xFE :: rest => WideUnits.decode16? .little rest
  | 0xEF :: 0xBB :: 0xBF :: rest => Utf8.decodeHalves? rest
  | a :: b :: c :: d :: _ =>
    if a == 0 then
      if b == 0 then WideUnits.decode32? .big bytes else WideUnits.decode16? .big bytes
    else if b == 0 then
      if c == 0 && d == 0 then WideUnits.decode32? .little bytes
      else WideUnits.decode16? .little bytes
    else Utf8.decodeHalves? bytes
  | [a, b] =>
    if a == 0 then WideUnits.decode16? .big bytes
    else if b == 0 then WideUnits.decode16? .little bytes
    else Utf8.decodeHalves? bytes
  | _ => Utf8.decodeHalves? bytes

/-- Reads a document from its bytes. -/
def ofBytes? (bytes : List UInt8) : Option Value := decode? bytes >>= ofChars?

end CiRunner.Json
