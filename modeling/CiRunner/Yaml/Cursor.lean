/-!
# Positions in a text

A cursor stands before a character of a text and knows the line and the column.  At the end of the
text it looks at the character NUL, which no admissible text contains.
-/

namespace CiRunner.Yaml

/-- Why a document cannot be read. -/
inductive Error where
  /-- The text is not well formed, or a part of it has a meaning it cannot have there. -/
  | malformed
  /-- A scalar whose tag says number or date is none. -/
  | badScalar
  /-- A scalar whose tag says truth value is none. -/
  | badTruthValue
  /-- A scalar whose tag says number is empty. -/
  | emptyNumber
  /-- A scalar whose tag says moment has not the form of one. -/
  | badMoment
  /-- A number in base sixty has so many digits that the last counts more than every floating-point
  number. -/
  | tooLarge
  /-- Anything else that ends the reading, by the name of its kind: collections that nest too deep,
  for instance. -/
  | other (kind : String)
  deriving DecidableEq, Repr

/-- A line break or the end of the text. -/
def isBreakOrEnd (c : Char) : Bool :=
  c == '\x00' || c == '\r' || c == '\n' || c.toNat == 0x85 || c.toNat == 0x2028 || c.toNat == 0x2029

/-- A line break. -/
def isBreak (c : Char) : Bool := c != '\x00' && isBreakOrEnd c

/-- A space, a line break or the end of the text. -/
def isSpaceOrEnd (c : Char) : Bool := c == ' ' || isBreakOrEnd c

/-- A space, a tab, a line break or the end of the text. -/
def isGapOrEnd (c : Char) : Bool := c == '\t' || isSpaceOrEnd c

/-- A space or a tab. -/
def isSpaceOrTab (c : Char) : Bool := c == ' ' || c == '\t'

/-- The characters that may stand in a document. -/
def isAdmissible (c : Char) : Bool :=
  let n := c.toNat
  n == 9 || n == 10 || n == 13 || (0x20 ≤ n && n ≤ 0x7E) || n == 0x85 || (0xA0 ≤ n && n ≤ 0xD7FF) ||
    (0xE000 ≤ n && n ≤ 0xFFFD) || 0x10000 ≤ n

/-- A place in a text. -/
structure Cursor where
  /-- The text from here on. -/
  rest : List Char
  /-- The number of characters before this place. -/
  index : Nat := 0
  /-- The number of lines before this one. -/
  line : Nat := 0
  /-- The number of characters before this place on its line. -/
  column : Nat := 0
  deriving Repr, Inhabited

namespace Cursor

/-- The character some places ahead. -/
def peek (c : Cursor) (ahead : Nat := 0) : Char := c.rest.getD ahead '\x00'

/-- The place after the next character.  A byte order mark takes no column. -/
def step (c : Cursor) : Cursor :=
  match c.rest with
  | [] => c
  | ch :: rest =>
    if isBreak ch && !(ch == '\r' && rest.head? == some '\n') then
      { rest, index := c.index + 1, line := c.line + 1, column := 0 }
    else
      { rest, index := c.index + 1, line := c.line
        column := if ch.toNat == 0xFEFF then c.column else c.column + 1 }

/-- The place some characters ahead. -/
def skip (c : Cursor) : Nat → Cursor
  | 0 => c
  | n + 1 => c.step.skip n

/-- The longest run of characters of a kind from here on, and the place after it. -/
def span (c : Cursor) (p : Char → Bool) : List Char × Cursor :=
  let taken := c.rest.takeWhile p
  (taken, c.skip taken.length)

/-- The place after the longest run of characters of a kind. -/
def skipWhile (c : Cursor) (p : Char → Bool) : Cursor := (c.span p).2

/-- The place after the longest run of spaces that ends at or before a column. -/
def skipIndent (c : Cursor) (column : Nat) : Cursor :=
  c.skip ((c.rest.takeWhile (· == ' ')).take (column - c.column)).length

/-- Whether the text ends here. -/
def atEnd (c : Cursor) : Bool := c.rest.isEmpty

/-- The line break at this place, in the form in which it belongs to a text, and the place after
it. -/
def lineBreak? (c : Cursor) : Option (Char × Cursor) :=
  match c.rest with
  | '\r' :: '\n' :: _ => some ('\n', c.skip 2)
  | ch :: _ =>
    if isBreak ch then
      some (if ch.toNat == 0x2028 || ch.toNat == 0x2029 then ch else '\n', c.step)
    else none
  | [] => none

/-- Whether a line of three hyphens, or of three full stops, stands here and so separates
documents. -/
def atSeparator (c : Cursor) : Bool :=
  let three := c.rest.take 3
  (three == ['-', '-', '-'] || three == ['.', '.', '.']) && isGapOrEnd (c.peek 3)

/-- The place after the blanks and the comment that may end a line, which has to end there. -/
def endOfLine (c : Cursor) : Except Error Cursor :=
  let c := c.skipWhile (· == ' ')
  let c := if c.peek == '#' then c.skipWhile (!isBreakOrEnd ·) else c
  if isBreakOrEnd c.peek then .ok ((c.lineBreak?.map (·.2)).getD c) else .error .malformed

end Cursor

end CiRunner.Yaml
