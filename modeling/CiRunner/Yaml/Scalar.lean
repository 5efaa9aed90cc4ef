import CiRunner.Text.Hex
import CiRunner.Text.Utf8
import CiRunner.Yaml.Cursor

/-!
# Reading scalars

A scalar is written plainly, between quotes or as an indented block.  Line breaks inside plain and
quoted scalars are folded: one break becomes a space, of several all but the first are kept.  In
each reader the number counts down the characters left, of which every round takes at least one.  An
escape that writes half of a surrogate pair is read as U+FFFD.
-/

namespace CiRunner.Yaml

open CiRunner.Text

/-! ### Quoted scalars -/

/-- The line breaks of empty lines, with the blanks around them left out. -/
def readQuotedBreaks : Nat → Cursor → Except Error (List Char × Cursor)
  | 0, c => .ok ([], c)
  | n + 1, c =>
    if c.atSeparator then .error .malformed
    else
      let c := c.skipWhile isSpaceOrTab
      match c.lineBreak? with
      | none => .ok ([], c)
      | some (b, c) => do
        let (bs, c) ← readQuotedBreaks n c
        pure (b :: bs, c)

/-- Folds a line break and the breaks of the empty lines after it. -/
def fold (b : Char) (more : List Char) : List Char :=
  if b != '\n' then b :: more
  else if more.isEmpty then [' ']
  else more

/-- The character that an escape letter stands for. -/
def escapeLetter? (c : Char) : Option Char :=
  match c with
  | '0' => some '\x00'
  | 'a' => some '\x07'
  | 'b' => some '\x08'
  | 't' | '\t' => some '\t'
  | 'n' => some '\n'
  | 'v' => some '\x0b'
  | 'f' => some '\x0c'
  | 'r' => some '\r'
  | 'e' => some '\x1b'
  | ' ' | '"' | '\\' | '/' => some c
  | 'N' => some '\u0085'
  | '_' => some '\u00a0'
  | 'L' => some '\u2028'
  | 'P' => some '\u2029'
  | _ => none

/-- How many hexadecimal digits an escape letter asks for. -/
def escapeWidth? (c : Char) : Option Nat :=
  match c with
  | 'x' => some 2
  | 'u' => some 4
  | 'U' => some 8
  | _ => none

/-- Reads an escape after its backslash. -/
def readEscape (c : Cursor) : Except Error (List Char × Cursor) :=
  match escapeLetter? c.peek, escapeWidth? c.peek with
  | some ch, _ => .ok ([ch], c.step)
  | none, some width =>
    let c := c.step
    let digits := c.rest.take width
    match if digits.length = width then digitsValue? 16 digits else none with
    | none => .error .malformed
    | some code =>
      if code < 0x110000 then
        .ok ([charOfCode code], c.skip width)
      else .error .badScalar
  | none, none =>
    match c.lineBreak? with
    | none => .error .malformed
    | some (_, c) => readQuotedBreaks (c.rest.length + 1) c

/-- Whether a character may be taken as it is inside quotes. -/
def isQuotable (c : Char) : Bool :=
  !(c == '\'' || c == '"' || c == '\\' || isGapOrEnd c)

/-- The text inside quotes up to the closing quote or the next blank. -/
def readQuotedWord (double : Bool) : Nat → Cursor → Except Error (List Char × Cursor)
  | 0, c => .ok ([], c)
  | n + 1, c => do
    let (word, c) := c.span isQuotable
    let ch := c.peek
    if !double && ch == '\'' && c.peek 1 == '\'' then
      let (more, c) ← readQuotedWord double n (c.skip 2)
      pure (word ++ '\'' :: more, c)
    else if (double && ch == '\'') || (!double && (ch == '"' || ch == '\\')) then
      let (more, c) ← readQuotedWord double n c.step
      pure (word ++ ch :: more, c)
    else if double && ch == '\\' then
      let (escaped, c) ← readEscape c.step
      let (more, c) ← readQuotedWord double n c
      pure (word ++ escaped ++ more, c)
    else pure (word, c)

/-- The blanks inside quotes, folded if they hold a line break. -/
def readQuotedSpace (c : Cursor) : Except Error (List Char × Cursor) := do
  let (blanks, c) := c.span isSpaceOrTab
  if c.atEnd then throw .malformed
  match c.lineBreak? with
  | none => pure (blanks, c)
  | some (b, c) =>
    let (more, c) ← readQuotedBreaks (c.rest.length + 1) c
    pure (fold b more, c)

/-- Words and blanks up to the closing quote. -/
def readQuotedRest (quote : Char) : Nat → Cursor → Except Error (List Char × Cursor)
  | 0, _ => .error .malformed
  | n + 1, c => do
    if c.peek == quote then pure ([], c.step)
    else
      let (blanks, c) ← readQuotedSpace c
      let (word, c) ← readQuotedWord (quote == '"') (c.rest.length + 1) c
      let (more, c) ← readQuotedRest quote n c
      pure (blanks ++ word ++ more, c)

/-- Reads a quoted scalar from its opening quote on. -/
def readQuoted (c : Cursor) : Except Error (List Char × Cursor) := do
  let quote := c.peek
  let c := c.step
  let (word, c) ← readQuotedWord (quote == '"') (c.rest.length + 1) c
  let (more, c) ← readQuotedRest quote (c.rest.length + 1) c
  pure (word ++ more, c)

/-! ### Blocks -/

/-- What becomes of the line breaks at the end of a block. -/
inductive Chomping where
  /-- All are dropped. -/
  | strip
  /-- The first one is kept. -/
  | clip
  /-- All are kept. -/
  | keep
  deriving DecidableEq, Repr

/-- Reads a sign that says what becomes of the last line breaks. -/
def readChomping (c : Cursor) : Chomping × Cursor :=
  if c.peek == '+' then (.keep, c.step)
  else if c.peek == '-' then (.strip, c.step)
  else (.clip, c)

/-- Reads a digit that gives the indentation of a block; zero is refused. -/
def readIncrement (c : Cursor) : Except Error (Option Nat × Cursor) :=
  if c.peek.isDigit then
    if c.peek == '0' then .error .malformed else .ok (some (c.peek.toNat - 48), c.step)
  else .ok (none, c)

/-- Reads the signs behind the mark of a block, in either order. -/
def readBlockHeader (c : Cursor) : Except Error (Chomping × Option Nat × Cursor) := do
  let (chomping, after) := readChomping c
  let (increment, after) ← readIncrement after
  let (chomping, after) := if chomping = .clip then readChomping after else (chomping, after)
  if isSpaceOrEnd after.peek then pure (chomping, increment, after) else throw .malformed

/-- The breaks of the empty lines before a block whose indentation is not given, and the largest
number of spaces on them or on its first line. -/
def readBlockIndent (widest : Nat) : Nat → Cursor → List Char × Nat × Cursor
  | 0, c => ([], widest, c)
  | n + 1, c =>
    if c.peek == ' ' then
      let c := c.step
      readBlockIndent (max widest c.column) n c
    else
      match c.lineBreak? with
      | none => ([], widest, c)
      | some (b, c) =>
        let (bs, widest, c) := readBlockIndent widest n c
        (b :: bs, widest, c)

/-- The breaks of empty lines in a block, up to the indentation of the next line. -/
def readBlockBreaks (indent : Nat) : Nat → Cursor → List Char × Cursor
  | 0, c => ([], c)
  | n + 1, c =>
    let c := c.skipIndent indent
    match c.lineBreak? with
    | none => ([], c)
    | some (b, c) =>
      let (bs, c) := readBlockBreaks indent n c
      (b :: bs, c)

/-- The break between two lines of a block, given whether blocks fold and whether a line begins with
a blank. -/
def joinLines (folded firstOpen nextOpen : Bool) (b breaks : List Char) : List Char :=
  if folded && b == ['\n'] && firstOpen && nextOpen then
    if breaks.isEmpty then [' '] else []
  else b

/-- The lines of a block: its text up to the end of its last line, the break there, the breaks of
the empty lines after it and the place after them. -/
def readBlockLines (folded : Bool) (indent : Nat) (breaks : List Char) :
    Nat → Cursor → List Char × List Char × List Char × Cursor
  | 0, c => ([], [], breaks, c)
  | n + 1, c =>
    if c.column == indent && !c.atEnd then
      let firstOpen := !isSpaceOrTab c.peek
      let (line, c) := c.span (!isBreakOrEnd ·)
      let (b, c) :=
        match c.lineBreak? with
        | some (b, c) => ([b], c)
        | none => ([], c)
      let (more, c) := readBlockBreaks indent (c.rest.length + 1) c
      if c.column == indent && !c.atEnd then
        let joint := joinLines folded firstOpen (!isSpaceOrTab c.peek) b more
        let (text, last, tail, c) := readBlockLines folded indent more n c
        (breaks ++ line ++ joint ++ text, last, tail, c)
      else (breaks ++ line, b, more, c)
    else ([], [], breaks, c)

/-- Reads a block from its mark on; `parent` is the indentation around it. -/
def readBlock (parent : Int) (c : Cursor) : Except Error (List Char × Cursor) := do
  let folded := c.peek == '>'
  let (chomping, increment, c) ← readBlockHeader c.step
  let c ← c.endOfLine
  let least := (max (parent + 1) 1).toNat
  let (breaks, indent, c) :=
    match increment with
    | none =>
      let (breaks, widest, c) := readBlockIndent 0 (c.rest.length + 1) c
      (breaks, max least widest, c)
    | some k =>
      let indent := least + k - 1
      let (breaks, c) := readBlockBreaks indent (c.rest.length + 1) c
      (breaks, indent, c)
  let (text, last, tail, c) := readBlockLines folded indent breaks (c.rest.length + 1) c
  let ending :=
    match chomping with
    | .strip => []
    | .clip => last
    | .keep => last ++ tail
  pure (text ++ ending, c)

/-! ### Plain scalars -/

/-- A sign that ends a plain scalar inside brackets. -/
def isFlowSign (c : Char) : Bool :=
  c == ',' || c == '[' || c == ']' || c == '\x7b' || c == '\x7d'

/-- The length of the next word of a plain scalar.  A colon ends it before a blank, and inside
brackets also before one of their signs. -/
def plainWordLength (inFlow : Bool) : List Char → Nat
  | [] => 0
  | ch :: rest =>
    let next := rest.headD '\x00'
    if isGapOrEnd ch || (ch == ':' && (isGapOrEnd next || (inFlow && isFlowSign next))) ||
        (inFlow && (ch == '?' || isFlowSign ch)) then 0
    else plainWordLength inFlow rest + 1

/-- The breaks of empty lines inside a plain scalar; `none` when documents are separated there. -/
def readPlainBreaks : Nat → Cursor → Option (List Char) × Cursor
  | 0, c => (some [], c)
  | n + 1, c =>
    if c.peek == ' ' then readPlainBreaks n c.step
    else
      match c.lineBreak? with
      | none => (some [], c)
      | some (b, c) =>
        if c.atSeparator then (none, c)
        else
          let (bs, c) := readPlainBreaks n c
          (bs.map (b :: ·), c)

/-- The blanks after a word of a plain scalar, folded if they hold a line break; whether they do is
told too.  Nothing is left of them where documents are separated. -/
def readPlainSpace (c : Cursor) : List Char × Bool × Cursor :=
  let (blanks, c) := c.span (· == ' ')
  match c.lineBreak? with
  | none => (blanks, false, c)
  | some (b, c) =>
    if c.atSeparator then ([], true, c)
    else
      let (more, c) := readPlainBreaks (c.rest.length + 1) c
      ((more.map (fold b)).getD [], true, c)

/-- The words of a plain scalar: its text, the place after the blanks that follow it, and whether
those hold a line break. -/
def readPlainWords (inFlow : Bool) (indent : Int) (blanks : List Char) (broken : Bool) :
    Nat → Cursor → List Char × Bool × Cursor
  | 0, c => ([], broken, c)
  | n + 1, c =>
    let length := if c.peek == '#' then 0 else plainWordLength inFlow c.rest
    if length = 0 then ([], broken, c)
    else
      let word := c.rest.take length
      let (space, broken, c) := readPlainSpace (c.skip length)
      if space.isEmpty || c.peek == '#' || (!inFlow && (c.column : Int) < indent) then
        (blanks ++ word, broken, c)
      else
        let (more, broken, c) := readPlainWords inFlow indent space broken n c
        (blanks ++ word ++ more, broken, c)

/-- Reads a plain scalar; `parent` is the indentation around it. -/
def readPlain (inFlow : Bool) (parent : Int) (c : Cursor) : List Char × Bool × Cursor :=
  readPlainWords inFlow (parent + 1) [] false (c.rest.length + 1) c

end CiRunner.Yaml
