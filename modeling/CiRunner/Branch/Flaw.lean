/-!
# Flaws of an expression

A text that is no regular expression has a first flaw.  `Flaw` says what it is and where: it counts
the characters from the flaw to the end of the text, since a reader that goes from left to right
knows what is left of the text.  `Flaw.message` counts from the beginning instead, and by lines if
the text has several.
-/

namespace CiRunner.Branch

/-- What can be wrong with the text of an expression. -/
inductive FlawKind where
  /-- A class has no closing bracket. -/
  | openClass
  /-- The ends of a range, given as they are written, are no characters in order. -/
  | badRange (low high : List Char)
  /-- An escape has no meaning. -/
  | badEscape (written : List Char)
  /-- An escape has too few digits. -/
  | shortEscape (written : List Char)
  /-- An escape in octal digits is too large. -/
  | largeEscape (written : List Char)
  /-- An escape that asks for the name of a character has none. -/
  | namelessEscape
  /-- The text ends with the sign that begins an escape. -/
  | loneEscape
  /-- A group is not closed. -/
  | openGroup
  /-- A group is closed that was not opened. -/
  | strayClosing
  /-- A sign of repetition has nothing before it. -/
  | nothingToRepeat
  deriving DecidableEq, Repr

/-- What a kind of flaw is called. -/
def FlawKind.text : FlawKind → String
  | openClass => "unterminated character set"
  | badRange low high => "bad character range " ++ String.ofList (low ++ '-' :: high)
  | badEscape written => "bad escape " ++ String.ofList written
  | shortEscape written => "incomplete escape " ++ String.ofList written
  | largeEscape written =>
    "octal escape value " ++ String.ofList written ++ " outside of range 0-0o377"
  | namelessEscape => "missing \x7b"
  | loneEscape => "bad escape (end of pattern)"
  | openGroup => "missing ), unterminated subpattern"
  | strayClosing => "unbalanced parenthesis"
  | nothingToRepeat => "nothing to repeat"

/-- A flaw in the text of an expression. -/
structure Flaw where
  /-- What is wrong. -/
  kind : FlawKind
  /-- How many characters the text has from the flaw on. -/
  left : Nat
  deriving DecidableEq, Repr

namespace Flaw

/-- How many characters of a text stand before the flaw. -/
def position (text : List Char) (f : Flaw) : Nat := text.length - f.left

/-- What is wrong with a text, and where. -/
def message (text : List Char) (f : Flaw) : String :=
  let before := text.take (f.position text)
  let place := f.kind.text ++ " at position " ++ toString (f.position text)
  if text.contains '\n' then
    let column := (before.reverse.takeWhile (· != '\n')).length + 1
    place ++ " (line " ++ toString (before.count '\n' + 1) ++ ", column " ++ toString column ++ ")"
  else place

end Flaw

end CiRunner.Branch
