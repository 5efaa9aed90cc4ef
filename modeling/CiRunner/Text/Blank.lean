/-!
# Blank characters, trimming and line ends

A character is blank when Unicode gives it the white-space property or one of the bidirectional
types that separate paragraphs, segments or words.  Trimming removes blanks at both ends, words are
the maximal runs without blanks, and a text is cut into lines at every kind of line end.
-/

namespace CiRunner.Text

/-- The blank characters: controls, separators and spaces of every width. -/
def isBlank (c : Char) : Bool :=
  let n := c.toNat
  (9 ≤ n && n ≤ 13) || (28 ≤ n && n ≤ 32) || n == 0x85 || n == 0xA0 || n == 0x1680 ||
    (0x2000 ≤ n && n ≤ 0x200A) || n == 0x2028 || n == 0x2029 || n == 0x202F || n == 0x205F ||
    n == 0x3000

/-- The text without the blanks it begins with. -/
def trimLeft (s : List Char) : List Char :=
  s.dropWhile isBlank

/-- The text without the blanks it ends with. -/
def trimRight (s : List Char) : List Char :=
  (s.reverse.dropWhile isBlank).reverse

/-- The text without the blanks at either end. -/
def trimChars (s : List Char) : List Char :=
  trimRight (trimLeft s)

/-- The text without the blanks at either end. -/
def trim (s : String) : String :=
  String.ofList (trimChars s.toList)

/-- The first word of a text, empty when the text is blank. -/
def firstWord (s : String) : String :=
  String.ofList ((trimLeft s.toList).takeWhile (!isBlank ·))

/-- The characters that end a line; a carriage return followed by a line feed is one end. -/
def isLineEnd (c : Char) : Bool :=
  let n := c.toNat
  (10 ≤ n && n ≤ 13) || (28 ≤ n && n ≤ 30) || n == 0x85 || n == 0x2028 || n == 0x2029

/-- The lines of a text, cut at every line end; a line end at the very end opens no further line.
`line` holds the current line, last character first. -/
def linesFrom (line : List Char) : List Char → List (List Char)
  | [] => if line.isEmpty then [] else [line.reverse]
  | '\r' :: '\n' :: rest => line.reverse :: linesFrom [] rest
  | c :: rest =>
    if isLineEnd c then line.reverse :: linesFrom [] rest else linesFrom (c :: line) rest

/-- The lines of a text without their line ends. -/
def lines (s : String) : List String :=
  (linesFrom [] s.toList).map String.ofList

/-- The text with every carriage return, alone or before a line feed, turned into a line feed. -/
def unifyLineEnds : List Char → List Char
  | [] => []
  | '\r' :: '\n' :: rest => '\n' :: unifyLineEnds rest
  | c :: rest => (if c = '\r' then '\n' else c) :: unifyLineEnds rest

/-- The text cut after each line feed, so that the pieces concatenate to the text. -/
def feedsFrom (line : List Char) : List Char → List (List Char)
  | [] => if line.isEmpty then [] else [line.reverse]
  | c :: rest =>
    if c = '\n' then (c :: line).reverse :: feedsFrom [] rest else feedsFrom (c :: line) rest

/-- The pieces of a text that end with a line feed, and the rest if it is not empty. -/
def feeds (s : String) : List String :=
  (feedsFrom [] s.toList).map String.ofList

/-- The text cut at each occurrence of a separator character. -/
def splitAtChar (sep : Char) (piece : List Char) : List Char → List (List Char)
  | [] => [piece.reverse]
  | c :: rest =>
    if c = sep then piece.reverse :: splitAtChar sep [] rest
    else splitAtChar sep (c :: piece) rest

/-- The part of a text before the first occurrence of a character, and the part after it if there
is one. -/
def cutAt (sep : Char) (s : List Char) : List Char × Option (List Char) :=
  match s.dropWhile (· != sep) with
  | [] => (s, none)
  | _ :: rest => (s.takeWhile (· != sep), some rest)

/-- The texts joined with a separator between each two. -/
def join (sep : String) (parts : List String) : String :=
  sep.intercalate parts

end CiRunner.Text
