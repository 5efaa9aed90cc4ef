import CiRunner.Yaml.Scalar

/-!
# Tokens

A text is cut into tokens: the signs of collections, the properties of nodes and the scalars.  The
structure of blocks is told by indentation, so tokens for the beginning and the end of a block are
put in where the indentation changes.

A key without a mark of its own shows only at the colon behind it.  Each place where such a key may
have begun is kept as a pending key; the colon puts a key token, and maybe the beginning of a block,
in front of what was read from there on.  A pending key has to stay on one line and within 1024
characters.
-/

namespace CiRunner.Yaml

open CiRunner.Text

/-- A token of a document. -/
inductive Token where
  /-- A directive that gives the version. -/
  | version (major : Nat)
  /-- A directive that gives a handle for tags. -/
  | handle (name meaning : String)
  /-- A directive without a meaning. -/
  | directive
  /-- The beginning of a document. -/
  | documentStart
  /-- The end of a document. -/
  | documentEnd
  /-- The end of the text. -/
  | streamEnd
  /-- The beginning of an indented list. -/
  | blockListStart
  /-- The beginning of an indented mapping. -/
  | blockMapStart
  /-- The end of an indented collection. -/
  | blockEnd
  /-- The beginning of a list in brackets. -/
  | flowListStart
  /-- The end of a list in brackets. -/
  | flowListEnd
  /-- The beginning of a mapping in braces. -/
  | flowMapStart
  /-- The end of a mapping in braces. -/
  | flowMapEnd
  /-- A hyphen in front of an item. -/
  | blockEntry
  /-- A comma between items. -/
  | flowEntry
  /-- A key follows. -/
  | key
  /-- A value follows. -/
  | value
  /-- A node that was named before. -/
  | alias (name : String)
  /-- A name for the node that follows. -/
  | anchor (name : String)
  /-- The tag of the node that follows. -/
  | tag (handle : Option String) (suffix : String)
  /-- A scalar. -/
  | scalar (text : String) (plain : Bool)
  deriving DecidableEq, Repr, Inhabited

/-- A place where a key without a mark may have begun. -/
structure PendingKey where
  /-- The number of tokens before it. -/
  token : Nat
  /-- Whether nothing but a key can stand there. -/
  required : Bool
  /-- Where it began. -/
  start : Cursor

/-- The state between two tokens. -/
structure Scanner where
  /-- The place in the text. -/
  cursor : Cursor
  /-- The tokens read so far. -/
  tokens : Array Token := #[]
  /-- The column of the innermost block, -1 outside every block. -/
  indent : Int := -1
  /-- The columns of the blocks around it. -/
  indents : List Int := []
  /-- The pending key of the innermost level. -/
  pending : Option PendingKey := none
  /-- The pending keys of the levels around it, one for each open bracket. -/
  outer : List (Option PendingKey) := []
  /-- Whether a key without a mark may begin here. -/
  keyAllowed : Bool := true

namespace Scanner

/-- Whether the place is inside brackets or braces. -/
def inFlow (s : Scanner) : Bool := !s.outer.isEmpty

/-- Appends a token. -/
def emit (s : Scanner) (t : Token) : Scanner := { s with tokens := s.tokens.push t }

/-- Goes on to another place. -/
def moveTo (s : Scanner) (c : Cursor) : Scanner := { s with cursor := c }

/-- Goes on by some characters. -/
def advance (s : Scanner) (n : Nat) : Scanner := s.moveTo (s.cursor.skip n)

/-- Drops the pending key of this level, which must not be a required one. -/
def dropPending (s : Scanner) : Except Error Scanner :=
  match s.pending with
  | some k => if k.required then .error .malformed else .ok { s with pending := none }
  | none => .ok s

/-- Whether a pending key has run over its line or its length. -/
def isStale (s : Scanner) (k : PendingKey) : Bool :=
  k.start.line != s.cursor.line || 1024 < s.cursor.index - k.start.index

/-- Drops a pending key that has become stale, which must not be a required one. -/
def refresh (s : Scanner) : Option PendingKey → Except Error (Option PendingKey)
  | none => .ok none
  | some k =>
    if s.isStale k then (if k.required then .error .malformed else .ok none) else .ok (some k)

/-- Drops all pending keys that have become stale. -/
def refreshAll (s : Scanner) : Except Error Scanner := do
  let pending ← s.refresh s.pending
  let outer ← s.outer.mapM s.refresh
  pure { s with pending, outer }

/-- Notes that a key without a mark may begin here, if one is allowed. -/
def savePending (s : Scanner) : Except Error Scanner :=
  if s.keyAllowed then do
    let s ← s.dropPending
    let required := !s.inFlow && s.indent == (s.cursor.column : Int)
    pure { s with pending := some ⟨s.tokens.size, required, s.cursor⟩ }
  else .ok s

/-- Ends the blocks that are indented deeper than a column. -/
def closeBlocks (column : Int) : List Int → Int → Array Token → Int × List Int × Array Token
  | [], indent, tokens =>
    if column < indent then (-1, [], tokens.push .blockEnd) else (indent, [], tokens)
  | i :: is, indent, tokens =>
    if column < indent then closeBlocks column is i (tokens.push .blockEnd)
    else (indent, i :: is, tokens)

/-- Ends the blocks that are indented deeper than a column; inside brackets indentation has no
meaning. -/
def unwind (s : Scanner) (column : Int) : Scanner :=
  if s.inFlow then s
  else
    let (indent, indents, tokens) := closeBlocks column s.indents s.indent s.tokens
    { s with indent, indents, tokens }

/-- Opens a block at a column if that is deeper than the innermost one; the token of its beginning
is put in at a given place. -/
def openBlock (s : Scanner) (column : Nat) (place : Nat) (t : Token) : Scanner :=
  if s.indent < (column : Int) then
    { s with
      indents := s.indent :: s.indents
      indent := column
      tokens := s.tokens.insertIdxIfInBounds place t }
  else s

/-- Skips blanks, comments and line breaks; after a line break outside brackets a key may begin. -/
def skipGap : Nat → Scanner → Scanner
  | 0, s => s
  | n + 1, s =>
    let c := s.cursor.skipWhile (· == ' ')
    let c := if c.peek == '#' then c.skipWhile (!isBreakOrEnd ·) else c
    match c.lineBreak? with
    | none => s.moveTo c
    | some (_, c) =>
      skipGap n { s with cursor := c, keyAllowed := s.keyAllowed || !s.inFlow }

/-! ### Directives -/

/-- The characters of names. -/
def isNameChar (c : Char) : Bool := c.isAlphanum || c == '-' || c == '_'

/-- Reads the name of a handle: an exclamation mark, or a word between two. -/
def readHandle (c : Cursor) : Except Error (List Char × Cursor) :=
  if c.peek != '!' then .error .malformed
  else if c.peek 1 == ' ' then .ok (['!'], c.step)
  else
    let (word, after) := c.step.span isNameChar
    if after.peek == '!' then .ok ('!' :: word ++ ['!'], after.step) else .error .malformed

/-- The characters that may stand in the address of a tag. -/
def isUriChar (c : Char) : Bool :=
  c.isAlphanum || "-;/?:@&=+$,_.!~*'()[]".toList.contains c

/-- Reads escaped bytes, each a percent sign and two hexadecimal digits. -/
def readUriBytes : Nat → Cursor → Except Error (List UInt8 × Cursor)
  | 0, c => .ok ([], c)
  | n + 1, c =>
    if c.peek == '%' then
      match hexValue? (c.peek 1), hexValue? (c.peek 2) with
      | some a, some b => do
        let (bytes, c) ← readUriBytes n (c.skip 3)
        pure (UInt8.ofNat (a * 16 + b) :: bytes, c)
      | _, _ => .error .malformed
    else .ok ([], c)

/-- Reads the address of a tag, which may hold escaped bytes. -/
def readUriFrom : Nat → Cursor → Except Error (List Char × Cursor)
  | 0, c => .ok ([], c)
  | n + 1, c => do
    let (word, c) := c.span isUriChar
    if c.peek == '%' then
      let (bytes, c) ← readUriBytes (c.rest.length + 1) c
      match Utf8.decode? bytes with
      | none => throw .malformed
      | some chars =>
        let (more, c) ← readUriFrom n c
        pure (word ++ chars ++ more, c)
    else pure (word, c)

/-- Reads the address of a tag, which has at least one character. -/
def readUri (c : Cursor) : Except Error (String × Cursor) := do
  let (uri, after) ← readUriFrom (c.rest.length + 1) c
  if after.index = c.index then throw .malformed else pure (String.ofList uri, after)

/-- Reads the version that a directive gives. -/
def readVersion (c : Cursor) : Except Error (Token × Cursor) :=
  let (major, c) := (c.skipWhile (· == ' ')).span Char.isDigit
  if major.isEmpty || c.peek != '.' then .error .malformed
  else
    let (minor, c) := c.step.span Char.isDigit
    if minor.isEmpty || !isSpaceOrEnd c.peek then .error .malformed
    else .ok (.version ((digitsValue? 10 major).getD 0), c)

/-- Reads the handle and its meaning that a directive gives. -/
def readHandleMeaning (c : Cursor) : Except Error (Token × Cursor) := do
  let (name, c) ← readHandle (c.skipWhile (· == ' '))
  if c.peek != ' ' then throw .malformed
  let (meaning, c) ← readUri (c.skipWhile (· == ' '))
  if isSpaceOrEnd c.peek then pure (.handle (String.ofList name) meaning, c) else throw .malformed

/-- Reads a directive from its percent sign on. -/
def readDirective (c : Cursor) : Except Error (Token × Cursor) := do
  let (name, c) := c.step.span isNameChar
  if name.isEmpty || !isSpaceOrEnd c.peek then throw .malformed
  let (t, c) ←
    if name = ['Y', 'A', 'M', 'L'] then readVersion c
    else if name = ['T', 'A', 'G'] then readHandleMeaning c
    else pure (.directive, c.skipWhile (!isBreakOrEnd ·))
  let c ← c.endOfLine
  pure (t, c)

/-! ### Properties of nodes -/

/-- Whether a character may follow the name of an anchor. -/
def endsName (c : Char) : Bool :=
  isGapOrEnd c || "?:,]\x7d%@".toList.contains c || c.toNat == 0x60

/-- Reads the name of an anchor or an alias after its sign. -/
def readName (c : Cursor) : Except Error (String × Cursor) :=
  let (name, c) := c.step.span isNameChar
  if name.isEmpty || !endsName c.peek then .error .malformed else .ok (String.ofList name, c)

/-- Reads a tag from its exclamation mark on. -/
def readTag (c : Cursor) : Except Error (Token × Cursor) := do
  let (t, c) ←
    if c.peek 1 == '<' then do
      let (uri, c) ← readUri (c.skip 2)
      if c.peek == '>' then pure (Token.tag none uri, c.step) else throw .malformed
    else if isGapOrEnd (c.peek 1) then pure (Token.tag none "!", c.step)
    else if ((c.rest.drop 1).takeWhile (!isSpaceOrEnd ·)).contains '!' then do
      let (handle, c) ← readHandle c
      let (uri, c) ← readUri c
      pure (Token.tag (some (String.ofList handle)) uri, c)
    else do
      let (uri, c) ← readUri c.step
      pure (Token.tag (some "!") uri, c)
  if isSpaceOrEnd c.peek then pure (t, c) else throw .malformed

/-! ### The next token -/

/-- Ends the document or the text: all blocks end, and no key is pending any more. -/
def endBlocks (s : Scanner) : Except Error Scanner := do
  let s ← (s.unwind (-1)).dropPending
  pure { s with keyAllowed := false }

/-- Takes the opening sign of a collection in brackets or braces. -/
def openFlow (s : Scanner) (t : Token) : Except Error Scanner := do
  let s ← s.savePending
  pure { (s.advance 1).emit t with
    pending := none, outer := s.pending :: s.outer, keyAllowed := true }

/-- Takes the closing sign of a collection in brackets or braces. -/
def closeFlow (s : Scanner) (t : Token) : Except Error Scanner := do
  let s ← s.dropPending
  match s.outer with
  | [] => throw .malformed
  | pending :: outer => pure { (s.advance 1).emit t with pending, outer, keyAllowed := false }

/-- Takes a comma. -/
def takeComma (s : Scanner) : Except Error Scanner := do
  let s ← s.dropPending
  pure { (s.advance 1).emit .flowEntry with keyAllowed := true }

/-- Takes a hyphen in front of an item. -/
def takeHyphen (s : Scanner) : Except Error Scanner := do
  if !s.inFlow && !s.keyAllowed then throw .malformed
  let s := if s.inFlow then s else s.openBlock s.cursor.column s.tokens.size .blockListStart
  let s ← s.dropPending
  pure { (s.advance 1).emit .blockEntry with keyAllowed := true }

/-- Takes a question mark in front of a key. -/
def takeKeyMark (s : Scanner) : Except Error Scanner := do
  if !s.inFlow && !s.keyAllowed then throw .malformed
  let s := if s.inFlow then s else s.openBlock s.cursor.column s.tokens.size .blockMapStart
  let s ← s.dropPending
  pure { (s.advance 1).emit .key with keyAllowed := !s.inFlow }

/-- Takes a colon: what was read from the pending key on is the key, and without a pending key the
colon stands for a value whose key has a mark or is missing. -/
def takeColon (s : Scanner) : Except Error Scanner := do
  match s.pending with
  | some k =>
    let s := { s with
      pending := none
      tokens := s.tokens.insertIdxIfInBounds k.token .key }
    let s := if s.inFlow then s else s.openBlock k.start.column k.token .blockMapStart
    pure { (s.advance 1).emit .value with keyAllowed := false }
  | none =>
    if !s.inFlow && !s.keyAllowed then throw .malformed
    let s := if s.inFlow then s else s.openBlock s.cursor.column s.tokens.size .blockMapStart
    pure { (s.advance 1).emit .value with keyAllowed := !s.inFlow }

/-- Takes a token that may begin a key, read by a reader from the place of the scanner. -/
def takeNode (s : Scanner) (read : Cursor → Except Error (Token × Cursor)) :
    Except Error Scanner := do
  let s ← s.savePending
  let (t, c) ← read s.cursor
  pure { (s.moveTo c).emit t with keyAllowed := false }

/-- Takes a block scalar, after which a key may begin. -/
def takeBlock (s : Scanner) : Except Error Scanner := do
  let s ← s.dropPending
  let (text, c) ← readBlock s.indent s.cursor
  pure { (s.moveTo c).emit (.scalar (String.ofList text) false) with keyAllowed := true }

/-- Takes a plain scalar; a key may begin after it only on another line. -/
def takePlain (s : Scanner) : Except Error Scanner := do
  let s ← s.savePending
  let (text, broken, c) := readPlain s.inFlow s.indent s.cursor
  pure { (s.moveTo c).emit (.scalar (String.ofList text) true) with keyAllowed := broken }

/-- Whether a plain scalar may begin here. -/
def beginsPlain (s : Scanner) : Bool :=
  let ch := s.cursor.peek
  let sign := isGapOrEnd ch || "-?:,[]\x7b\x7d#&*!|>'\"%@".toList.contains ch || ch.toNat == 0x60
  !sign || (!isGapOrEnd (s.cursor.peek 1) && (ch == '-' || (!s.inFlow && (ch == '?' || ch == ':'))))

/-- Reads the next token, with the tokens that the indentation puts in front of it. -/
def next (s : Scanner) : Except Error Scanner := do
  let s ← (skipGap (s.cursor.rest.length + 1) s).refreshAll
  let s := s.unwind s.cursor.column
  let c := s.cursor
  let ch := c.peek
  let spaced := s.inFlow || isGapOrEnd (c.peek 1)
  if c.atEnd then
    return (← s.endBlocks).emit .streamEnd
  else if ch == '%' && c.column == 0 then
    let s ← s.endBlocks
    let (t, c) ← readDirective s.cursor
    return (s.moveTo c).emit t
  else if c.column == 0 && c.atSeparator then
    let s ← s.endBlocks
    return (s.advance 3).emit (if ch == '-' then .documentStart else .documentEnd)
  else if ch == '[' then s.openFlow .flowListStart
  else if ch == '\x7b' then s.openFlow .flowMapStart
  else if ch == ']' then s.closeFlow .flowListEnd
  else if ch == '\x7d' then s.closeFlow .flowMapEnd
  else if ch == ',' then s.takeComma
  else if ch == '-' && isGapOrEnd (c.peek 1) then s.takeHyphen
  else if ch == '?' && spaced then s.takeKeyMark
  else if ch == ':' && spaced then s.takeColon
  else if ch == '*' then s.takeNode fun c => do
    let (name, c) ← readName c
    pure (.alias name, c)
  else if ch == '&' then s.takeNode fun c => do
    let (name, c) ← readName c
    pure (.anchor name, c)
  else if ch == '!' then s.takeNode readTag
  else if (ch == '|' || ch == '>') && !s.inFlow then s.takeBlock
  else if ch == '\'' || ch == '"' then s.takeNode fun c => do
    let (text, c) ← readQuoted c
    pure (.scalar (String.ofList text) false, c)
  else if s.beginsPlain then s.takePlain
  else throw .malformed

/-- Reads tokens up to the end of the text; the number counts down the characters left. -/
def run : Nat → Scanner → Except Error (List Token)
  | 0, s => .ok s.tokens.toList
  | n + 1, s => do
    let s ← s.next
    if s.tokens.back? == some .streamEnd then pure s.tokens.toList else run n s

end Scanner

/-- The tokens of a text.  Characters that are not admissible are refused, and a byte order mark at
the beginning is skipped. -/
def tokens (text : List Char) : Except Error (List Token) :=
  if text.all isAdmissible then
    let c : Cursor := { rest := text }
    Scanner.run (text.length + 2) { cursor := if c.peek.toNat == 0xFEFF then c.step else c }
  else .error .malformed

end CiRunner.Yaml
