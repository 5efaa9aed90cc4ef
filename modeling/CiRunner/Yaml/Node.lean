import CiRunner.Yaml.Tag
import CiRunner.Yaml.Token

/-!
# Nodes

A document is a tree of nodes: scalars, lists and mappings, each with a tag.  A node may be named by
an anchor and stand again wherever an alias gives its name; an alias inside the node it names stands
for an empty collection.
-/

namespace CiRunner.Yaml

/-- A node of a document. -/
inductive Node where
  /-- A scalar. -/
  | scalar (tag : Tag) (text : String)
  /-- A list. -/
  | list (tag : Tag) (items : List Node)
  /-- A mapping, its entries in the order in which they are written. -/
  | map (tag : Tag) (entries : List (Node × Node))
  deriving Repr, Inhabited

namespace Node

/-- The tag of a node. -/
def tag : Node → Tag
  | scalar t _ => t
  | list t _ => t
  | map t _ => t

/-- The node that stands where none is written. -/
def empty : Node := scalar .null ""

/-! ### Nodes of tokens -/

/-- What is known while nodes are read: the tokens left, the named nodes and the meanings of the
handles of tags. -/
structure State where
  /-- The tokens left. -/
  tokens : List Token
  /-- The named nodes, the last first. -/
  anchors : List (String × Node) := []
  /-- The meanings of the handles. -/
  handles : List (String × String) := []

/-- Reading nodes may fail, and there is only one way in which it does. -/
abbrev Reader := StateT State (Except Error)

namespace Reader

/-- The next token. -/
def peek : Reader Token := return (← get).tokens.headD .streamEnd

/-- Goes past the next token. -/
def drop : Reader Unit := modify fun s => { s with tokens := s.tokens.drop 1 }

/-- Goes past the next token if it is the given one, and tells whether it is. -/
def accept (t : Token) : Reader Bool := do
  if (← peek) == t then
    drop
    pure true
  else pure false

/-- Goes past the next token, which has to be the given one. -/
def expect (t : Token) : Reader Unit := do
  unless ← accept t do
    throw .malformed

/-- The name of an anchor, if one comes next. -/
def takeAnchor : Reader (Option String) := do
  match ← peek with
  | .anchor name =>
    drop
    pure (some name)
  | _ => pure none

/-- The full name of a tag, if one comes next; its handle has to be known. -/
def takeTag : Reader (Option String) := do
  match ← peek with
  | .tag none suffix =>
    drop
    pure (some suffix)
  | .tag (some handle) suffix =>
    drop
    match (← get).handles.lookup handle with
    | some meaning => pure (some (meaning ++ suffix))
    | none => throw .malformed
  | _ => pure none

/-- The anchor and the tag in front of a node, in either order. -/
def takeProperties : Reader (Option String × Option String) := do
  let first ← takeAnchor
  let tag ← takeTag
  match first with
  | some name => pure (some name, tag)
  | none =>
    match tag with
    | some _ => return (← takeAnchor, tag)
    | none => pure (none, none)

/-- Names a node; a name may be given once only. -/
def declare (anchor : Option String) (n : Node) : Reader Unit := do
  match anchor with
  | none => pure ()
  | some name =>
    if ((← get).anchors.lookup name).isSome then throw .malformed
    modify fun s => { s with anchors := (name, n) :: s.anchors }

/-- Replaces the node that a name stands for. -/
def settle (anchor : Option String) (n : Node) : Reader Unit := do
  match anchor with
  | none => pure ()
  | some name => modify fun s => { s with anchors := (name, n) :: s.anchors }

/-- The node that an alias stands for. -/
def named (name : String) : Reader Node := do
  match (← get).anchors.lookup name with
  | some n => pure n
  | none => throw .malformed

end Reader

open Reader

/-- The tag of a scalar: the one that is written, or the one that its form gives if it is plain. -/
def scalarTag (written : Option String) (plain : Bool) (text : String) : Tag :=
  match written with
  | none => if plain then .ofPlain text else .text
  | some "!" => .ofPlain text
  | some name => .ofName name

/-- The tag of a collection: the one that is written, or else the usual one. -/
def collectionTag (written : Option String) (usual : Tag) : Tag :=
  match written with
  | none | some "!" => usual
  | some name => .ofName name

/-- Whether a token ends an entry that is left empty in a block. -/
def endsBlockEntry (t : Token) : Bool := t == .key || t == .value || t == .blockEnd

mutual

/-- Reads a node.  In a block it may be an indented collection, and as a part of a mapping a list
that is not indented further.  The number bounds the nesting and the length of what is read. -/
def read (block unindented : Bool) : Nat → Reader Node
  | 0 => throw .malformed
  | n + 1 => do
    match ← peek with
    | .alias name =>
      drop
      named name
    | _ =>
      let (anchor, written) ← takeProperties
      let asList (items : Reader (List Node)) : Reader Node := do
        let tag := collectionTag written .list
        declare anchor (.list tag [])
        let node := Node.list tag (← items)
        settle anchor node
        pure node
      let asMap (entries : Reader (List (Node × Node))) : Reader Node := do
        let tag := collectionTag written .map
        declare anchor (.map tag [])
        let node := Node.map tag (← entries)
        settle anchor node
        pure node
      let next ← peek
      if unindented && next == .blockEntry then asList (readUnindented n)
      else
        match next with
        | .scalar text plain =>
          drop
          let node := Node.scalar (scalarTag written plain text) text
          declare anchor node
          pure node
        | .flowListStart =>
          drop
          asList (readFlowList true n)
        | .flowMapStart =>
          drop
          asMap (readFlowMap true n)
        | .blockListStart =>
          if !block then throw .malformed
          drop
          asList (readBlockList n)
        | .blockMapStart =>
          if !block then throw .malformed
          drop
          asMap (readBlockMap n)
        | _ =>
          if anchor.isNone && written.isNone then throw .malformed
          let node := Node.scalar (scalarTag written true "") ""
          declare anchor node
          pure node

/-- Reads the items of an indented list up to the end of its block. -/
def readBlockList : Nat → Reader (List Node)
  | 0 => throw .malformed
  | n + 1 => do
    if ← accept .blockEntry then
      let next ← peek
      let item ←
        if next == .blockEntry || next == .blockEnd then pure empty else read true false n
      return item :: (← readBlockList n)
    else
      expect .blockEnd
      pure []

/-- Reads the items of a list that is not indented further than the mapping around it. -/
def readUnindented : Nat → Reader (List Node)
  | 0 => throw .malformed
  | n + 1 => do
    if ← accept .blockEntry then
      let next ← peek
      let item ←
        if next == .blockEntry || endsBlockEntry next then pure empty else read true false n
      return item :: (← readUnindented n)
    else pure []

/-- Reads the entries of an indented mapping up to the end of its block. -/
def readBlockMap : Nat → Reader (List (Node × Node))
  | 0 => throw .malformed
  | n + 1 => do
    if ← accept .key then
      let key ← if endsBlockEntry (← peek) then pure empty else read true true n
      let value ←
        if ← accept .value then
          if endsBlockEntry (← peek) then pure empty else read true true n
        else pure empty
      return (key, value) :: (← readBlockMap n)
    else
      expect .blockEnd
      pure []

/-- Reads the items of a list in brackets up to the closing one; `first` tells that none has been
read.  An item with a key is a mapping of one entry. -/
def readFlowList (first : Bool) : Nat → Reader (List Node)
  | 0 => throw .malformed
  | n + 1 => do
    if ← accept .flowListEnd then pure []
    else
      unless first do
        expect .flowEntry
      if ← accept .key then
        let next ← peek
        let key ←
          if next == .value || next == .flowEntry || next == .flowListEnd then pure empty
          else read false false n
        let value ← readFlowValue .flowListEnd n
        return .map .map [(key, value)] :: (← readFlowList false n)
      else if ← accept .flowListEnd then pure []
      else
        let item ← read false false n
        return item :: (← readFlowList false n)

/-- Reads the entries of a mapping in braces up to the closing one; `first` tells that none has been
read. -/
def readFlowMap (first : Bool) : Nat → Reader (List (Node × Node))
  | 0 => throw .malformed
  | n + 1 => do
    if ← accept .flowMapEnd then pure []
    else
      unless first do
        expect .flowEntry
      if ← accept .key then
        let next ← peek
        let key ←
          if next == .value || next == .flowEntry || next == .flowMapEnd then pure empty
          else read false false n
        let value ← readFlowValue .flowMapEnd n
        return (key, value) :: (← readFlowMap false n)
      else if ← accept .flowMapEnd then pure []
      else
        let key ← read false false n
        return (key, empty) :: (← readFlowMap false n)

/-- Reads the value of an entry inside brackets or braces, which may be missing. -/
def readFlowValue (closing : Token) : Nat → Reader Node
  | 0 => throw .malformed
  | n + 1 => do
    if ← accept .value then
      let next ← peek
      if next == .flowEntry || next == closing then pure empty else read false false n
    else pure empty

end

/-- Reads the directives in front of a document; a version has to be 1, and neither the version nor
a handle may be given twice. -/
def readDirectives (versioned : Bool) (handles : List (String × String)) :
    List Token → Except Error (List (String × String) × List Token)
  | .version major :: rest =>
    if versioned || major != 1 then .error .malformed else readDirectives true handles rest
  | .handle name meaning :: rest =>
    if (handles.lookup name).isSome then .error .malformed
    else readDirectives versioned ((name, meaning) :: handles) rest
  | .directive :: rest => readDirectives versioned handles rest
  | rest => .ok (handles, rest)

/-- The handles that are known without a directive. -/
def usualHandles : List (String × String) := [("!", "!"), ("!!", tagRoot)]

/-- Whether a token ends a document that is left empty. -/
def endsDocument : Token → Bool
  | .version _ | .handle _ _ | .directive | .documentStart | .documentEnd | .streamEnd => true
  | _ => false

/-- Whether a token begins with directives or the mark of a document. -/
def opensDocument : Token → Bool
  | .version _ | .handle _ _ | .directive | .documentStart | .streamEnd => true
  | _ => false

/-- Reads the content of a document, after which the text has to end. -/
def readContent (handles : List (String × String)) (explicit : Bool) (tokens : List Token) :
    Except Error Node := do
  let content : Reader Node := do
    if explicit && endsDocument (← peek) then pure empty
    else read true false (2 * tokens.length + 4)
  let (node, s) ← content.run { tokens, handles := handles ++ usualHandles }
  match s.tokens.dropWhile (· == .documentEnd) with
  | [] | [.streamEnd] => pure node
  | _ => throw .malformed

/-- The node of a text that holds one document, or `none` if it holds none. -/
def ofTokens? (tokens : List Token) : Except Error (Option Node) := do
  match tokens with
  | [] => pure none
  | t :: _ =>
    if opensDocument t then
      match tokens with
      | .streamEnd :: _ => pure none
      | _ =>
        let (handles, rest) ← readDirectives false [] tokens
        match rest with
        | .documentStart :: rest => return some (← readContent handles true rest)
        | _ => throw .malformed
    else return some (← readContent [] false tokens)

/-- The node of a text that holds one document, or `none` if it holds none. -/
def ofText? (text : String) : Except Error (Option Node) := do
  ofTokens? (← tokens text.toList)

end Node

end CiRunner.Yaml
