import CiRunner.Text.Base64
import CiRunner.Value.Basic
import CiRunner.Yaml.Node

/-!
# Documents as values

A node becomes a value as its tag says.  Before that, mappings are merged: an entry whose key is the
merge sign is replaced by the entries of the mapping, or the mappings, it holds, which come before
the other entries, so that an entry of the mapping itself overrides them.

A document may have several faults.  The one nearest to the root counts, and of equally near ones
the first.
-/

namespace CiRunner.Yaml

open CiRunner.Text CiRunner.Calendar CiRunner.Decimal

/-! ### Scalars -/

/-- A text without its underscores. -/
def dropSeparators (s : List Char) : List Char := s.filter (· != '_')

/-- Reads an integer as tagged: after the sign, a zero and a letter give the base, a zero alone base
eight, and colons base sixty. -/
def readTaggedInt (s : List Char) : Except Error Int := do
  let s := dropSeparators s
  if s.isEmpty then throw .emptyNumber
  let (negative, body) := takeSign s
  let magnitude? : Option Int :=
    match body with
    | [] => none
    | ['0'] => some 0
    | '0' :: 'b' :: rest => readInt? 2 rest
    | '0' :: 'x' :: rest => readInt? 16 rest
    | '0' :: _ => readInt? 8 body
    | _ =>
      if body.contains ':' then
        ((splitAtChar ':' [] body).mapM (readInt? 10)).map fun (parts : List Int) =>
          parts.foldl (fun n d => n * 60 + d) 0
      else readInt? 10 body
  match magnitude? with
  | none => if body.isEmpty then throw .emptyNumber else throw .badScalar
  | some n => pure (if negative then -n else n)

/-- The value of digits in base sixty, the lowest first. -/
def sixtySum (value : Float) (base : Int) : List Float → Except Error Float
  | [] => .ok value
  | d :: rest =>
    match Binary.ofInt? base with
    | none => .error .tooLarge
    | some b => sixtySum (value + d * b) (base * 60) rest

/-- Reads a floating-point number as tagged; colons give base sixty. -/
def readTaggedFloat (s : List Char) : Except Error Float := do
  let s := (dropSeparators s).map Char.toLower
  if s.isEmpty then throw .emptyNumber
  let (negative, body) := takeSign s
  let sign : Float := if negative then -1.0 else 1.0
  let word := String.ofList body
  if word = ".inf" then pure (sign * infinite false)
  else if word = ".nan" then pure notANumber
  else
    match (splitAtChar ':' [] body).mapM readFloat? with
    | none => throw .badScalar
    | some [x] => pure (sign * x)
    | some parts => return sign * (← sixtySum 0.0 1 parts.reverse)

/-- Reads a truth value as tagged. -/
def readTaggedBool (s : String) : Except Error Bool :=
  let word := s.toLower
  if ["yes", "true", "on"].contains word then .ok true
  else if ["no", "false", "off"].contains word then .ok false
  else .error .badTruthValue

/-- The microseconds that the digits of a fraction of a second give. -/
def microseconds (fraction : List Char) : Nat :=
  number ((fraction ++ List.replicate 6 '0').take 6)

/-- Reads a date or a moment as tagged. -/
def readTaggedMoment (s : List Char) : Except Error Value :=
  let s := if s.getLast? = some '\n' then s.dropLast else s
  match readMomentForm? s with
  | none => .error .badMoment
  | some f =>
    match Date.of? (number f.year) (number f.month) (number f.day) with
    | none => .error .badScalar
    | some date =>
      match f.clock with
      | none => .ok (.date date)
      | some (hour, minute, second, fraction) =>
        match Moment.of? date (number hour) (number minute) (number second)
            (microseconds fraction) f.offset with
        | none => .error .badScalar
        | some m => .ok (.moment m)

/-- Reads bytes as tagged. -/
def readTaggedBytes (s : List Char) : Except Error (List UInt8) :=
  if s.all (·.toNat < 0x80) then
    match Base64.decode? s with
    | some bytes => .ok bytes
    | none => .error .malformed
  else .error .malformed

/-- Whether a tag belongs to collections. -/
def Tag.isCollection : Tag → Bool
  | list | map | set | orderedMap | pairs => true
  | _ => false

/-- The value of a scalar with a tag. -/
def scalarValue (tag : Tag) (s : String) : Except Error Value :=
  match tag with
  | .null => .ok .null
  | .bool => return .bool (← readTaggedBool s)
  | .int => return .int (← readTaggedInt s.toList)
  | .float => return .float (← readTaggedFloat s.toList)
  | .moment => readTaggedMoment s.toList
  | .binary => return .bytes (← readTaggedBytes s.toList)
  | .text => .ok (.text s)
  | _ => .error .malformed

namespace Node

/-! ### Merging -/

mutual

/-- The node with all merge signs replaced.  An entry with a merge sign that holds no mapping stays,
to be found later. -/
def resolve : Node → Node
  | scalar t s => scalar t s
  | list t items => list t (resolveItems items)
  | map t entries =>
    let (merged, own) := resolveEntries entries
    map t (merged ++ own)

/-- The nodes of a list with all merge signs replaced. -/
def resolveItems : List Node → List Node
  | [] => []
  | n :: rest => n.resolve :: resolveItems rest

/-- The entries that a mapping takes from others, and its own. -/
def resolveEntries : List (Node × Node) → List (Node × Node) × List (Node × Node)
  | [] => ([], [])
  | (key, value) :: rest =>
    let (merged, own) := resolveEntries rest
    if key.tag = .merge then
      match value with
      | .map _ entries =>
        let (m, o) := resolveEntries entries
        (m ++ o ++ merged, own)
      | .list _ items =>
        match resolveMaps? items with
        | some groups => (groups.reverse.flatten ++ merged, own)
        | none => (merged, (key, value) :: own)
      | .scalar _ _ => (merged, (key, value) :: own)
    else (merged, (key.resolve, value.resolve) :: own)

/-- The entries of each mapping of a list; `none` if the list holds anything else. -/
def resolveMaps? : List Node → Option (List (List (Node × Node)))
  | [] => some []
  | .map _ entries :: rest =>
    let (m, o) := resolveEntries entries
    (resolveMaps? rest).map ((m ++ o) :: ·)
  | _ => none

end

/-! ### Faults -/

mutual

/-- The text of a node that is asked for as a scalar; a mapping gives its default value. -/
def text : Node → Except Error String
  | scalar _ s => .ok s
  | list _ _ => .error .malformed
  | map _ entries => defaultText entries

/-- The text of the default value among some entries. -/
def defaultText : List (Node × Node) → Except Error String
  | [] => .error .malformed
  | (key, value) :: rest => if key.tag = .default then value.text else defaultText rest

end

/-- The value of a node whose tag belongs to scalars. -/
def scalar? (n : Node) : Except Error Value := do
  scalarValue n.tag (← n.text)

/-- The fault of a node by itself: a collection shows its faults only with its parts. -/
def ownFault? (n : Node) : Option Error :=
  match n.tag with
  | .merge | .default | .unknown _ => some .malformed
  | t =>
    if t.isCollection then none
    else
      match n.scalar? with
      | .ok _ => none
      | .error e => some e

/-- A key is taken as text where it is the sign of a default value. -/
def asKey : Node → Node
  | scalar .default s => scalar .text s
  | n => n

/-- A fault and its distance from the root. -/
abbrev Fault := Nat × Error

/-- Of two faults the nearer to the root, of equally near ones the first. -/
def nearer (first second : Option Fault) : Option Fault :=
  match first, second with
  | some a, some b => if b.1 < a.1 then some b else some a
  | some a, none => some a
  | none, b => b

/-- A fault at a distance. -/
def faultAt (depth : Nat) (e : Option Error) : Option Fault := e.map fun e => (depth, e)

mutual

/-- The fault among the parts of a collection. -/
def partsFault? (depth : Nat) : Node → Option Fault
  | scalar t _ => if t.isCollection then some (depth, .malformed) else none
  | list t items =>
    match t with
    | .list => itemsFault? depth items
    | .orderedMap | .pairs => pairsFault? depth items
    | .map | .set => some (depth, .malformed)
    | _ => none
  | map t entries =>
    match t with
    | .map | .set =>
      if entries.any fun e => e.1.tag == .merge then some (depth, .malformed)
      else entriesFault? depth entries
    | .list | .orderedMap | .pairs => some (depth, .malformed)
    | _ => none

/-- The fault among the items of a list. -/
def itemsFault? (depth : Nat) : List Node → Option Fault
  | [] => none
  | n :: rest =>
    nearer (nearer (faultAt depth n.ownFault?) (partsFault? (depth + 1) n)) (itemsFault? depth rest)

/-- The fault among the entries of a mapping, whose keys must not be collections. -/
def entriesFault? (depth : Nat) : List (Node × Node) → Option Fault
  | [] => none
  | (key, value) :: rest =>
    let keyFault :=
      if key.tag.isCollection then some .malformed else key.asKey.ownFault?
    nearer
      (nearer (faultAt depth keyFault)
        (nearer (faultAt depth value.ownFault?) (partsFault? (depth + 1) value)))
      (entriesFault? depth rest)

/-- The fault among pairs, each of which is a mapping of one entry. -/
def pairsFault? (depth : Nat) : List Node → Option Fault
  | [] => none
  | .map _ [(key, value)] :: rest =>
    nearer
      (nearer
        (nearer (faultAt depth key.ownFault?) (partsFault? (depth + 1) key))
        (nearer (faultAt depth value.ownFault?) (partsFault? (depth + 1) value)))
      (pairsFault? depth rest)
  | _ => some (depth, .malformed)

end

/-- The fault of a document. -/
def fault? (n : Node) : Option Error :=
  n.ownFault?.orElse fun _ => (n.partsFault? 0).map (·.2)

/-! ### Values -/

mutual

/-- The value of a node without faults. -/
def toValue : Node → Value
  | list t items =>
    match t with
    | .list => .list (toValues items)
    | .orderedMap | .pairs => .list (toPairs items)
    | _ => .null
  | map t entries =>
    match t with
    | .map => .map (Value.ofEntries (toEntries entries))
    | .set => .set (Value.ofMembers ((toEntries entries).map (·.1)))
    | t => (defaultText entries >>= scalarValue t).toOption.getD .null
  | scalar t s => (scalarValue t s).toOption.getD .null

/-- The values of nodes. -/
def toValues : List Node → List Value
  | [] => []
  | n :: rest => n.toValue :: toValues rest

/-- The values of entries. -/
def toEntries : List (Node × Node) → List (Value × Value)
  | [] => []
  | (key, value) :: rest =>
    let k :=
      match key with
      | .scalar .default s => .text s
      | key => key.toValue
    (k, value.toValue) :: toEntries rest

/-- The values of pairs. -/
def toPairs : List Node → List Value
  | [] => []
  | .map _ [(key, value)] :: rest => .pair key.toValue value.toValue :: toPairs rest
  | _ :: rest => toPairs rest

end

end Node

/-- The value of a text that holds one document; a text without a document has none. -/
def load (text : String) : Except Error Value := do
  match ← Node.ofText? text with
  | none => pure .null
  | some node =>
    let node := node.resolve
    match node.fault? with
    | some e => throw e
    | none => pure node.toValue

end CiRunner.Yaml
