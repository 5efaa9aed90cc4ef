import CiRunner.Calendar.Moment
import CiRunner.Decimal.Binary

/-!
# Values of documents

What a document holds before anything is known about its shape: scalars, lists, mappings, sets.  A
mapping is a list of entries with distinct keys, in the order in which the keys first appeared;
writing to a key that is present replaces its value in place.  Keys are compared as `Value.same`
says: numbers by their numerical value, truth values counting as zero and one.
-/

namespace CiRunner

open CiRunner.Calendar CiRunner.Decimal

/-- A value of a document. -/
inductive Value where
  /-- No value. -/
  | null
  /-- A truth value. -/
  | bool (b : Bool)
  /-- An integer. -/
  | int (n : Int)
  /-- A floating-point number. -/
  | float (x : Float)
  /-- A text. -/
  | text (s : String)
  /-- Raw bytes. -/
  | bytes (bs : List UInt8)
  /-- A date. -/
  | date (d : Date)
  /-- A date with a time of day. -/
  | moment (m : Moment)
  /-- A list. -/
  | list (items : List Value)
  /-- A pair of values. -/
  | pair (first second : Value)
  /-- A mapping. -/
  | map (entries : List (Value × Value))
  /-- A set. -/
  | set (members : List Value)
  deriving Repr, Inhabited

namespace Value

/-- Whether a value counts as true: neither absent, nor zero, nor empty. -/
def truthy : Value → Bool
  | null => false
  | bool b => b
  | int n => n != 0
  | float x => !(x == 0.0)
  | text s => !s.isEmpty
  | bytes bs => !bs.isEmpty
  | date _ | moment _ | pair _ _ => true
  | list items => !items.isEmpty
  | map entries => !entries.isEmpty
  | set members => !members.isEmpty

/-- The integer a value is numerically equal to, if it is a number and there is one. -/
def integral? : Value → Option Int
  | bool b => some (if b then 1 else 0)
  | int n => some n
  | float x =>
    match Binary.read x with
    | .finite b => b.toInt?
    | _ => none
  | _ => none

/-- Whether two values are the same key.  Only values that can be keys are compared: any other is
the same as none. -/
def same (a b : Value) : Bool :=
  match a, b with
  | null, null => true
  | text s, text t => s == t
  | bytes s, bytes t => s == t
  | date s, date t => s == t
  | moment s, moment t => s.same t
  | float x, float y => x == y
  | _, _ =>
    match a.integral?, b.integral? with
    | some m, some n => m == n
    | _, _ => false

@[simp] theorem same_text (s t : String) : (text s).same (text t) = (s == t) := rfl

/-- Writes a key: its value is replaced where the key is present, else the entry is appended. -/
def insert (key value : Value) : List (Value × Value) → List (Value × Value)
  | [] => [(key, value)]
  | (k, v) :: rest =>
    if k.same key then (k, value) :: rest else (k, v) :: insert key value rest

/-- The value at a key. -/
def lookup (key : Value) (entries : List (Value × Value)) : Option Value :=
  (entries.find? fun e => e.1.same key).map (·.2)

/-- The mapping that a list of entries writes, from the first to the last. -/
def ofEntries (entries : List (Value × Value)) : List (Value × Value) :=
  entries.foldl (fun acc e => insert e.1 e.2 acc) []

/-- The set of the members of a list. -/
def ofMembers (members : List Value) : List Value :=
  members.foldl (fun acc m => if acc.any (·.same m) then acc else acc ++ [m]) []

/-- The value at a text key of a mapping; anything else has none. -/
def get? (name : String) : Value → Option Value
  | map entries => lookup (text name) entries
  | _ => none

/-- The value at a text key of a mapping, absent keys reading as `null`. -/
def field (name : String) (v : Value) : Value :=
  (v.get? name).getD null

/-- Whether a value is the given text. -/
def isText (s : String) : Value → Bool
  | text t => t == s
  | _ => false

@[simp] theorem isText_text (s t : String) : (text t).isText s = (t == s) := rfl

/-- Whether a value is a mapping. -/
def isMap : Value → Bool
  | map _ => true
  | _ => false

/-- Whether a value is one of the given texts. -/
def isAmong (texts : List String) : Value → Bool
  | text t => texts.contains t
  | _ => false

/-- An absent text as a value. -/
def ofText? : Option String → Value
  | none => null
  | some s => text s

end Value

end CiRunner
