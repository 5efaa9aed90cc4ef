import CiRunner.Text.Blank

/-!
# Paths

A path is a root, which is empty for a relative path, and the names along the way.  Empty names and
single full stops are dropped when a path is read; double full stops are kept until the path is
resolved against a directory.
-/

namespace CiRunner

open CiRunner.Text

/-- An absolute place in a file tree: the names from the root on, without full stops. -/
abbrev Location := List String

/-- The text of a place. -/
def Location.text (l : Location) : String := "/" ++ join "/" l

/-- A path as it is written. -/
structure Path where
  /-- Whether the path starts at the root. -/
  absolute : Bool
  /-- The names along the way. -/
  parts : List String
  deriving DecidableEq, Repr, Inhabited

namespace Path

/-- The names of a text between its slashes, without empty ones and single full stops. -/
def names (s : String) : List String :=
  ((splitAtChar '/' [] s.toList).map String.ofList).filter fun n => n != "" && n != "."

/-- The path that a text writes. -/
def ofText (s : String) : Path := ⟨s.toList.head? == some '/', names s⟩

/-- The text of a path; the empty relative path is a full stop. -/
def text (p : Path) : String :=
  if p.absolute then "/" ++ join "/" p.parts
  else if p.parts.isEmpty then "." else join "/" p.parts

/-- The path that follows another one; an absolute path stands for itself. -/
def join (p q : Path) : Path :=
  if q.absolute then q else { p with parts := p.parts ++ q.parts }

/-- The last name of a path, empty if it has none. -/
def name (p : Path) : String := p.parts.getLast?.getD ""

/-- Where the last full stop of a name stands that has characters on both sides. -/
def dotIndex? (name : List Char) : Option Nat :=
  let after := (name.reverse.takeWhile (· != '.')).length
  let index := name.length - after - 1
  if after < name.length ∧ 0 < after ∧ 0 < index then some index else none

/-- A name without its suffix. -/
def stemOf (name : String) : String :=
  match dotIndex? name.toList with
  | some i => String.ofList (name.toList.take i)
  | none => name

/-- The suffix of a name, with its full stop; empty if there is none. -/
def suffixOf (name : String) : String :=
  match dotIndex? name.toList with
  | some i => String.ofList (name.toList.drop i)
  | none => ""

/-- The last name of a path without its suffix. -/
def stem (p : Path) : String := stemOf p.name

/-- Takes one name further from a place: double full stops lead back, and nowhere from the root. -/
def stepFrom (l : Location) (name : String) : Location :=
  if name = ".." then l.dropLast else l ++ [name]

/-- The place a path leads to from a directory. -/
def resolve (base : Location) (p : Path) : Location :=
  p.parts.foldl stepFrom (if p.absolute then [] else base)

end Path

/-! ### Home directories -/

/-- The users of a machine, as far as they have home directories. -/
structure Users where
  /-- The home directory of the user who runs the program. -/
  own : Option String := none
  /-- The home directory of the user with a name. -/
  named : String → Option String := fun _ => none

namespace Path

/-- The home directory that a name with a tilde asks for: that of the user it names, or without a
name the one that the environment gives, else that of the user who runs the program. -/
def homeText? (home : Option String) (users : Users) (name : String) : Option String :=
  if name = "~" then home.or users.own else users.named (String.ofList (name.toList.drop 1))

/-- A path whose first name begins with a tilde starts at a home directory instead, where an empty
text is the root.  There has to be one, and its text must not begin with a tilde. -/
def expandHome? (home : Option String) (users : Users) (p : Path) : Option Path :=
  match p.absolute, p.parts with
  | false, first :: rest =>
    if first.toList.head? = some '~' then
      match homeText? home users first with
      | none => none
      | some text =>
        if text.toList.head? = some '~' then none
        else
          let start := ofText (if text = "" then "/" else text)
          some { start with parts := start.parts ++ rest }
    else some p
  | _, _ => some p

end Path

end CiRunner
