import CiRunner.FileTree.Path
import CiRunner.Text.Quoted
import CiRunner.Text.Utf8

/-!
# File trees

A file tree is a finite map from places to directories and files.  The root is always a directory.
Making a directory makes the missing ones above it; removing one removes all below it.
-/

namespace CiRunner

open CiRunner.Text

/-- What stands at a place. -/
inductive FileEntry where
  /-- A directory. -/
  | directory
  /-- A file and its bytes. -/
  | file (bytes : List UInt8)
  deriving DecidableEq, Repr

/-- Why a directory cannot be made or a file cannot be read. -/
inductive FileError where
  /-- A file stands where a directory is to be made. -/
  | exists (place : Location)
  /-- A file stands where a directory is needed on the way. -/
  | notDirectory (place : Location)
  /-- A directory stands where a file is to be read. -/
  | isDirectory (place : Location)
  /-- A file is no text. -/
  | notText (place : Location)
  deriving DecidableEq, Repr

namespace FileError

/-- The message of an error. -/
def message : FileError → String
  | .exists place => "[Errno 17] File exists: " ++ quoted place.text
  | .notDirectory place => "[Errno 20] Not a directory: " ++ quoted place.text
  | .isDirectory place => "[Errno 21] Is a directory: " ++ quoted place.text
  | .notText place => "invalid text in " ++ quoted place.text

end FileError

/-- Directories and files, the last one made first. -/
structure FileTree where
  /-- The entries; of several at one place the first counts. -/
  entries : List (Location × FileEntry)
  deriving Repr

namespace FileTree

/-- What stands at a place. -/
def get? (t : FileTree) (place : Location) : Option FileEntry :=
  if place.isEmpty then some .directory else t.entries.lookup place

/-- Whether a directory stands at a place. -/
def isDir (t : FileTree) (place : Location) : Bool := t.get? place == some .directory

/-- Whether anything stands at a place. -/
def holds (t : FileTree) (place : Location) : Bool := (t.get? place).isSome

/-- Whether the names of a path lead from a place to anything.  Every name is looked up in a
directory, double full stops as well. -/
def reaches (t : FileTree) (place : Location) : List String → Bool
  | [] => t.holds place
  | name :: rest => t.isDir place && t.reaches (Path.stepFrom place name) rest

/-- Whether a path leads from a directory to anything. -/
def finds (t : FileTree) (base : Location) (p : Path) : Bool :=
  t.reaches (if p.absolute then [] else base) p.parts

/-- Puts an entry at a place that is free. -/
def put (t : FileTree) (place : Location) (e : FileEntry) : FileTree := ⟨(place, e) :: t.entries⟩

/-- The places on the way to a place, the place itself last. -/
def wayTo (place : Location) : List Location :=
  (List.range place.length).map fun n => place.take (n + 1)

/-- Puts a directory at a place where nothing stands. -/
def ensure (t : FileTree) (place : Location) : FileTree :=
  if t.holds place then t else t.put place .directory

/-- Makes a directory and the missing ones above it, as far as nothing is in the way. -/
def ensureAll (t : FileTree) (place : Location) : FileTree := (wayTo place).foldl ensure t

/-- Makes a directory and the missing ones above it; nothing happens if it is there. -/
def makeDirs (t : FileTree) (place : Location) : Except FileError FileTree :=
  if t.isDir place then .ok t
  else if t.holds place then .error (.exists place)
  else if (wayTo place).any fun p => t.holds p && !t.isDir p then .error (.notDirectory place)
  else .ok (t.ensureAll place)

/-- Whether nothing stands at a place or below it. -/
def isFree (t : FileTree) (place : Location) : Bool := t.entries.all fun e => !place.isPrefixOf e.1

/-- A change of the files, made from a directory. -/
abbrev Change := Location → FileTree → FileTree

/-- The change that makes directories, seen from its own, as far as nothing is in the way. -/
def making (paths : List String) : Change := fun place t =>
  paths.foldl (fun t p => t.ensureAll ((Path.ofText p).resolve place)) t

/-- Removes a place and all below it. -/
def remove (t : FileTree) (place : Location) : FileTree :=
  ⟨t.entries.filter fun e => !place.isPrefixOf e.1⟩

/-- The names in a directory. -/
def children (t : FileTree) (place : Location) : List String :=
  if t.isDir place then
    (t.entries.filterMap fun e =>
      if e.1.dropLast = place ∧ e.1 ≠ [] then e.1.getLast? else none).eraseDups
  else []

/-- The bytes of a file. -/
def read (t : FileTree) (place : Location) : Except FileError (List UInt8) :=
  match t.get? place with
  | some (.file bytes) => .ok bytes
  | _ => .error (.isDirectory place)

/-- The text of a file, its line ends unified. -/
def readText (t : FileTree) (place : Location) : Except FileError String := do
  match Utf8.decode? (← t.read place) with
  | some s => pure (String.ofList (unifyLineEnds s))
  | none => throw (.notText place)

/-! ### Small laws -/

@[simp] theorem get?_nil (t : FileTree) : t.get? [] = some .directory := rfl

/-- What was put stands at its place, and nothing else changes. -/
theorem get?_put (t : FileTree) {place : Location} (h : place ≠ []) (e : FileEntry)
    (other : Location) :
    (t.put place e).get? other = if other = place then some e else t.get? other := by
  cases other with
  | nil => simp [get?, Ne.symm h]
  | cons n rest =>
    by_cases ho : n :: rest = place
    · subst ho
      simp [get?, put]
    · have hb : (n :: rest == place) = false := by simpa using ho
      simp [get?, put, List.lookup_cons, hb, ho]

/-- Nothing stands at or below a place that was removed, and nothing else changes. -/
theorem get?_remove (t : FileTree) {place : Location} (h : place ≠ []) (other : Location) :
    (t.remove place).get? other =
      if place.isPrefixOf other then none else t.get? other := by
  cases other with
  | nil =>
    have : place.isPrefixOf [] = false := by cases place <;> simp_all
    simp [get?, this]
  | cons n rest =>
    simp only [get?, remove, List.isEmpty_cons, Bool.false_eq_true, if_false]
    induction t.entries with
    | nil => simp
    | cons e es ih =>
      obtain ⟨p, f⟩ := e
      by_cases hp : place.isPrefixOf p = true
      · rw [List.filter_cons_of_neg (by simpa using hp), ih]
        by_cases hpo : n :: rest = p
        · subst hpo
          simp [hp]
        · have : (n :: rest == p) = false := by simpa using hpo
          simp [List.lookup_cons, this]
      · have hp' := Bool.eq_false_iff.2 hp
        rw [List.filter_cons_of_pos (by simp only [hp', Bool.not_false]), List.lookup_cons,
          List.lookup_cons]
        by_cases hpo : n :: rest = p
        · subst hpo
          simp [hp]
        · have hb : (n :: rest == p) = false := by simpa using hpo
          simp only [hb]
          exact ih

end FileTree

end CiRunner
