import CiRunner.Run.Git

/-!
# Working trees of runs

A run uses a directory in place, or an isolated one: an empty directory below a fresh temporary
one, which is removed with all its contents when the run is over, however it ends.

`provide` formalises the context manager `provision`.
-/

namespace CiRunner

open CiRunner.Text

/-- The working tree of a run. -/
structure Workspace where
  /-- Where it is. -/
  place : Location
  /-- Whether it was made for this run. -/
  isolated : Bool
  /-- The repository an isolated one is cloned from. -/
  source : String
  /-- What is checked out there; empty for the tip of the repository. -/
  reference : String := ""
  deriving DecidableEq, Repr

namespace Workspace

variable {τ α : Type}

/-- The working directory of a run in place. -/
def inPlace (place : Location) (source reference : String) : Workspace :=
  { place, isolated := false, source, reference }

/-- The text of a value that counts as true, else the empty text. -/
def textOr (v : Value) (otherwise : String) : String := if v.truthy then v.display else otherwise

/-- What an isolated run of an event checks out: its commit, else its branch. -/
def referenceOf (e : Event) : String := textOr e.sha (textOr e.branch "")

/-- The directory that temporary directories are made in: the given one, which is made if it is
missing, or that of the host. -/
def temporaryParent (workDir : Option String) : RunM τ Location := do
  let host ← read
  match workDir with
  | none => return host.temporary
  | some text =>
    match Path.expandHome? (← RunM.home) host.users (Path.ofText text) with
    | none => throw .homeUnknown
    | some path =>
      let place := path.resolve host.directory
      let w ← get
      match w.tree.makeDirs place with
      | .error e => throw (.file e)
      | .ok tree =>
        set { w with tree }
        return place

/-- The name of the temporary directory made after so many others. -/
def temporaryName (count : Nat) : String := "branchci_" ++ toString (count + 1)

/-- How many temporary directories come before the first one whose place in a directory is free. -/
def firstFree (tree : FileTree) (parent : Location) (count : Nat) : Nat :=
  ((List.range' count (tree.entries.length + 1)).find? fun n =>
    tree.isFree (parent ++ [temporaryName n])).getD count

/-- The directory for the working tree in a temporary one. -/
def treeName : String := "repo"

/-- Makes a temporary directory with an empty directory for a working tree in it. -/
def makeTemporary (parent : Location) : RunM τ Location := do
  let w ← get
  let count := firstFree w.tree parent w.temporaries
  let place := parent ++ [temporaryName count]
  let tree := (w.tree.put place .directory).put (place ++ [treeName]) .directory
  set { w with temporaries := count + 1, tree }
  RunM.act (.makeTemporary place)
  return place

/-- Removes a temporary directory and all below it. -/
def removeTemporary (place : Location) : RunM τ Unit := do
  modify fun w => { w with tree := w.tree.remove place }
  RunM.act (.removeTemporary place)

/-- Does something with an isolated working tree. -/
def withIsolated (e : Event) (workDir : Option String) (source : String)
    (body : Workspace → RunM τ α) : RunM τ α := do
  let parent ← temporaryParent workDir
  let place ← makeTemporary parent
  RunM.ensuring
    (body { place := place ++ [treeName], isolated := true, source, reference := referenceOf e })
    (removeTemporary place)

/-- Does something with a working tree for an event.  Its source is the given one, else the root. -/
def provide (root : String) (e : Event) (isolated : Bool) (workDir source : Option String)
    (body : Workspace → RunM τ α) : RunM τ α := do
  let place ← RunM.resolve root
  let source :=
    match source with
    | none | some "" => place.text
    | some source => source
  if isolated then withIsolated e workDir source body
  else body (inPlace place source (textOr e.sha ""))

end Workspace

end CiRunner
