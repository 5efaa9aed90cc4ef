import CiRunner.CommandLine.Commands

/-!
# The program

Reads the workflow files below the working directory, carries out the command that the arguments
ask for, and prints what it tells.  Everything is decided by `Commands.execute`; on the machine made
here no other program can be started, so that a step that needs a shell reports that it has none.
-/

namespace CiRunner.Main

/-- The variables that the commands look at. -/
def variableNames : List String :=
  ["HOME", "BRANCHCI_WORKFLOW", "BRANCHCI_REPO_ROOT", "BRANCHCI_REPO_URL",
    "BRANCHCI_CLONE_FROM_PAYLOAD", "BRANCHCI_WEBHOOK_SECRET", "BRANCHCI_WORK_DIR",
    "BRANCHCI_HISTORY_SIZE"]

/-- Reads the variables that are set. -/
def readVariables : IO Environment := do
  let values ← variableNames.mapM fun name => return (name, ← IO.getEnv name)
  return values.filterMap fun (name, value) => value.map (name, ·)

/-- The place that a path leads to from a directory. -/
def placeOf (directory : Location) (path : String) : Location :=
  (Path.ofText path).resolve directory

/-- Whether the content of a file of this name is looked at. -/
def isRead (name : String) : Bool :=
  FileTree.documentSuffixes.contains (Path.suffixOf name) || Path.suffixOf name == ".py"

/-- Adds what stands at a place: a directory, or a file with its bytes if they are looked at. -/
def addPlace (tree : FileTree) (place : Location) : IO FileTree := do
  let path := (← IO.currentDir) / place.text
  if ← path.isDir then return tree.ensureAll place
  else if ← path.pathExists then
    let bytes ← if isRead (place.getLast?.getD "") then IO.FS.readBinFile path else pure ⟨#[]⟩
    return (tree.ensureAll place.dropLast).put place (.file bytes.toList)
  else return tree

/-- Adds a directory and what stands in it. -/
def addDirectory (tree : FileTree) (place : Location) : IO FileTree := do
  let path := (← IO.currentDir) / place.text
  let mut tree ← addPlace tree place
  if ← path.isDir then
    for child in ← path.readDir do
      tree ← addPlace tree (place ++ [child.fileName])
  return tree

/-- Reads the directories in which workflow files are looked up, and the files that are named. -/
def readTree (directory : Location) (named : List String) : IO FileTree := do
  let mut tree : FileTree := ⟨[]⟩
  for path in [".", ".github", ".github/workflows"] do
    tree ← addDirectory tree (placeOf directory path)
  for path in named do
    tree ← addPlace tree (placeOf directory path)
  return tree

/-- The machine of the program, on which no other program is found. -/
def machine (environment : Environment) (directory : Location) : Host Float where
  program := fun _ => { duration := 0.0, missing := true }
  git := fun _ _ => none
  environment := environment
  directory := directory
  temporary := ["tmp"]
  script := fun _ => []
  now := fun _ => ⟨⟨1970, 1, 1⟩, 0, 0, 0, 0, some 0⟩
  freshName := fun n => String.ofList (Text.hexDigits 32 (n + 1))

/-- Prints what an action tells. -/
def print : Action Float → IO Unit
  | .tell ⟨.out, text⟩ => IO.print text
  | .tell ⟨.err, text⟩ => IO.eprint text
  | _ => pure ()

/-- What is said about an error of usage. -/
def usage : String :=
  "Usage: branchci [--debug] [--quiet] run|check|show|serve [OPTIONS]"

/-- Carries out a command and gives the exit code. -/
def run (args : List String) : IO UInt32 := do
  let environment ← readVariables
  let directory := placeOf [] (← IO.currentDir).toString
  let named := args ++ (environment.value? "BRANCHCI_WORKFLOW").toList
  let tree ← readTree directory named
  let (outcome, world) :=
    ((Commands.execute args).run (machine environment directory)).run.run { clock := 0.0, tree }
  world.actions.toList.forM print
  match outcome with
  | .ok .usage =>
    IO.eprintln usage
    return 2
  | .ok exit => return exit.toNat.toUInt32
  | .error fault =>
    IO.eprintln ("Error: " ++ fault.message)
    return 1

end CiRunner.Main

/-- The command line. -/
def main (args : List String) : IO UInt32 := CiRunner.Main.run args
