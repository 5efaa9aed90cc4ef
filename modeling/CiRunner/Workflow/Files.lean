import CiRunner.FileTree.Discovery
import CiRunner.Workflow.Document

/-!
# Workflow files

A workflow is read from a document or from a script.  What a script does is not looked at: it gives
a list of named definitions, among which the workflow is a function named `workflow` that returns
one, or else a constant named `WORKFLOW`.

`load` formalises `load_workflow`, and `loadScript` formalises `_load_python_workflow`.
-/

namespace CiRunner

/-- A value in a script: a workflow, or anything else. -/
abbrev ScriptValue := Option Workflow

/-- What a script defines under a name. -/
inductive Definition where
  /-- A function, with what it returns or the message of its failure. -/
  | function (result : Except String ScriptValue)
  /-- A constant. -/
  | constant (value : ScriptValue)

/-- The definitions of a script. -/
abbrev Script := List (String × Definition)

/-- Why a workflow cannot be loaded. -/
inductive LoadError where
  /-- There is no such file. -/
  | notFound (place : Location)
  /-- The home directory is not known. -/
  | homeUnknown
  /-- The file cannot be read. -/
  | file (reason : FileError)
  /-- What it defines is no workflow. -/
  | definition (reason : DefinitionError)
  /-- Its script fails. -/
  | script (message : String)
  /-- A directory stands where a script is to be run. -/
  | notScript (place : Location)

namespace LoadError

/-- The message about a file that is not there. -/
def notFoundMessage (place : Location) : String := "Workflow file not found: " ++ place.text

/-- A definition that is refused. -/
def refused (reason : WorkflowError) : LoadError := .definition (.refused reason)

end LoadError

namespace Script

/-- The value that a script gives for its workflow. -/
def value (s : Script) : Except LoadError ScriptValue :=
  match s.lookup "workflow" with
  | some (.function (.ok v)) => .ok v
  | some (.function (.error message)) => .error (.script message)
  | _ =>
    match s.lookup "WORKFLOW" with
    | some (.constant v) => .ok v
    | _ => .ok none

/-- The workflow of a script at a place. -/
def workflow (s : Script) (place : Location) : Except LoadError Workflow := do
  match ← s.value with
  | none => throw (.refused (.undefinedWorkflow (place.getLast?.getD "")))
  | some w =>
    let w := { w with source := some (w.source.getD place.text) }
    match checkJobs w.jobs with
    | .error e => throw (.refused e)
    | .ok () => return w

end Script

/-- The files among which workflows are looked up. -/
structure WorkflowFiles where
  /-- The files. -/
  tree : FileTree
  /-- What the script at a place defines. -/
  script : Location → Script
  /-- The working directory. -/
  directory : Location
  /-- The home directory that the environment gives. -/
  home : Option String
  /-- The users of the machine. -/
  users : Users := {}

namespace WorkflowFiles

/-- The place that the path of a workflow leads to. -/
def locate (fs : WorkflowFiles) (path : Path) : Except LoadError Location :=
  match Path.expandHome? fs.home fs.users path with
  | none => .error .homeUnknown
  | some path => .ok (path.resolve fs.directory)

/-- Reads the document at a place. -/
def loadDocument (fs : WorkflowFiles) (place : Location) : Except LoadError Workflow :=
  match fs.tree.readText place with
  | .error e => .error (.file e)
  | .ok text => (Workflow.ofText (some place.text) text).mapError .definition

/-- Runs the script at a place. -/
def loadScript (fs : WorkflowFiles) (place : Location) : Except LoadError Workflow :=
  if fs.tree.isDir place then .error (.notScript place) else (fs.script place).workflow place

/-- Loads a workflow, as the suffix of its file says. -/
def load (fs : WorkflowFiles) (path : Path) : Except LoadError Workflow := do
  let place ← fs.locate path
  let name := place.getLast?.getD ""
  if fs.tree.holds place = false then throw (.notFound place)
  else if FileTree.documentSuffixes.contains (Path.suffixOf name) then fs.loadDocument place
  else if Path.suffixOf name = ".py" then fs.loadScript place
  else throw (.refused (.unsupportedSuffix name))

/-- The workflow files below a root. -/
def discover (fs : WorkflowFiles) (root : Path) : List Path := fs.tree.discover fs.directory root

end WorkflowFiles

end CiRunner
