import CiRunner.CommandLine.Arguments
import CiRunner.Event.Local
import CiRunner.Server.Receiver

/-!
# The commands

Each command tells its user what it does and ends with an exit code.  What it cannot handle ends it
as well, without a message of its own.

`run`, `check`, `describe` and `serve` formalise the commands `run`, `check`, `show` and `serve`.
They share `findFile`, `loadWorkflow` and `makeEvent`, which are `discover_workflow`, `_load` and
`_event`.
-/

namespace CiRunner

open CiRunner.Text

/-- How the program ends. -/
inductive Exit where
  /-- With a code of its own. -/
  | code (n : Nat)
  /-- With an error of usage. -/
  | usage
  /-- Since a workflow cannot be loaded. -/
  | load (reason : LoadError)
  /-- Since a receiver cannot be set up. -/
  | setup (reason : Receiver.SetupError)
  /-- Since an event cannot be compared with a pattern. -/
  | pattern (reason : Branch.Pattern.MatchError)

namespace Exit

/-- The exit code. -/
def toNat : Exit → Nat
  | code n => n
  | usage => 2
  | _ => 1

end Exit

namespace Commands

/-- The code of a command that did what it had to do. -/
def done : Nat := 0

/-- The code of a command that failed. -/
def failed : Nat := 1

/-- The code of a check without a match. -/
def notTriggered : Nat := 3

/-- The code of a run that the user interrupted. -/
def interrupted : Nat := 130

/-- A computation that can end the program. -/
abbrev CommandM (τ : Type) := ExceptT Exit (RunM τ)

variable {τ : Type} [Streams]

/-- Does something that does not end the program. -/
def host {α : Type} (body : RunM τ α) : CommandM τ α := ExceptT.lift body

/-- Tells the user something. -/
def tell (m : Message) : CommandM τ Unit := host (RunM.tell m)

/-- Tells the user that something cannot be done, and ends the program. -/
def refuse {α : Type} (title message : String) (details : List String)
    (suggestion : Option String) :
    CommandM τ α := do
  tell (Console.error title message details suggestion)
  throw (.code failed)

/-! ### Loading a workflow -/

/-- The workflow file among those below the working directory, if there is exactly one. -/
def findOnly (files : WorkflowFiles) : CommandM τ Path := do
  match files.discover (Path.ofText ".") with
  | [] =>
    refuse "No workflow file found" "Could not find any workflow files."
      ["Looked for:", "  .github/workflows/*.yml", "  .github/workflows/*.yaml",
        "  *_workflow.py"]
      (some "Specify a workflow explicitly:\n  branchci run --workflow my_workflow.py")
  | [file] => return file
  | first :: rest =>
    refuse "Multiple workflow files found"
      "Found multiple workflow files. Please specify which one to use:"
      [join "\n" ((first :: rest).map fun f => "  " ++ f.text)]
      (some ("Specify a workflow explicitly:\n  branchci run --workflow " ++ first.text))

/-- Whether the path of a workflow leads to a file from the working directory. -/
def isThere (files : WorkflowFiles) (path : String) : Bool :=
  files.tree.finds files.directory (Path.ofText path)

/-- The workflow file that is named, else the only one there is. -/
def findFile (workflow : Option String) : CommandM τ Path := do
  let files ← host RunM.files
  match workflow with
  | none | some "" => findOnly files
  | some path =>
    if isThere files path then return Path.ofText path
    else
      refuse "Workflow file not found" ("Could not find workflow file: " ++ path) []
        (some "Specify a different path:\n  branchci run --workflow .github/workflows/ci.yml")

/-- Loads the workflow that is named, else the only one there is. -/
def loadWorkflow (workflow : Option String) : CommandM τ Workflow := do
  let file ← findFile workflow
  let files ← host RunM.files
  match files.load file with
  | .ok w => return w
  | .error (.definition (.refused reason)) =>
    refuse "Invalid workflow" ("Could not load workflow from " ++ file.text) [reason.message] none
  | .error reason => throw (.load reason)

/-- Makes the event that the options describe. -/
def makeEvent (kind : String) (branch sha : Option String) : CommandM τ Event := do
  match ← host (Event.ofCheckout kind branch sha ".") with
  | .ok e => return e
  | .error e => refuse "Could not build event" e.message [] none

/-! ### The commands -/

/-- Shows a workflow. -/
def describe (workflow : Option String) : CommandM τ Exit := do
  let w ← loadWorkflow workflow
  tell (Console.workflow w)
  return .code done

/-- Tells whether an event would start a run. -/
def check (workflow : Option String) (kind : String) (branch sha : Option String) :
    CommandM τ Exit := do
  let w ← loadWorkflow workflow
  let e ← makeEvent kind branch sha
  let place := " by " ++ e.kind ++ " on '" ++ e.branch.display ++ "'"
  match w.matchingRule e with
  | .error reason => return .pattern reason
  | .ok none =>
    tell (Console.info (w.name ++ ": not triggered" ++ place))
    return .code notTriggered
  | .ok (some rule) =>
    let patterns :=
      match rule.branches with
      | some patterns => join ", " patterns
      | none => "any branch"
    tell (Console.info (w.name ++ ": triggered" ++ place ++ " (matches " ++ patterns ++ ")"))
    return .code done

variable [Timeline τ]

/-- The exit code of a run that came to its end, or of an event that starts none. -/
def codeOf : Option RunResult → Nat
  | some result => if result.ok then done else failed
  | none => done

/-- The kind of a fault as it is named with details. -/
def faultKind : Fault → String
  | .interrupted => "KeyboardInterrupt"
  | .unknownShell _ => "KeyError"
  | .directoryNotText _ => "TypeError"
  | .directoryMalformed => "ValueError"
  | .directoryHidden reason => reason.kind.name
  | .file (.exists _) => "FileExistsError"
  | .file (.notDirectory _) => "NotADirectoryError"
  | .file (.isDirectory _) => "IsADirectoryError"
  | .file (.notText _) => "UnicodeDecodeError"
  | .homeUnknown => "RuntimeError"
  | .gitMissing => "FileNotFoundError"
  | .pattern (.malformedPattern _ _) => "re.error"
  | .pattern .branchNotText => "TypeError"
  | .system reason => reason.kind.name
  | .notTold reason => reason.kind.name

/-- Ends a run: its exit code, after a message if it was interrupted or broken off. -/
def finish (c : Console) : Except Fault (Option RunResult) → RunM τ Exit
  | .ok result => return .code (codeOf result)
  | .error .interrupted => do
    RunM.tell (Console.info "\nInterrupted by user")
    return .code interrupted
  | .error fault => do
    RunM.tell (c.fault (faultKind fault) fault.message)
    return .code failed

/-- Runs a workflow for an event. -/
def run (c : Console) (workflow : Option String) (kind : String) (branch sha : Option String)
    (o : RunOptions) : CommandM τ Exit := do
  let w ← loadWorkflow workflow
  let e ← makeEvent kind branch sha
  let result ← host (RunM.attempt (Trigger.trigger c w e o))
  host (finish c result)

/-- Serves notifications, with the settings of the environment. -/
def serve (c : Console) (address : String) (port : Int) : CommandM τ Exit := do
  host (RunM.act (.setUpLog (if c.debug then "DEBUG" else "INFO")))
  match ← host (Receiver.create none none) with
  | .ok r =>
    host (RunM.act (.serve address port (r.workflows.map (·.name))))
    return .code done
  | .error (.load (.definition (.refused reason))) =>
    refuse "Could not start webhook receiver" reason.message [] none
  | .error e =>
    match e.missingMessage? with
    | some message => refuse "Could not start webhook receiver" message [] none
    | none => return .setup e

/-- Carries out what the arguments ask for. -/
def perform (i : Invocation) : CommandM τ Exit :=
  let c : Console := { debug := i.debug, quiet := i.quiet }
  match i.command with
  | .run workflow kind branch sha isolated workDir force =>
    run c workflow kind branch sha { isolated, workDir, force }
  | .check workflow kind branch sha => check workflow kind branch sha
  | .describe workflow => describe workflow
  | .serve address port => serve c address port

/-- The program: reads the arguments, carries them out, and tells how it ends. -/
def execute (args : List String) : RunM τ Exit := do
  match Arguments.read? (← read).environment args with
  | none => return .usage
  | some i =>
    match ← (perform i).run with
    | .ok exit => return exit
    | .error exit => return exit

end Commands

end CiRunner
