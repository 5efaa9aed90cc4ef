import CiRunner.Decimal.Reading
import CiRunner.Event.Basic
import CiRunner.Workflow.Environment

/-!
# Arguments of the command line

The arguments name a command, with options before it for all commands and options after it for this
one.  An option with a value takes the next argument, or the text after an equals sign; of several
values the last one counts.  Everything else is an error of usage.

The options are those of the group `cli` and of its commands.
-/

namespace CiRunner

/-- What is asked of the program. -/
inductive Command where
  /-- Runs a workflow for an event. -/
  | run (workflow : Option String) (kind : String) (branch sha : Option String) (isolated : Bool)
      (workDir : Option String) (force : Bool)
  /-- Tells whether an event would start a run. -/
  | check (workflow : Option String) (kind : String) (branch sha : Option String)
  /-- Shows a workflow. -/
  | describe (workflow : Option String)
  /-- Serves notifications. -/
  | serve (address : String) (port : Int)
  deriving DecidableEq, Repr

/-- What the arguments ask for. -/
structure Invocation where
  /-- Whether details are shown. -/
  debug : Bool
  /-- Whether the output of commands is left out. -/
  quiet : Bool
  /-- The command. -/
  command : Command
  deriving DecidableEq, Repr

namespace Arguments

/-- Whether an option takes a value. -/
inductive Arity where
  /-- It takes none. -/
  | flag
  /-- It takes one. -/
  | value
  deriving DecidableEq, Repr

/-- Options by name. -/
abbrev Known := List (String × Arity)

/-- An option that was given, maybe with its value. -/
abbrev Given := List (String × Option String)

/-- An argument cut at its first equals sign. -/
def splitOption (arg : String) : String × Option String :=
  let name := arg.toList.takeWhile (· != '=')
  if name.length = arg.length then (arg, none)
  else (String.ofList name, some (String.ofList (arg.toList.drop (name.length + 1))))

/-- Whether an argument is an option rather than a word; a lone hyphen is a word. -/
def isOption (arg : String) : Bool := arg.toList.head? == some '-' && arg != "-"

/-- Reads options up to the first word: the options, and the words with all that follows them. -/
def readOptions (known : Known) : List String → Option (Given × List String)
  | [] => some ([], [])
  | arg :: rest =>
    if arg = "--" then some ([], rest)
    else if isOption arg = false then some ([], arg :: rest)
    else
      let (name, value) := splitOption arg
      match known.lookup name, value, rest with
      | some .flag, none, rest =>
        (readOptions known rest).map fun (g, ws) => ((name, none) :: g, ws)
      | some .value, some v, rest =>
        (readOptions known rest).map fun (g, ws) => ((name, some v) :: g, ws)
      | some .value, none, v :: rest =>
        (readOptions known rest).map fun (g, ws) => ((name, some v) :: g, ws)
      | _, _, _ => none

/-- Reads options among which no words may stand. -/
def readAll (known : Known) (args : List String) : Option Given :=
  match readOptions known args with
  | some (given, []) => some given
  | _ => none

/-- The last value given for an option. -/
def last? (given : Given) (name : String) : Option String :=
  (given.reverse.lookup name).join

/-- Whether an option was given. -/
def has (given : Given) (name : String) : Bool := (given.lookup name).isSome

/-- Which of two opposite options was given last. -/
def lastOf (given : Given) (yes no : String) : Bool :=
  match given.reverse.find? fun g => g.1 == yes || g.1 == no with
  | some g => g.1 == yes
  | none => false

/-! ### The commands -/

/-- The option that names the workflow. -/
def workflowOptions : Known := [("--workflow", .value)]

/-- The options that describe an event. -/
def eventOptions : Known := [("--event", .value), ("--branch", .value), ("--sha", .value)]

/-- The options for running. -/
def runOptions : Known :=
  workflowOptions ++ eventOptions ++
    [("--isolated", .flag), ("--in-place", .flag), ("--work-dir", .value), ("--force", .flag)]

/-- The options for serving. -/
def serveOptions : Known := [("--host", .value), ("--port", .value)]

/-- The workflow that is named by an option, else by a variable that is not empty. -/
def workflowOf (env : Environment) (given : Given) : Option String :=
  match last? given "--workflow" with
  | some name => some name
  | none =>
    match env.value? "BRANCHCI_WORKFLOW" with
    | some "" => none
    | name => name

/-- The kind of event, which is a push unless another kind is named. -/
def kindOf (given : Given) : Option String :=
  match last? given "--event" with
  | none => some pushKind
  | some kind => if eventKinds.contains kind then some kind else none

/-- The port, which has to be an integer. -/
def portOf (given : Given) : Option Int :=
  match last? given "--port" with
  | none => some 8000
  | some text => Decimal.intOfText? text

/-- Reads a command and its options. -/
def readCommand (env : Environment) (name : String) (args : List String) : Option Command :=
  match name with
  | "run" => do
    let given ← readAll runOptions args
    let kind ← kindOf given
    return .run (workflowOf env given) kind (last? given "--branch") (last? given "--sha")
      (lastOf given "--isolated" "--in-place") (last? given "--work-dir") (has given "--force")
  | "check" => do
    let given ← readAll (workflowOptions ++ eventOptions) args
    let kind ← kindOf given
    return .check (workflowOf env given) kind (last? given "--branch") (last? given "--sha")
  | "show" => do
    let given ← readAll workflowOptions args
    return .describe (workflowOf env given)
  | "serve" => do
    let given ← readAll serveOptions args
    let port ← portOf given
    return .serve ((last? given "--host").getD "127.0.0.1") port
  | _ => none

/-- Reads the arguments; nothing if they are an error of usage. -/
def read? (env : Environment) (args : List String) : Option Invocation := do
  let (given, words) ← readOptions [("--debug", .flag), ("--quiet", .flag)] args
  match words with
  | [] => none
  | name :: rest =>
    let command ← readCommand env name rest
    return { debug := has given "--debug", quiet := has given "--quiet", command }

end Arguments

end CiRunner
