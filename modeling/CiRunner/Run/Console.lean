import CiRunner.Decimal.Fixed
import CiRunner.Run.Result
import CiRunner.Value.Display

/-!
# What a run tells its user

Every message is one text for one stream.  A console that shows details adds the commands of the
steps and the full reasons of failures; a quiet one leaves out the output of commands and shows its
last lines only when a step fails.

The messages formalise the methods of `Console`, one definition for each.
-/

namespace CiRunner

open CiRunner.Text

/-- Where a message goes. -/
inductive Stream where
  /-- The standard output. -/
  | out
  /-- The standard error. -/
  | err
  deriving DecidableEq, Repr

/-- A text for a stream. -/
structure Message where
  /-- The stream. -/
  stream : Stream
  /-- The text. -/
  text : String
  deriving DecidableEq, Repr

namespace Message

/-- A text of lines, each ended. -/
def ofLines (lines : List String) : String := String.join (lines.map (· ++ "\n"))

/-- Lines for the standard output. -/
def out (lines : List String) : Message := ⟨.out, ofLines lines⟩

/-- Lines for the standard error. -/
def err (lines : List String) : Message := ⟨.err, ofLines lines⟩

end Message

namespace Event

/-- How many characters of a commit are shown. -/
def shownCommitLength : Nat := 12

/-- An event in a few words. -/
def describe (e : Event) : String :=
  let branch := e.branch.display
  let what :=
    if e.kind = pullRequestKind then
      "pull_request " ++ (if e.headBranch.truthy then e.headBranch.display ++ " -> " else "") ++
        branch
    else if e.refType ≠ "branch" then "push " ++ e.refType ++ " " ++ branch
    else "push " ++ branch
  if e.sha.truthy then
    what ++ " @ " ++ String.ofList (e.sha.display.toList.take shownCommitLength)
  else what

end Event

/-- How much is told. -/
structure Console where
  /-- Whether details are shown. -/
  debug : Bool := false
  /-- Whether the output of commands is left out. -/
  quiet : Bool := false
  deriving DecidableEq, Repr, Inhabited

namespace Console

/-- A number of seconds as it is shown. -/
def seconds (x : Float) : String := Decimal.fixed 1 x ++ "s"

/-- The title of a section. -/
def header (title : String) : Message :=
  .out ["", title, String.ofList (title.toList.map fun _ => '-')]

/-- A run was started. -/
def runStarted (workflow : String) (event : Event) (steps : Nat) : Message :=
  .out ["", "RUN STARTED", "Workflow: " ++ workflow, "Event: " ++ event.describe,
    "Steps: " ++ toString steps, ""]

/-- An event starts no run. -/
def notTriggered (workflow : String) (event : Event) : Message :=
  .out ["", "NO RUN: " ++ workflow ++ " is not triggered by " ++ event.describe]

/-- A label, unless there is none or an empty one. -/
def label? : Option String → Option String
  | some "" => none
  | label => label

/-- A job was started. -/
def jobStarted (name : String) (runsOn : Option String) : Message :=
  let machine :=
    match label? runsOn with
    | some label => " (runs-on " ++ label ++ ", running locally)"
    | none => ""
  .out ["", "JOB STARTED: " ++ name ++ machine]

/-- A step was started. -/
def stepStarted (c : Console) (name display : String) : Message :=
  .out (("STEP: " ++ name) :: if c.debug then ["  $ " ++ display] else [])

/-- A piece of the output of a command, untouched. -/
def echo (c : Console) (piece : String) : Message :=
  ⟨.out, if c.quiet then "" else piece⟩

/-- A text without the line feeds at its end. -/
def dropFinalFeeds (s : String) : String :=
  String.ofList (s.toList.reverse.dropWhile (· == '\n')).reverse

/-- The part of a text before its first line feed. -/
def firstLine (s : String) : String := String.ofList (s.toList.takeWhile (· != '\n'))

/-- The lines that tell why a step failed: all of the reason with details, else its first line. -/
def reasonLines (c : Console) (reason : String) : List String :=
  if c.debug then ["Error details: " ++ reason]
  else if firstLine reason = "" then []
  else ["Error: " ++ firstLine reason]

/-- The lines that show the end of the output of a command. -/
def tailLines : Option String → List String
  | none | some "" => []
  | some tail => "Output (tail):" :: (lines (dropFinalFeeds tail)).map ("  " ++ ·)

/-- A step failed. -/
def failure (c : Console) (name reason : String) (exitCode : Option Int) (hint : Option String)
    (tail : Option String) : Message :=
  .out (("STEP FAILED: " ++ name) ::
    ((exitCode.map fun code => "Exit code: " ++ toString code).toList ++ tailLines tail ++
      c.reasonLines reason ++ ((label? hint).map ("Hint: " ++ ·)).toList))

/-- A step ended. -/
def stepFinished (c : Console) (r : StepResult) : Message :=
  if r.status = .failure then
    c.failure r.name (r.error.getD "") r.exitCode r.hint
      (if c.quiet then some r.outputTail else none)
  else .out ["STATUS: " ++ r.status.text ++ " (" ++ seconds r.duration ++ ")"]

/-- The line of a step in the summary of a run. -/
def resultLine (r : StepResult) : String :=
  let step := "  " ++ r.job ++ " / " ++ r.name ++ ": "
  if r.status = .skipped then step ++ "SKIPPED"
  else
    let code := (r.exitCode.map fun code => ", exit " ++ toString code).getD ""
    step ++ r.status.capitals ++ " (" ++ seconds r.duration ++ code ++ ")"

/-- The line above and below the verdict of a run. -/
def rule : String := String.ofList (List.replicate 40 '=')

/-- The summary of a run. -/
def results (r : RunResult) : Message :=
  .out (["", rule, "RESULT: " ++ r.status.capitals, rule] ++ r.steps.map resultLine)

/-- A trigger rule. -/
def ruleLine (r : TriggerRule) : String :=
  let branches :=
    match r.branches with
    | some patterns => join ", " patterns
    | none => "any branch"
  let ignoring :=
    match r.branchesIgnore with
    | none | some [] => ""
    | some patterns => " (ignoring " ++ join ", " patterns ++ ")"
  let activities :=
    match r.types with
    | none | some [] => ""
    | some types => " [types: " ++ join ", " types ++ "]"
  "  " ++ r.event ++ ": " ++ branches ++ ignoring ++ activities

/-- The lines of numbered steps. -/
def stepLines (steps : List Step) : List String :=
  steps.zipIdx.map fun (s, i) => "  " ++ toString (i + 1) ++ ". " ++ s.name ++ ": " ++ s.display

/-- The lines of a job. -/
def jobLines (j : Job) : List String :=
  let machine := ((label? j.runsOn).map fun label => " (runs-on " ++ label ++ ")").getD ""
  ("Job: " ++ j.name ++ machine) :: stepLines j.steps

/-- A workflow as it was read. -/
def workflow (w : Workflow) : Message :=
  let source := ((label? w.source).map ("Source: " ++ ·)).toList
  let rules :=
    if w.triggers.isEmpty then ["  (none, never runs locally)"] else w.triggers.map ruleLine
  let env :=
    if w.env.isEmpty then []
    else "Env:" :: w.env.map fun (name, value) => "  " ++ name ++ "=" ++ value
  ⟨.out, (header ("Workflow: " ++ w.name)).text ++
    Message.ofLines (source ++ "Triggers:" :: rules ++ env ++ w.jobs.flatMap jobLines)⟩

/-- Something cannot be done. -/
def error (title message : String) (details : List String) (suggestion : Option String) :
    Message :=
  .err (["", "ERROR: " ++ title, message] ++ details.map ("  " ++ ·) ++
    match label? suggestion with
    | some text => ["", text]
    | none => [])

/-- A fault that nothing handled; with details it is named by its kind. -/
def fault (c : Console) (kind message : String) : Message :=
  if c.debug then .err [if message = "" then kind else kind ++ ": " ++ message]
  else .err ["Error: " ++ message]

/-- An information. -/
def info (text : String) : Message := .out [text]

/-- A remark shown only with details. -/
def remark (c : Console) (text : String) : Message :=
  .err (if c.debug then ["[DEBUG] " ++ text] else [])

end Console

end CiRunner
