import CiRunner.Event.Basic
import CiRunner.Text.Blank
import CiRunner.Text.Quoted

/-!
# Building workflows

Steps, rules, jobs and workflows from their parts, with the usual parts left out.  A job needs a
step and a workflow a job.  In a rule, no patterns mean that there is no filter.

The functions formalise `sh`, `checkout`, `on_push`, `on_pull_request`, `job` and `wf`.
-/

namespace CiRunner

open CiRunner.Text

/-- Why something cannot be built. -/
inductive BuildError where
  /-- A job without steps. -/
  | jobWithoutSteps (name : String)
  /-- A draft of a job without steps. -/
  | draftWithoutSteps (name : String)
  /-- A workflow without jobs. -/
  | workflowWithoutJobs (name : String)
  /-- A build tool that is not known, and those that are. -/
  | unknownTool (tool : String) (known : List String)
  deriving DecidableEq, Repr

namespace BuildError

/-- The message of an error. -/
def message : BuildError → String
  | jobWithoutSteps name => "job(" ++ quoted name ++ ") must have at least one step"
  | draftWithoutSteps name => "Job '" ++ name ++ "' has no steps"
  | workflowWithoutJobs name => "wf(" ++ quoted name ++ ") must have at least one job"
  | unknownTool tool known =>
    "Unknown build manager: " ++ quoted tool ++ ". Known: [" ++ join ", " (known.map quoted) ++ "]"

end BuildError

/-! ### Steps -/

namespace Step

/-- A step that runs a command. -/
def ofCommand (name command : String) (cwd : Value) (env : Environment)
    (timeoutMinutes : Option Float) : Step :=
  { name, run := some command, cwd, env, timeoutMinutes }

/-- The version of the checkout that is used if none is given. -/
def usualCheckout : String := "v3"

/-- A step that checks the repository out. -/
def ofCheckout (version name : String) : Step :=
  { name, uses := some ("actions/checkout@" ++ version) }

end Step

/-! ### Rules -/

namespace TriggerRule

/-- A filter of patterns; without patterns there is none. -/
def filter : List String → Option (List String)
  | [] => none
  | patterns => some patterns

/-- Pushes to branches. -/
def onPush (branches ignore : List String) : TriggerRule :=
  { event := pushKind, branches := filter branches, branchesIgnore := filter ignore }

/-- Pull requests for branches, with certain activities. -/
def onPullRequest (branches ignore types : List String) : TriggerRule :=
  { event := pullRequestKind, branches := filter branches, branchesIgnore := filter ignore
    types := filter types }

end TriggerRule

/-! ### Jobs and workflows -/

namespace Job

/-- A job of steps; a working directory is meant for the steps without one of their own. -/
def ofSteps (name : String) (steps : List Step) (needs : List String) (env : Environment)
    (runsOn : Option String) (timeoutMinutes : Option Float) (cwd : Option String) :
    Except BuildError Job :=
  let placed (s : Step) : Step :=
    match cwd, s.cwd with
    | some directory, .null => { s with cwd := .text directory }
    | _, _ => s
  if steps.isEmpty then .error (.jobWithoutSteps name)
  else .ok { name, steps := steps.map placed, env, needs, runsOn, timeoutMinutes }

end Job

namespace Workflow

/-- A workflow of jobs. -/
def ofJobs (name : String) (jobs : List Job) (triggers : List TriggerRule) (env : Environment) :
    Except BuildError Workflow :=
  if jobs.isEmpty then .error (.workflowWithoutJobs name) else .ok { name, triggers, jobs, env }

end Workflow

end CiRunner
