import CiRunner.Value.Basic
import CiRunner.Workflow.Environment

/-!
# Workflows

A workflow is a list of jobs, each an ordered list of steps that share one working tree, together
with the rules that tell which repository events start it.  Jobs run in the order of their
declaration.
-/

namespace CiRunner

/-- When a workflow starts: one kind of event and its branch filters.  An absent filter lets every
branch through, an empty one none. -/
structure TriggerRule where
  /-- The kind of event. -/
  event : String
  /-- The patterns a branch has to be included by. -/
  branches : Option (List String) := none
  /-- The patterns a branch must not match. -/
  branchesIgnore : Option (List String) := none
  /-- The activities of a pull request that start a run. -/
  types : Option (List String) := none
  deriving DecidableEq, Repr, Inhabited

/-- A single command, or an action, of a job. -/
structure Step where
  /-- The name. -/
  name : String
  /-- The command. -/
  run : Option String := none
  /-- The action used in place of a command. -/
  uses : Option String := none
  /-- The inputs of the action. -/
  inputs : Environment := []
  /-- The variables of the step. -/
  env : Environment := []
  /-- The working directory, which documents may give as any value. -/
  cwd : Value := .null
  /-- The shell that runs the command. -/
  shell : String := "bash"
  /-- The time limit in minutes. -/
  timeoutMinutes : Option Float := none
  deriving Repr, Inhabited

namespace Step

/-- Whether the step uses an action. -/
def isAction (s : Step) : Bool := s.uses.isSome

/-- The command of the step, or the action it uses. -/
def display (s : Step) : String :=
  match s.run with
  | some command => command
  | none => "uses: " ++ s.uses.getD "None"

end Step

/-- An ordered list of steps. -/
structure Job where
  /-- The name. -/
  name : String
  /-- The steps. -/
  steps : List Step
  /-- The variables of the job. -/
  env : Environment := []
  /-- The jobs this one depends on, which have to be declared before it. -/
  needs : List String := []
  /-- The label of the machine the job asks for. -/
  runsOn : Option String := none
  /-- The time limit in minutes. -/
  timeoutMinutes : Option Float := none
  deriving Repr, Inhabited

/-- Jobs and the rules that start them. -/
structure Workflow where
  /-- The name. -/
  name : String
  /-- The rules. -/
  triggers : List TriggerRule := []
  /-- The jobs. -/
  jobs : List Job
  /-- The variables of the workflow. -/
  env : Environment := []
  /-- Where the workflow was read from. -/
  source : Option String := none
  deriving Repr, Inhabited

namespace Workflow

/-- All steps with their jobs, in the order in which they run. -/
def steps (w : Workflow) : List (Job × Step) :=
  w.jobs.flatMap fun j => j.steps.map fun s => (j, s)

end Workflow

end CiRunner
