import CiRunner.Event.Basic

/-!
# Results of runs

A run ends with one result for each step of its workflow, in the order of the steps.  A run fails
when one of its steps fails; steps after that are skipped.

The two records formalise `StepResult` and `RunResult`.
-/

namespace CiRunner

/-- How a step ended. -/
inductive Status where
  /-- The step did what it had to do. -/
  | success
  /-- The step failed. -/
  | failure
  /-- The step was not started, since an earlier one failed. -/
  | skipped
  /-- Any other word a caller uses. -/
  | other (word : String)
  deriving DecidableEq, Repr, Inhabited

namespace Status

/-- The word for a status. -/
def text : Status → String
  | success => "success"
  | failure => "failure"
  | skipped => "skipped"
  | other word => word

/-- The status that a word stands for. -/
def ofText (word : String) : Status :=
  if word = "success" then success
  else if word = "failure" then failure
  else if word = "skipped" then skipped
  else other word

/-- The word for a status in capitals. -/
def capitals (s : Status) : String := String.ofList (s.text.toList.map Char.toUpper)

end Status

/-- What came of one step. -/
structure StepResult where
  /-- The job of the step. -/
  job : String
  /-- The name of the step. -/
  name : String
  /-- How the step ended. -/
  status : Status
  /-- The exit code of its command. -/
  exitCode : Option Int := none
  /-- How many seconds it took. -/
  duration : Float := 0.0
  /-- The last lines of its output, kept if it failed. -/
  outputTail : String := ""
  /-- Why it failed. -/
  error : Option String := none
  /-- What may mend the failure. -/
  hint : Option String := none
  deriving Repr, Inhabited

/-- What came of a run. -/
structure RunResult where
  /-- The name of the workflow. -/
  workflow : String
  /-- The event that started the run. -/
  event : Event
  /-- The results of the steps. -/
  steps : List StepResult := []
  deriving Repr, Inhabited

namespace RunResult

/-- A run fails when one of its steps fails. -/
def status (r : RunResult) : Status :=
  if r.steps.any fun s => s.status == .failure then .failure else .success

/-- Whether no step failed. -/
def ok (r : RunResult) : Bool := r.status == .success

/-- The results of the steps that were started. -/
def executed (r : RunResult) : List StepResult := r.steps.filter fun s => s.status != .skipped

/-- The result of the first step that failed. -/
def failedStep? (r : RunResult) : Option StepResult := r.steps.find? fun s => s.status == .failure

end RunResult

end CiRunner
