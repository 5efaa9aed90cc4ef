import CiRunner.Run.Hint
import CiRunner.Value.Display

/-!
# Why a step fails

A step fails because its command did, or because it could not be run at all.  Both kinds of failure
have a text that names the job and the step.

`Diagnosis` and `CommandFailure` formalise `CIError` and `StepFailure`.
-/

namespace CiRunner

open CiRunner.Text

/-- A failure of the runner's own: what it is, where, and details by name. -/
structure Diagnosis where
  /-- The kind of failure. -/
  kind : String
  /-- The job. -/
  job : String
  /-- The step, if one was running. -/
  step : Option String
  /-- What is wrong. -/
  message : String
  /-- More about it. -/
  details : List (String × Value) := []
  deriving Repr

namespace Diagnosis

/-- The text of a failure: a line for what it is, then one for each thing known about it. -/
def text (d : Diagnosis) : String :=
  let step :=
    match d.step with
    | none | some "" => []
    | some name => ["step=" ++ name]
  join "\n" ([d.kind ++ ": " ++ d.message, "job=" ++ d.job] ++ step ++
    d.details.map fun (name, v) => name ++ "=" ++ v.display)

end Diagnosis

/-- A command that failed: it exited with a code, or ran out of time. -/
structure CommandFailure where
  /-- The job. -/
  job : String
  /-- The step. -/
  step : String
  /-- The command. -/
  command : String
  /-- The exit code, unknown if time ran out. -/
  exitCode : Option Int
  /-- What may mend it. -/
  hint : Option String := none
  /-- The last lines of its output. -/
  outputTail : String := ""
  /-- Whether time ran out. -/
  timedOut : Bool := false
  deriving Repr

namespace CommandFailure

/-- The text of an exit code. -/
def codeText : Option Int → String
  | some code => toString code
  | none => "None"

/-- The text of a failure. -/
def text (f : CommandFailure) : String :=
  let step := "[" ++ f.job ++ "] step '" ++ f.step ++ "' "
  if f.timedOut then step ++ "timed out: " ++ f.command
  else step ++ "failed (exit=" ++ codeText f.exitCode ++ "): " ++ f.command

end CommandFailure

end CiRunner
