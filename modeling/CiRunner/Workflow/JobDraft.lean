import CiRunner.Value.Display
import CiRunner.Workflow.Building

/-!
# Drafts of jobs

A draft is written call by call and can be made into a job at any time, as soon as it has a step.
Steps and needs are appended, variables are written over, and of several labels or limits the last
one counts.

`JobDraft` formalises `JobBuilder`, and its calls the methods of that class.
-/

namespace CiRunner

/-- A job in the making. -/
structure JobDraft where
  /-- The name. -/
  name : String
  /-- The jobs it depends on. -/
  needs : List String := []
  /-- The steps. -/
  steps : List Step := []
  /-- The variables. -/
  env : Environment := []
  /-- The label of the machine it asks for. -/
  runsOn : Option String := none
  /-- The time limit in minutes. -/
  timeoutMinutes : Option Float := none
  deriving Repr, Inhabited

namespace JobDraft

/-- What can be written into a draft. -/
inductive Call where
  /-- Jobs it depends on. -/
  | dependsOn (names : List String)
  /-- A step that runs a command. -/
  | defineStep (name command : String) (cwd : Value)
  /-- A checkout. -/
  | checkout (version : String)
  /-- Variables, whose values are turned to text. -/
  | withEnv (settings : List (String × Value))
  /-- The label of the machine. -/
  | runsOn (label : String)
  /-- The time limit in minutes. -/
  | timeout (minutes : Float)
  deriving Repr

/-- Writes into a draft. -/
def apply (d : JobDraft) : Call → JobDraft
  | .dependsOn names => { d with needs := d.needs ++ names }
  | .defineStep name command cwd =>
    { d with steps := d.steps ++ [Step.ofCommand name command cwd [] none] }
  | .checkout version => { d with steps := d.steps ++ [Step.ofCheckout version "Checkout"] }
  | .withEnv settings =>
    { d with env := d.env.update (settings.map fun (name, v) => (name, v.display)) }
  | .runsOn label => { d with runsOn := some label }
  | .timeout minutes => { d with timeoutMinutes := some minutes }

/-- The draft after several calls. -/
def applyAll (d : JobDraft) (calls : List Call) : JobDraft := calls.foldl apply d

/-- The job of a draft. -/
def build (d : JobDraft) : Except BuildError Job :=
  if d.steps.isEmpty then .error (.draftWithoutSteps d.name)
  else .ok {
    name := d.name, steps := d.steps, env := d.env, needs := d.needs, runsOn := d.runsOn
    timeoutMinutes := d.timeoutMinutes }

end JobDraft

end CiRunner
