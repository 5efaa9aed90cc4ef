import CiRunner.Run.Checkout
import CiRunner.Run.Command

/-!
# Running the steps of a workflow

The steps run one after another in the order of their declaration.  The first one that fails fails
the run: every step after it is recorded as skipped and never started.

`run` formalises `run_workflow`.  A step is run by `runBody`, which is `_run_step`, under the limit
`stepLimit`, which is `_step_timeout`; its variables are those of `run_env` and `step_env`.
-/

namespace CiRunner

open CiRunner.Text

/-! ### Variables -/

/-- The variables that tell every step of a run about it. -/
def contextVariables (w : Workflow) (e : Event) (place : Location) : Environment :=
  [("CI", "true"), ("BRANCHCI", "true"), ("BRANCHCI_WORKFLOW", w.name), ("BRANCHCI_EVENT", e.kind),
    ("BRANCHCI_BRANCH", e.branch.display), ("BRANCHCI_WORKSPACE", place.text)] ++
    if e.sha.truthy then [("BRANCHCI_SHA", e.sha.display)] else []

/-- The variables of a run: those about it, and those of the workflow over them. -/
def runVariables (w : Workflow) (e : Event) (place : Location) : Environment :=
  (contextVariables w e place).update w.env

/-- The variables of a step: those of the host, the run, the job and the step, each over the ones
before. -/
def stepVariables (host base : Environment) (job : Job) (step : Step) : Environment :=
  ((host.update base).update job.env).update step.env

namespace Sequence

variable {τ : Type} [Timeline τ] [Streams]

/-! ### One step -/

/-- The time limit of a step: the shorter of its own and what is left to its job. -/
def stepLimit (step : Step) (deadline : Option τ) (now : τ) : Option τ :=
  let own := step.timeoutMinutes.map Timeline.ofMinutes
  let left := deadline.map fun t => Timeline.clip (Timeline.minus t now)
  match own, left with
  | some a, some b => some (Timeline.least a b)
  | some a, none => some a
  | none, left => left

/-- The working directory of a step, which leads on from that of the run. -/
def directoryOf (place : Location) (cwd : Value) : Except Fault Location :=
  if cwd.truthy then
    match cwd with
    | .text s =>
      if s.toList.contains '\x00' then .error .directoryMalformed
      else .ok ((Path.ofText s).resolve place)
    | v => .error (.directoryNotText v)
  else .ok place

/-- Runs the action of a step. -/
def runAction (ws : Workspace) (job : Job) (step : Step) : RunM τ Outcome := do
  if Checkout.isCheckout step then
    match ← Checkout.perform ws step with
    | .ok done =>
      RunM.tell (Console.info done)
      return .success
    | .error message =>
      return .refused {
        kind := "checkout_failed", job := job.name, step := some step.name, message }
  else
    return .refused {
      kind := "unsupported_action", job := job.name, step := some step.name
      message := "action '" ++ step.uses.getD "None" ++ "' cannot run locally"
      details := [("supported", .text Checkout.actionName)] }

/-- Runs the command of a step in its directory. -/
def runCommand (c : Console) (ws : Workspace) (base : Environment) (job : Job) (step : Step)
    (limit : Option τ) : RunM τ Outcome := do
  match directoryOf ws.place step.cwd with
  | .error fault => throw fault
  | .ok directory =>
    if (← get).tree.isDir directory then
      Command.execute c job step directory (stepVariables (← read).environment base job step) limit
    else
      match (← read).hides (← get).tree directory with
      | some reason => throw (.directoryHidden reason)
      | none =>
        return .refused {
          kind := "cwd_not_found", job := job.name, step := some step.name
          message := "working directory not found: " ++ directory.text }

/-- The result of a step. -/
def resultOf (job : Job) (step : Step) (duration : Float) : Outcome → StepResult
  | .success =>
    { job := job.name, name := step.name, status := .success, duration
      exitCode := if step.isAction then none else some 0 }
  | .failed f =>
    { job := job.name, name := step.name, status := .failure, duration, exitCode := f.exitCode
      outputTail := f.outputTail, error := some f.text, hint := f.hint }
  | .refused d =>
    { job := job.name, name := step.name, status := .failure, duration, error := some d.text }

/-- The result of a step that was not started. -/
def skipped (job : Job) (step : Step) : StepResult :=
  { job := job.name, name := step.name, status := .skipped }

/-- Runs the action or the command of a step. -/
def runBody (c : Console) (ws : Workspace) (base : Environment) (job : Job) (step : Step)
    (limit : Option τ) : RunM τ Outcome :=
  if step.isAction then runAction ws job step else runCommand c ws base job step limit

/-- Runs a step. -/
def runStep (c : Console) (ws : Workspace) (base : Environment) (job : Job)
    (deadline : Option τ) (step : Step) : RunM τ StepResult := do
  RunM.tell (c.stepStarted step.name step.display)
  let start ← RunM.clock
  RunM.act (.beginStep job.name step.name start)
  let outcome ← runBody c ws base job step (stepLimit step deadline start)
  let stop ← RunM.clock
  let result := resultOf job step (Timeline.seconds (Timeline.minus stop start)) outcome
  RunM.act (.endStep result stop)
  RunM.tell (c.stepFinished result)
  return result

/-! ### All steps -/

/-- Whether a result ends the run. -/
def isFailure (r : StepResult) : Bool := r.status == .failure

/-- Runs the steps of a job up to the first that fails, and skips the others. -/
def runSteps (c : Console) (ws : Workspace) (base : Environment) (job : Job)
    (deadline : Option τ) : List Step → RunM τ (List StepResult)
  | [] => return []
  | step :: rest => do
    let result ← runStep c ws base job deadline step
    if isFailure result then return result :: rest.map (skipped job)
    else return result :: (← runSteps c ws base job deadline rest)

/-- Runs a job. -/
def runJob (c : Console) (ws : Workspace) (base : Environment) (job : Job) :
    RunM τ (List StepResult) := do
  RunM.tell (Console.jobStarted job.name job.runsOn)
  let start ← RunM.clock
  let deadline := job.timeoutMinutes.map fun m => Timeline.plus start (Timeline.ofMinutes m)
  runSteps c ws base job deadline job.steps

/-- Runs jobs up to the first that fails, and skips the others. -/
def runJobs (c : Console) (ws : Workspace) (base : Environment) :
    List Job → RunM τ (List StepResult)
  | [] => return []
  | job :: rest => do
    let results ← runJob c ws base job
    if results.any isFailure then
      return results ++ rest.flatMap fun j => j.steps.map (skipped j)
    else return results ++ (← runJobs c ws base rest)

/-- Runs a workflow in a working tree. -/
def run (c : Console) (w : Workflow) (e : Event) (ws : Workspace) : RunM τ RunResult := do
  RunM.tell (Console.runStarted w.name e w.steps.length)
  let steps ← runJobs c ws (runVariables w e ws.place) w.jobs
  return { workflow := w.name, event := e, steps }

end Sequence

end CiRunner
