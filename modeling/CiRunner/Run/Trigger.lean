import CiRunner.Run.Sequence

/-!
# Starting a run

An event that matches a rule of a workflow starts a run of it, in a working tree in place or in an
isolated one.  An event that matches none starts nothing, unless the run is forced.

`trigger` formalises the function of that name, `hasLocalChanges` the check `_has_local_changes`.
-/

namespace CiRunner

open CiRunner.Text

/-- How a run is started. -/
structure RunOptions where
  /-- The root of the repository. -/
  root : String := "."
  /-- Whether the run has a working tree of its own. -/
  isolated : Bool := false
  /-- The directory in which isolated working trees are made. -/
  workDir : Option String := none
  /-- The repository that isolated working trees are cloned from, if not the root. -/
  source : Option String := none
  /-- Whether the run starts without a match. -/
  force : Bool := false
  deriving DecidableEq, Repr, Inhabited

namespace Trigger

variable {τ : Type} [Timeline τ] [Streams]

/-- Whether the root has changes that are not committed, as far as Git can tell. -/
def hasLocalChanges (root : String) : RunM τ Bool := do
  if ← Git.isWorkTree root then
    match ← (Git.isDirty (some root)).run with
    | .ok dirty => return dirty
    | .error .missing => throw .gitMissing
    | .error (.failed ..) => return false
  else return false

/-- Whether a run starts. -/
def starts (w : Workflow) (e : Event) (o : RunOptions) : RunM τ Bool :=
  if o.force then return true
  else
    match w.shouldRun e with
    | .ok run => return run
    | .error reason => throw (.pattern reason)

/-- Warns of changes that an isolated run does not see. -/
def warnOfChanges (o : RunOptions) : RunM τ Unit := do
  if o.isolated && o.source.isNone then
    if ← hasLocalChanges o.root then
      let place ← RunM.resolve o.root
      RunM.tell (Console.info ("Note: uncommitted changes in " ++ place.text ++
        " are not part of an isolated run"))

/-- Runs a workflow in a working tree and says where. -/
def runIn (c : Console) (w : Workflow) (e : Event) (ws : Workspace) : RunM τ RunResult := do
  RunM.tell (c.remark ("workspace: " ++ ws.place.text ++ " (isolated=" ++
    (if ws.isolated then "True" else "False") ++ ")"))
  Sequence.run c w e ws

/-- Runs a workflow for an event. -/
def start (c : Console) (w : Workflow) (e : Event) (o : RunOptions) : RunM τ RunResult := do
  warnOfChanges o
  let result ← Workspace.provide o.root e o.isolated o.workDir o.source (runIn c w e)
  RunM.tell (Console.results result)
  return result

/-- Starts a run if the event matches; without a match there is no result. -/
def trigger (c : Console) (w : Workflow) (e : Event) (o : RunOptions) :
    RunM τ (Option RunResult) := do
  if ← starts w e o then
    let result ← start c w e o
    return some result
  else
    RunM.tell (Console.notTriggered w.name e)
    return none

end Trigger

end CiRunner
