import CiRunner.Decimal.Reading
import CiRunner.Workflow.Environment

/-!
# Settings of the receiver

The receiver of notifications is set up by variables of its environment.  Only the size of the
history can be wrong: it has to be an integer.

`ofEnvironment?` formalises `load_settings`.
-/

namespace CiRunner

/-- How the receiver is set up. -/
structure Settings where
  /-- The workflow file; without it the files below the root are used. -/
  workflow : Option String := none
  /-- The root of the repository. -/
  repoRoot : String := "."
  /-- The repository that runs are cloned from. -/
  repoUrl : Option String := none
  /-- Whether the sender of a notification may name the repository. -/
  cloneFromPayload : Bool := false
  /-- The secret that notifications are signed with; empty if they are not. -/
  webhookSecret : String := ""
  /-- The directory in which runs have their working trees. -/
  workDir : String := ".branchci/work"
  /-- How many runs are remembered. -/
  historySize : Int := 50
  deriving DecidableEq, Repr, Inhabited

namespace Settings

/-- A variable that is neither absent nor empty. -/
def filled (env : Environment) (name : String) : Option String :=
  match env.value? name with
  | some "" => none
  | value => value

/-- Whether a variable says yes, in any case of its letters. -/
def saysYes (env : Environment) (name : String) : Bool :=
  let word := String.ofList (((env.value? name).getD "").toList.map Char.toLower)
  ["1", "true", "yes"].contains word

/-- The settings of an environment; nothing if the size of the history is no integer. -/
def ofEnvironment? (env : Environment) : Option Settings := do
  let historySize ← Decimal.intOfText? ((env.value? "BRANCHCI_HISTORY_SIZE").getD "50")
  return {
    workflow := filled env "BRANCHCI_WORKFLOW"
    repoRoot := (env.value? "BRANCHCI_REPO_ROOT").getD "."
    repoUrl := filled env "BRANCHCI_REPO_URL"
    cloneFromPayload := saysYes env "BRANCHCI_CLONE_FROM_PAYLOAD"
    webhookSecret := (env.value? "BRANCHCI_WEBHOOK_SECRET").getD ""
    workDir := (env.value? "BRANCHCI_WORK_DIR").getD ".branchci/work"
    historySize }

end Settings

end CiRunner
