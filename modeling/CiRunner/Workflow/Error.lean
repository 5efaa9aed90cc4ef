import CiRunner.Text.Blank
import CiRunner.Value.Display
import CiRunner.Yaml.Cursor

/-!
# Errors of workflow definitions

What can be wrong with a definition, and the message for it.  Faults that come from reading a value
as a number, a date or a list have no message of their own.

`WorkflowError` holds the messages of `WorkflowConfigError`.
-/

namespace CiRunner

open CiRunner.Text

/-- The shells a step may ask for. -/
def knownShells : List String := ["bash", "sh"]

/-- Why a workflow definition is refused. -/
inductive WorkflowError where
  /-- The text is not well formed. -/
  | invalidYaml
  /-- There is no definition. -/
  | empty
  /-- The definition is no mapping. -/
  | notMapping
  /-- The name of the workflow is no text. -/
  | nameNotText
  /-- The events are missing. -/
  | eventsMissing
  /-- The events are neither a text nor a list nor a mapping. -/
  | eventsMalformed
  /-- There are no jobs. -/
  | jobsMissing
  /-- A part is no mapping. -/
  | partNotMapping (place : String)
  /-- A part is neither a text nor a list of texts. -/
  | partNotPatterns (place : String)
  /-- A kind of event has both kinds of branch filters. -/
  | bothFilters (kind : String)
  /-- A variable is a collection. -/
  | variableNotScalar (place key : String)
  /-- A time limit is no positive number. -/
  | limitNotPositive (place : String)
  /-- A job lists no steps. -/
  | stepsMissing (place : String)
  /-- A step has both a command and an action, or neither. -/
  | runOrUses (place : String)
  /-- A command is no text, or blank. -/
  | runBlank (place : String)
  /-- An action is no text. -/
  | usesNotText (place : String)
  /-- A shell is not known. -/
  | unknownShell (place shell : String)
  /-- Two jobs have one name. -/
  | duplicateJob (name : String)
  /-- A job has no steps. -/
  | jobWithoutSteps (name : String)
  /-- A job depends on one that is not declared before it. -/
  | laterNeed (job need : String)
  /-- The file has a suffix that no definition has. -/
  | unsupportedSuffix (file : String)
  /-- A script defines no workflow. -/
  | undefinedWorkflow (file : String)
  deriving DecidableEq, Repr

namespace WorkflowError

/-- Names as they are shown in messages. -/
def shownNames (names : List String) : String := "(" ++ join ", " (names.map quoted) ++ ")"

/-- The message of an error. -/
def message : WorkflowError → String
  | invalidYaml => "Invalid YAML"
  | empty => "Empty workflow"
  | notMapping => "Workflow must be a mapping"
  | nameNotText => "Workflow 'name' must be a string"
  | eventsMissing => "Workflow must define 'on'"
  | eventsMalformed => "'on' must be a string, list or mapping"
  | jobsMissing => "Workflow must define at least one job under 'jobs'"
  | partNotMapping place => place ++ " must be a mapping"
  | partNotPatterns place => place ++ " must be a string or a list of strings"
  | bothFilters kind =>
    "on." ++ kind ++ ": 'branches' and 'branches-ignore' cannot be used together"
  | variableNotScalar place key => place ++ "." ++ key ++ " must be a scalar"
  | limitNotPositive place => place ++ " must be a positive number"
  | stepsMissing place => place ++ " must have at least one step"
  | runOrUses place => place ++ " must have exactly one of 'run' or 'uses'"
  | runBlank place => place ++ ".run must be a non-empty string"
  | usesNotText place => place ++ ".uses must be a string"
  | unknownShell place shell =>
    place ++ ".shell must be one of " ++ shownNames knownShells ++ ", got " ++ shell
  | duplicateJob name => "Duplicate job name: " ++ name
  | jobWithoutSteps name => "Job '" ++ name ++ "' has no steps"
  | laterNeed job need =>
    "Job '" ++ job ++ "' needs '" ++ need ++ "', which is not declared before it. " ++
      "Jobs run in declaration order."
  | unsupportedSuffix file => "Workflow must be a .yml, .yaml or .py file, got: " ++ file
  | undefinedWorkflow file =>
    file ++ " must define workflow() -> Workflow or WORKFLOW = Workflow(...). " ++
      "Build one with \x60from branchci import wf, job, sh, on_push\x60."

end WorkflowError

/-- Why a definition cannot be read: it is refused, or a value in it is not what its use asks for.
-/
inductive DefinitionError where
  /-- The definition is refused. -/
  | refused (reason : WorkflowError)
  /-- A scalar is no number or date, though its form or its tag says so. -/
  | scalar (reason : Yaml.Error)
  /-- A single value stands where a list is asked for. -/
  | notIterable
  /-- A number is beyond every floating-point number. -/
  | tooLarge
  deriving DecidableEq, Repr

namespace DefinitionError

/-- A fault of a document; text that is not well formed is refused with a message. -/
def ofYaml : Yaml.Error → DefinitionError
  | .malformed => .refused .invalidYaml
  | .tooLarge => .tooLarge
  | e => .scalar e

end DefinitionError

end CiRunner
