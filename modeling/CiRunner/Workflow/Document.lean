import CiRunner.Decimal.Binary
import CiRunner.Event.Basic
import CiRunner.FileTree.Path
import CiRunner.Value.Display
import CiRunner.Workflow.Error
import CiRunner.Workflow.Jobs
import CiRunner.Yaml.Document

/-!
# Workflows from documents

A document is a mapping with the events that start the workflow under `on`, its jobs under `jobs`
and its variables under `env`.  The reader checks every part it uses; the first part that is wrong
tells the error.  A bare `on` reads as a truth value in the document language, so that key is
accepted in its place.

`ofText` formalises `parse_workflow_yaml`.  The readers of the parts are `parse_triggers`,
`_pattern_list`, `_parse_env`, `_parse_timeout`, `_parse_job` and `_parse_step`.
-/

namespace CiRunner

open CiRunner.Text CiRunner.Decimal

namespace Workflow

/-- Refuses a definition. -/
def refuse {α : Type} (e : WorkflowError) : Except DefinitionError α := .error (.refused e)

/-! ### Events -/

/-- Reads patterns: none, one text or a list of texts. -/
def readPatterns (place : String) (v : Value) : Except DefinitionError (Option (List String)) :=
  match v with
  | .null => .ok none
  | .text s => .ok (some [s])
  | .list items =>
    match items.mapM fun item => match item with
        | .text s => some s
        | _ => none with
    | some texts => .ok (some texts)
    | none => refuse (.partNotPatterns place)
  | _ => refuse (.partNotPatterns place)

/-- Reads the filters of a supported kind of event. -/
def readRule (kind : String) (spec : Value) : Except DefinitionError TriggerRule :=
  match spec with
  | .null => .ok { event := kind }
  | .map _ => do
    let branches ← readPatterns ("on." ++ kind ++ ".branches") (spec.field "branches")
    let ignore ← readPatterns ("on." ++ kind ++ ".branches-ignore") (spec.field "branches-ignore")
    if branches.isSome && ignore.isSome then refuse (.bothFilters kind)
    else
      let types ← readPatterns ("on." ++ kind ++ ".types") (spec.field "types")
      pure { event := kind, branches, branchesIgnore := ignore, types }
  | _ => refuse (.partNotMapping ("on." ++ kind))

/-- The supported kind of event that a value names. -/
def supportedKind? (v : Value) : Option String :=
  match v with
  | .text s => if eventKinds.contains s then some s else none
  | _ => none

/-- Reads the entries of a mapping of events, leaving out the kinds that are not supported. -/
def readRules : List (Value × Value) → Except DefinitionError (List TriggerRule)
  | [] => .ok []
  | (key, spec) :: rest =>
    match supportedKind? key with
    | none => readRules rest
    | some kind => do
      let rule ← readRule kind spec
      let rules ← readRules rest
      pure (rule :: rules)

/-- Reads the events that start a workflow: one kind, a list of kinds, or a mapping from kinds to
filters.  Kinds that are not supported are left out, so a workflow that has only such kinds never
starts. -/
def readTriggers (v : Value) : Except DefinitionError (List TriggerRule) :=
  match v with
  | .text s => .ok ((supportedKind? (.text s)).toList.map fun kind => { event := kind })
  | .list items => .ok ((items.filterMap supportedKind?).map fun kind => { event := kind })
  | .map entries => readRules entries
  | _ => refuse .eventsMalformed

/-! ### Variables and limits -/

/-- The text of a variable: truth values in lower case, nothing as the empty text, and an integer
with all its digits. -/
def variableText : Value → String
  | .bool b => if b then "true" else "false"
  | .null => ""
  | v => v.display

/-- Whether a value is a list or a mapping. -/
def isCollection : Value → Bool
  | .list _ | .map _ => true
  | _ => false

/-- Reads variables over those read before. -/
def readVariables (place : String) (env : Environment) :
    List (Value × Value) → Except DefinitionError Environment
  | [] => .ok env
  | (key, v) :: rest =>
    if isCollection v then refuse (.variableNotScalar place key.display)
    else readVariables place (env.set key.display (variableText v)) rest

/-- Reads a mapping of variables, which may be absent. -/
def readEnvironment (place : String) (v : Value) : Except DefinitionError Environment :=
  match v with
  | .null => .ok []
  | .map entries => readVariables place [] entries
  | _ => refuse (.partNotMapping place)

/-- Reads a time limit in minutes, which may be absent and else is positive. -/
def readLimit (place : String) (v : Value) : Except DefinitionError (Option Float) :=
  match v with
  | .null => .ok none
  | .int n =>
    if n ≤ 0 then refuse (.limitNotPositive place)
    else
      match Binary.ofInt? n with
      | some x => .ok (some x)
      | none => .error .tooLarge
  | .float x => if x ≤ 0.0 then refuse (.limitNotPositive place) else .ok (some x)
  | _ => refuse (.limitNotPositive place)

/-! ### Steps and jobs -/

/-- The first line of a command without the blanks around the command. -/
def headline (command : String) : String := (lines (trim command)).headD ""

/-- Reads the command and the action of a step, of which there is exactly one. -/
def readTask (place : String) (spec : Value) :
    Except DefinitionError (Option String × Option String) :=
  match spec.field "run", spec.field "uses" with
  | .null, .null => refuse (.runOrUses place)
  | .null, .text action => .ok (none, some action)
  | .null, _ => refuse (.usesNotText place)
  | .text command, .null =>
    if (trim command).isEmpty then refuse (.runBlank place) else .ok (some command, none)
  | _, .null => refuse (.runBlank place)
  | _, _ => refuse (.runOrUses place)

/-- The name of a step: the one that is given, or one made from its command or its action. -/
def stepName (spec : Value) (run uses : Option String) : String :=
  match spec.field "name" with
  | .null =>
    match run with
    | some command => "Run " ++ headline command
    | none => "Run " ++ uses.getD "None"
  | v => v.display

/-- Reads the shell of a step; without one it is the first of the known shells. -/
def readShell (place : String) (spec : Value) : Except DefinitionError String :=
  match spec.get? "shell" with
  | none => .ok "bash"
  | some (.text s) =>
    if knownShells.contains s then .ok s else refuse (.unknownShell place (quoted s))
  | some v => refuse (.unknownShell place v.shown)

/-- Reads a step. -/
def readStep (place : String) (spec : Value) : Except DefinitionError Step := do
  unless spec.isMap do
    refuse (.partNotMapping place)
  let (run, uses) ← readTask place spec
  let name := stepName spec run uses
  let shell ← readShell place spec
  let inputs ← readEnvironment (place ++ ".with") (spec.field "with")
  let env ← readEnvironment (place ++ ".env") (spec.field "env")
  let timeoutMinutes ← readLimit (place ++ ".timeout-minutes") (spec.field "timeout-minutes")
  pure { name, run, uses, inputs, env, cwd := spec.field "working-directory", shell,
         timeoutMinutes }

/-- Reads steps; the number is the index of the first of them. -/
def readSteps (place : String) (index : Nat) : List Value → Except DefinitionError (List Step)
  | [] => .ok []
  | spec :: rest => do
    let step ← readStep (place ++ ".steps[" ++ toString index ++ "]") spec
    let steps ← readSteps place (index + 1) rest
    pure (step :: steps)

/-- Reads the names of the jobs a job depends on: one text, or the items of any collection. -/
def readNeeds (v : Value) : Except DefinitionError (List String) :=
  if v.truthy = false then .ok []
  else
    match v with
    | .text s => .ok [s]
    | .list items => .ok (items.map Value.display)
    | .pair a b => .ok [a.display, b.display]
    | .map entries => .ok (entries.map fun e => e.1.display)
    | .set members => .ok (members.map Value.display)
    | .bytes bs => .ok (bs.map fun b => toString b.toNat)
    | _ => .error .notIterable

/-- Reads the label of the machine a job asks for; a list of labels is joined. -/
def readLabel : Value → Option String
  | .null => none
  | .list items => some (join ", " (items.map Value.display))
  | v => some v.display

/-- Reads a job. -/
def readJob (name : String) (spec : Value) : Except DefinitionError Job := do
  let place := "jobs." ++ name
  unless spec.isMap do
    refuse (.partNotMapping place)
  match spec.field "steps" with
  | .list (first :: rest) =>
    let steps ← readSteps place 0 (first :: rest)
    let env ← readEnvironment (place ++ ".env") (spec.field "env")
    let needs ← readNeeds (spec.field "needs")
    let timeoutMinutes ← readLimit (place ++ ".timeout-minutes") (spec.field "timeout-minutes")
    pure { name, steps, env, needs, runsOn := readLabel (spec.field "runs-on"), timeoutMinutes }
  | _ => refuse (.stepsMissing place)

/-- Reads the jobs of a mapping. -/
def readJobs : List (Value × Value) → Except DefinitionError (List Job)
  | [] => .ok []
  | (key, spec) :: rest => do
    let job ← readJob key.display spec
    let jobs ← readJobs rest
    pure (job :: jobs)

/-! ### Workflows -/

/-- Reads the name of a workflow: the one that is given, or one made from its source. -/
def readName (source : Option String) (doc : Value) : Except DefinitionError String :=
  let given := doc.field "name"
  if given.truthy then
    match given with
    | .text s => .ok s
    | _ => refuse .nameNotText
  else
    match source with
    | none | some "" => .ok "workflow"
    | some s => .ok (Path.ofText s).stem

/-- The events of a document, under the key `on` or under the truth value that a bare `on` is. -/
def events? (doc : Value) : Option Value :=
  match doc with
  | .map entries =>
    match Value.lookup (.text "on") entries with
    | some v => some v
    | none => Value.lookup (.bool true) entries
  | _ => none

/-- Reads a workflow from the value of a document. -/
def ofValue (source : Option String) (doc : Value) : Except DefinitionError Workflow := do
  unless doc.truthy do
    refuse .empty
  unless doc.isMap do
    refuse .notMapping
  let name ← readName source doc
  match events? doc with
  | none => refuse .eventsMissing
  | some events =>
    match doc.field "jobs" with
    | .map (first :: rest) =>
      let jobs ← readJobs (first :: rest)
      match checkJobs jobs with
      | .error e => refuse e
      | .ok () =>
        let triggers ← readTriggers events
        let env ← readEnvironment "env" (doc.field "env")
        pure { name, triggers, jobs, env, source }
    | _ => refuse .jobsMissing

/-- Reads a workflow from what reading a document comes to. -/
def ofAnswer (source : Option String) : Except Yaml.Error Value → Except DefinitionError Workflow
  | .error e => .error (.ofYaml e)
  | .ok doc => ofValue source doc

/-- Reads a workflow from the text of a document. -/
def ofText (source : Option String) (text : String) : Except DefinitionError Workflow :=
  ofAnswer source (Yaml.load text)

end Workflow

end CiRunner
