import CiRunner.Calendar.Moment
import CiRunner.Value.Basic

/-!
# The history of runs

The most recent runs, oldest first, each under a name of its own.  A run that is added under a name
that is there takes the place of the other; else it is appended, and the oldest ones are dropped
until no more are left than the history may hold.

`RunHistory` and `RunRecord` formalise the classes of these names.
-/

namespace CiRunner

open CiRunner.Calendar

/-- What is known about a run. -/
structure RunRecord where
  /-- Its name. -/
  runId : String
  /-- The name of the workflow. -/
  workflow : String
  /-- The kind of the event. -/
  event : String
  /-- The branch. -/
  branch : String
  /-- The commit. -/
  sha : Option String := none
  /-- Whether it is queued, running, or how it ended. -/
  status : String
  /-- When it was queued. -/
  createdAt : Moment
  /-- When it ended. -/
  finishedAt : Option Moment := none
  /-- What came of its steps. -/
  steps : List Value := []
  /-- What broke it off. -/
  error : Option String := none
  deriving Repr, Inhabited

/-- A new value for one field of a record. -/
inductive RunChange where
  /-- The name of the workflow. -/
  | workflow (name : String)
  /-- The kind of the event. -/
  | event (kind : String)
  /-- The branch. -/
  | branch (name : String)
  /-- The commit. -/
  | sha (commit : Option String)
  /-- The status. -/
  | status (word : String)
  /-- When it was queued. -/
  | createdAt (time : Moment)
  /-- When it ended. -/
  | finishedAt (time : Option Moment)
  /-- What came of its steps. -/
  | steps (results : List Value)
  /-- What broke it off. -/
  | error (text : Option String)
  deriving Repr

namespace RunRecord

/-- Gives one field a new value. -/
def apply (r : RunRecord) : RunChange → RunRecord
  | .workflow name => { r with workflow := name }
  | .event kind => { r with event := kind }
  | .branch name => { r with branch := name }
  | .sha commit => { r with sha := commit }
  | .status word => { r with status := word }
  | .createdAt time => { r with createdAt := time }
  | .finishedAt time => { r with finishedAt := time }
  | .steps results => { r with steps := results }
  | .error text => { r with error := text }

/-- Gives some fields new values. -/
def applyAll (r : RunRecord) (changes : List RunChange) : RunRecord := changes.foldl apply r

/-- No change gives a run another name. -/
@[simp] theorem runId_apply (r : RunRecord) (c : RunChange) : (r.apply c).runId = r.runId := by
  cases c <;> rfl

@[simp] theorem runId_applyAll (r : RunRecord) (cs : List RunChange) :
    (r.applyAll cs).runId = r.runId := by
  induction cs generalizing r with
  | nil => rfl
  | cons c cs ih => exact (ih (r.apply c)).trans (runId_apply r c)

/-- The record as an object. -/
def toValue (r : RunRecord) : Value :=
  .map [
    (.text "run_id", .text r.runId), (.text "workflow", .text r.workflow),
    (.text "event", .text r.event), (.text "branch", .text r.branch),
    (.text "sha", .ofText? r.sha), (.text "status", .text r.status),
    (.text "created_at", .text r.createdAt.stamp),
    (.text "finished_at", .ofText? (r.finishedAt.map Moment.stamp)),
    (.text "steps", .list r.steps), (.text "error", .ofText? r.error)]

/-! ### Reading a record -/

/-- A field of an object that has to be a text. -/
def textField? (v : Value) (name : String) : Option String :=
  match v.get? name with
  | some (.text s) => some s
  | _ => none

/-- A field of an object that is a text or nothing, or absent. -/
def optionalField? (v : Value) (name : String) : Option (Option String) :=
  match v.field name with
  | .text s => some (some s)
  | .null => some none
  | _ => none

/-- A field of an object that is a time or nothing, or absent. -/
def timeField? (v : Value) (name : String) : Option (Option Moment) := do
  match ← optionalField? v name with
  | none => some none
  | some s => (Moment.ofStamp? s).map some

/-- The results of steps in an object: a list of objects, or absent. -/
def stepsField? (v : Value) : Option (List Value) :=
  match v.get? "steps" with
  | none => some []
  | some (.list steps) => if steps.all Value.isMap then some steps else none
  | some _ => none

/-- Reads the record of a run that was queued at a given time from an object; nothing if a field is
missing or of the wrong kind. -/
def ofValue? (createdAt : Moment) (v : Value) : Option RunRecord := do
  return {
    runId := ← textField? v "run_id", workflow := ← textField? v "workflow"
    event := ← textField? v "event", branch := ← textField? v "branch"
    sha := ← optionalField? v "sha", status := ← textField? v "status"
    createdAt := (← timeField? v "created_at").getD createdAt
    finishedAt := ← timeField? v "finished_at", steps := ← stepsField? v
    error := ← optionalField? v "error" }

end RunRecord

/-- The most recent runs. -/
structure RunHistory where
  /-- How many runs it may hold. -/
  size : Int
  /-- The runs, oldest first. -/
  runs : List RunRecord := []
  deriving Repr, Inhabited

namespace RunHistory

/-- Puts a record in the place of the one with its name, or at the end. -/
def place (r : RunRecord) : List RunRecord → List RunRecord
  | [] => [r]
  | s :: rest => if s.runId = r.runId then r :: rest else s :: place r rest

/-- Drops the oldest runs until no more are left than a history may hold. -/
def trim (size : Int) (runs : List RunRecord) : List RunRecord :=
  runs.drop (runs.length - size.toNat)

/-- Adds a run.  A history of negative size cannot hold even no runs: it is emptied, and the run is
not accepted. -/
def add (h : RunHistory) (r : RunRecord) : Bool × RunHistory :=
  (decide (0 ≤ h.size), { h with runs := trim h.size (place r h.runs) })

/-- Changes fields of the run of a name, if it is there. -/
def update (h : RunHistory) (runId : String) (changes : List RunChange) : RunHistory :=
  { h with runs := h.runs.map fun r => if r.runId = runId then r.applyAll changes else r }

/-- The run of a name. -/
def get? (h : RunHistory) (runId : String) : Option RunRecord :=
  h.runs.find? fun r => r.runId == runId

/-- All runs, the newest first. -/
def all (h : RunHistory) : List RunRecord := h.runs.reverse

end RunHistory

end CiRunner
