import CiRunner.Event.Payload
import CiRunner.Json.Reader
import CiRunner.Run.Trigger
import CiRunner.Server.History
import CiRunner.Server.Http
import CiRunner.Server.Settings
import CiRunner.Server.Signature

/-!
# The receiver of notifications

The receiver knows some workflows and remembers recent runs.  A notification that is signed and
announces an event queues one run for each workflow that the event starts; the runs themselves come
after the answer, one after another.  `Notification.decide` says what a notification leads to,
without doing it.

`create` formalises `create_app`, with `_load_workflows`.  `notify` formalises the handler
`github_webhook`, and `execute` the background task `execute_run` with the source of `clone_source`.
-/

namespace CiRunner

open CiRunner.Text

/-! ### What a notification leads to -/

/-- What the receiver breaks off at. -/
inductive NotificationFault where
  /-- The signature cannot be compared. -/
  | signature
  /-- The event cannot be made. -/
  | event
  /-- The branch cannot be compared with a pattern. -/
  | pattern (reason : Branch.Pattern.MatchError)
  /-- The branch or the commit is no text. -/
  | record
  /-- The history cannot hold the run. -/
  | history
  deriving DecidableEq, Repr

/-- What a notification leads to. -/
inductive Decision where
  /-- It is refused. -/
  | refuse (status : Nat) (detail : String)
  /-- Nothing is done about it. -/
  | dismiss (status : String) (kind : Option String) (reason : Option String)
  /-- It starts no workflow. -/
  | unmatched (e : Event)
  /-- It starts workflows. -/
  | queue (e : Event) (workflows : List Workflow)
  /-- It breaks the receiver off. -/
  | fault (reason : NotificationFault)

namespace Notification

/-- The header with the signature. -/
def signatureHeader : String := "x-hub-signature-256"

/-- The header with the kind of event. -/
def eventHeader : String := "x-github-event"

/-- The workflows that an event starts. -/
def matching (e : Event) : List Workflow → Except Branch.Pattern.MatchError (List Workflow)
  | [] => .ok []
  | w :: rest => do
    let starts ← w.shouldRun e
    let others ← matching e rest
    return if starts then w :: others else others

/-- What an event leads to. -/
def decideEvent (workflows : List Workflow) (e : Event) : Decision :=
  match matching e workflows with
  | .error reason => .fault (.pattern reason)
  | .ok [] => .unmatched e
  | .ok (w :: rest) => .queue e (w :: rest)

/-- What an object leads to that announces an event of some kind. -/
def decidePayload (workflows : List Workflow) (kind : Option String) (payload : Value) : Decision :=
  match kind with
  | some "ping" => .dismiss "pong" (some "ping") none
  | kind =>
    let name := kind.getD "None"
    if (kind.any eventKinds.contains) = false then
      .dismiss "ignored" kind (some ("Event type '" ++ name ++ "' not handled"))
    else if (payload.field "deleted").truthy then
      .dismiss "skipped" kind (some "Branch deleted")
    else
      match Event.ofPayload name payload with
      | .ok e => decideEvent workflows e
      | .error .wrongPart => .fault .event
      | .error e => .refuse 422 e.message

/-- What a notification leads to whose signature was accepted. -/
def decideBody (workflows : List Workflow) (q : Request) : Decision :=
  match Json.ofBytes? q.body with
  | none => .refuse 400 "Invalid JSON payload"
  | some payload =>
    if payload.isMap then decidePayload workflows (q.header? eventHeader) payload
    else .refuse 400 "Payload must be a JSON object"

/-- What a notification leads to. -/
def decide (secret : String) (workflows : List Workflow) (q : Request) : Decision :=
  match Signature.verify? q.body (q.header? signatureHeader) secret with
  | none => .fault .signature
  | some false => .refuse 401 "Invalid signature"
  | some true => decideBody workflows q

end Notification

/-! ### The receiver -/

/-- A run that was queued. -/
structure QueuedRun where
  /-- Its name. -/
  runId : String
  /-- The workflow. -/
  workflow : Workflow
  /-- The event. -/
  event : Event
  deriving Repr, Inhabited

/-- A receiver with its workflows and its history. -/
structure Receiver where
  /-- How it is set up. -/
  settings : Settings
  /-- The workflows it knows. -/
  workflows : List Workflow
  /-- The runs it remembers. -/
  history : RunHistory
  deriving Repr

/-- What a request comes to: the answer, and the runs that follow. -/
structure Reply where
  /-- The answer. -/
  response : Response
  /-- The history after the request. -/
  history : RunHistory
  /-- The runs that were queued. -/
  queued : List QueuedRun := []
  deriving Repr

namespace Receiver

variable {τ : Type}

/-! ### Queueing runs -/

/-- The record of a run that is queued; the branch of its event has to be a text, and its commit a
text or nothing. -/
def recordOf? (runId : String) (w : Workflow) (e : Event) (time : Calendar.Moment) :
    Option RunRecord :=
  match e.branch, e.sha with
  | .text branch, .text sha =>
    some { runId, workflow := w.name, event := e.kind, branch, sha := some sha, status := "queued"
           createdAt := time }
  | .text branch, .null =>
    some { runId, workflow := w.name, event := e.kind, branch, status := "queued"
           createdAt := time }
  | _, _ => none

/-- Queues a run of each workflow, in their order. -/
def queueRuns (e : Event) (h : RunHistory) :
    List Workflow → RunM τ (Except NotificationFault Unit × RunHistory × List QueuedRun)
  | [] => return (.ok (), h, [])
  | w :: rest => do
    let runId ← RunM.freshName
    let time ← RunM.now
    match recordOf? runId w e time with
    | none => return (.error .record, h, [])
    | some r =>
      let (accepted, h) := h.add r
      if accepted then
        let (result, h, queued) ← queueRuns e h rest
        return (result, h, { runId, workflow := w, event := e } :: queued)
      else return (.error .history, h, [])

/-- The answer to a notification. -/
def answer (status : String) (kind reason : Option String) (queued : List QueuedRun) : Response :=
  .ok (.map [
    (.text "status", .text status), (.text "event", .ofText? kind),
    (.text "reason", .ofText? reason),
    (.text "runs", .list (queued.map fun q =>
      .map [(.text "run_id", .text q.runId), (.text "workflow", .text q.workflow.name)]))])

/-- Answers a notification. -/
def notify (r : Receiver) (q : Request) : RunM τ Reply := do
  match Notification.decide r.settings.webhookSecret r.workflows q with
  | .refuse status detail => return ⟨.refusal status detail, r.history, []⟩
  | .dismiss status kind reason => return ⟨answer status kind reason [], r.history, []⟩
  | .fault _ => return ⟨.internalError, r.history, []⟩
  | .unmatched e =>
    let branch := e.branch.display
    RunM.log "INFO" ("No workflow triggered by " ++ e.kind ++ " " ++ branch)
    let reason := "No workflow triggered by " ++ e.kind ++ " on '" ++ branch ++ "'"
    return ⟨answer "skipped" (some e.kind) (some reason) [], r.history, []⟩
  | .queue e workflows =>
    let (result, history, queued) ← queueRuns e r.history workflows
    match result with
    | .ok () => return ⟨answer "queued" (some e.kind) none queued, history, queued⟩
    | .error _ => return ⟨.internalError, history, []⟩

/-! ### Other requests -/

/-- The state of the receiver. -/
def health (r : Receiver) : Response :=
  .ok (.map [(.text "status", .text "ok"),
    (.text "workflows", .list (r.workflows.map fun w => .text w.name))])

/-- One of the runs. -/
def oneRun (r : Receiver) (runId : String) : Response :=
  match r.history.get? runId with
  | some record => .ok record.toValue
  | none => .refusal 404 "Run not found"

/-- Answers a request of a method that a path knows. -/
def only (method : String) (q : Request) (reply : RunM τ Reply) (r : Receiver) : RunM τ Reply :=
  if q.method = method then reply else return ⟨.methodNotAllowed, r.history, []⟩

/-- Answers a request. -/
def handle (r : Receiver) (q : Request) : RunM τ Reply :=
  match q.parts with
  | ["", "health"] => only "GET" q (return ⟨r.health, r.history, []⟩) r
  | ["", "runs"] =>
    only "GET" q (return ⟨.ok (.list (r.history.all.map RunRecord.toValue)), r.history, []⟩) r
  | ["", "webhooks", "github"] => only "POST" q (r.notify q) r
  | ["", "runs", runId] =>
    if runId = "" then return ⟨.notFound, r.history, []⟩
    else only "GET" q (return ⟨r.oneRun runId, r.history, []⟩) r
  | _ => return ⟨.notFound, r.history, []⟩

/-! ### Running what was queued -/

/-- Where an isolated run clones from: the repository of the settings, else the one that the sender
names if it may; nothing stands for the root. -/
def cloneSource (s : Settings) (e : Event) : Option String :=
  match s.repoUrl with
  | none | some "" =>
    if s.cloneFromPayload && e.repository.truthy then some e.repository.display else none
  | some url => some url

/-- How a queued run is started. -/
def runOptions (s : Settings) (e : Event) : RunOptions :=
  { root := s.repoRoot, isolated := true, workDir := some s.workDir, source := cloneSource s e
    force := true }

/-- What the history keeps of the result of a step. -/
def stepValue (s : StepResult) : Value :=
  .map [
    (.text "job", .text s.job), (.text "name", .text s.name), (.text "status", .text s.status.text),
    (.text "exit_code", (s.exitCode.map Value.int).getD .null),
    (.text "duration", .float (Decimal.roundTo 3 s.duration))]

/-- How a run ended. -/
inductive RunEnd where
  /-- With a result. -/
  | finished (result : RunResult)
  /-- With a fault. -/
  | crashed (message : String)
  deriving Repr

namespace RunEnd

/-- The changes of the record of a run that ended. -/
def changes (time : Calendar.Moment) : RunEnd → List RunChange
  | finished result =>
    [.status result.status.text, .steps (result.steps.map stepValue), .finishedAt (some time)]
  | crashed message => [.status "error", .error (some message), .finishedAt (some time)]

end RunEnd

variable [Timeline τ] [Streams]

/-- Runs a workflow to its end: a fault other than an interruption ends it with its message. -/
def runToEnd (s : Settings) (q : QueuedRun) : RunM τ RunEnd := do
  match ← RunM.attempt
      (Trigger.start { quiet := true } q.workflow q.event (runOptions s q.event)) with
  | .ok result => return .finished result
  | .error .interrupted => throw .interrupted
  | .error fault => return .crashed fault.message

/-- What is logged about a run that ended. -/
def logEnd (runId : String) : RunEnd → RunM τ Unit
  | .finished result => RunM.log "INFO" ("Run " ++ runId ++ " finished: " ++ result.status.text)
  | .crashed _ => RunM.log "ERROR" ("Run " ++ runId ++ " crashed")

/-- Runs what was queued, and keeps its record up to date. -/
def execute (r : Receiver) (q : QueuedRun) : RunM τ Receiver := do
  let started := r.history.update q.runId [.status "running"]
  RunM.log "INFO" ("Run " ++ q.runId ++ ": " ++ q.workflow.name ++ " for " ++ q.event.kind ++ " " ++
    q.event.branch.display)
  let outcome ← runToEnd r.settings q
  logEnd q.runId outcome
  let time ← RunM.now
  return { r with history := started.update q.runId (outcome.changes time) }

/-- Answers a request and runs what it queued. -/
def serve (r : Receiver) (q : Request) : RunM τ (Response × Receiver) := do
  let reply ← r.handle q
  let after ← reply.queued.foldlM execute { r with history := reply.history }
  return (reply.response, after)

/-! ### Setting up -/

/-- Why a receiver cannot be set up. -/
inductive SetupError where
  /-- A setting is malformed. -/
  | settings
  /-- There are no workflow files below the root. -/
  | noWorkflows (root : Location)
  /-- A workflow cannot be loaded. -/
  | load (reason : LoadError)

/-- The message of an error about a missing file. -/
def SetupError.missingMessage? : SetupError → Option String
  | .noWorkflows root =>
    some ("No workflow files under " ++ root.text ++ " (set BRANCHCI_WORKFLOW)")
  | .load (.notFound place) => some (LoadError.notFoundMessage place)
  | _ => none

/-- Loads the workflows of some settings: the one they name, else those below the root. -/
def loadWorkflows (s : Settings) : RunM τ (Except SetupError (List Workflow)) := do
  let files ← RunM.files
  match s.workflow with
  | none | some "" => loadBelow files
  | some path => return ((files.load (Path.ofText path)).map ([·])).mapError .load
where
  /-- Loads the workflows below the root. -/
  loadBelow (files : WorkflowFiles) : RunM τ (Except SetupError (List Workflow)) := do
    match files.discover (Path.ofText s.repoRoot) with
    | [] => return .error (.noWorkflows (← RunM.resolve s.repoRoot))
    | paths => return (paths.mapM files.load).mapError .load

/-- Sets a receiver up, with given settings and workflows or those of the environment. -/
def create (settings : Option Settings) (workflows : Option (List Workflow)) :
    RunM τ (Except SetupError Receiver) := do
  match settings.or (Settings.ofEnvironment? (← read).environment) with
  | none => return .error .settings
  | some s =>
    let loaded ←
      match workflows with
      | some ws => pure (.ok ws)
      | none => loadWorkflows s
    match loaded with
    | .error e => return .error e
    | .ok ws =>
      if s.webhookSecret = "" then
        RunM.log "WARNING" "BRANCHCI_WEBHOOK_SECRET is not set; webhook signatures are not checked"
      return .ok { settings := s, workflows := ws, history := { size := s.historySize } }

end Receiver

end CiRunner
