import CiRunner.Proofs.Event.Announced
import CiRunner.Proofs.Server.Queueing
import CiRunner.Proofs.Server.Serving

/-!
# The repository that a sender names

A notification may name the repository it is about.  A receiver clones from there only if its
settings say so and name no repository themselves.  Otherwise the repository has no influence at
all: it is carried along with the event, but nothing that is answered, recorded or done looks at
it.

So everything here is about one event with two repositories.  What is made for the one is what is
made for the other with the repository replaced (`withRepository`), from the decision about a
notification to the result of a run.
-/

namespace CiRunner

variable {τ α β : Type}

/-! ## Replacing the repository -/

/-- An event about another repository. -/
def Event.withRepository (v : Value) (e : Event) : Event := { e with repository := v }

/-- The result of a run for an event about another repository. -/
def RunResult.withRepository (v : Value) (r : RunResult) : RunResult :=
  { r with event := r.event.withRepository v }

/-- A decision about an event about another repository. -/
def Decision.withRepository (v : Value) : Decision → Decision
  | unmatched e => unmatched (e.withRepository v)
  | queue e workflows => queue (e.withRepository v) workflows
  | d => d

/-- A run for an event about another repository. -/
def QueuedRun.withRepository (v : Value) (run : QueuedRun) : QueuedRun :=
  { run with event := run.event.withRepository v }

/-- A reply to a notification about another repository. -/
def Reply.withRepository (v : Value) (reply : Reply) : Reply :=
  { reply with queued := reply.queued.map (QueuedRun.withRepository v) }

/-- The end of a run for an event about another repository. -/
def Receiver.RunEnd.withRepository (v : Value) : RunEnd → RunEnd
  | finished result => finished (result.withRepository v)
  | crashed message => crashed message

/-! ## Runs -/

namespace RunM

/-- Cleaning up is the same for every function of what a computation comes to. -/
lemma ensuring_map (f : α → β) (body : RunM τ α) (cleanup : RunM τ Unit) :
    ensuring (f <$> body) cleanup = f <$> ensuring body cleanup := by
  funext host w
  simp only [ensuring, map_apply]
  rcases body host w with ⟨_ | _, _⟩ <;> rfl

/-- Trying is the same for every function of what a computation comes to. -/
lemma attempt_map (f : α → β) (body : RunM τ α) :
    attempt (f <$> body) = Except.map f <$> attempt body := by
  funext host w
  simp only [attempt, map_apply]
  rcases body host w with ⟨_ | _, _⟩ <;> rfl

end RunM

/-- The working tree of an event is provided whatever its repository is. -/
lemma Workspace.provide_withRepository (root : String) (v : Value) (e : Event) (isolated : Bool)
    (workDir source : Option String) (f : α → β) (body : Workspace → RunM τ α) :
    provide root (e.withRepository v) isolated workDir source (fun ws => f <$> body ws) =
      f <$> provide root e isolated workDir source body := by
  cases isolated with
  | false => simp [provide, Event.withRepository]
  | true =>
    simp only [provide, withIsolated, if_true, map_bind, ← RunM.ensuring_map]
    rfl

section Runs

variable [Timeline τ]

/-- A run does the same whatever the repository is. -/
lemma Sequence.run_withRepository (c : Console) (wf : Workflow) (v : Value) (e : Event)
    (ws : Workspace) :
    (run c wf (e.withRepository v) ws : RunM τ RunResult) =
      RunResult.withRepository v <$> run c wf e ws := by
  simp only [run, map_bind, map_pure]
  rfl

/-- A run that is started does the same whatever the repository is. -/
lemma Trigger.start_withRepository (c : Console) (wf : Workflow) (v : Value) (e : Event)
    (o : RunOptions) :
    (start c wf (e.withRepository v) o : RunM τ RunResult) =
      RunResult.withRepository v <$> start c wf e o := by
  have hrun : (runIn c wf (e.withRepository v) : Workspace → RunM τ RunResult) =
      fun ws => RunResult.withRepository v <$> runIn c wf e ws := by
    funext ws
    simp only [runIn, Sequence.run_withRepository, map_bind]
  simp only [start, hrun, Workspace.provide_withRepository, map_bind, bind_map_left, map_pure]
  rfl

end Runs

/-- The sender of a notification does not decide where runs are cloned from: the settings do not let
it, or they name a repository themselves. -/
def Settings.IgnoresSender (s : Settings) : Prop :=
  s.cloneFromPayload = false ∨ ∃ url, s.repoUrl = some url ∧ url ≠ ""

namespace Receiver

/-- Where a run is cloned from does not depend on the repository of its event. -/
lemma cloneSource_withRepository {s : Settings} (hs : s.IgnoresSender) (v : Value) (e : Event) :
    cloneSource s (e.withRepository v) = cloneSource s e := by
  rcases hs with hs | ⟨url, hurl, hne⟩
  · simp [cloneSource, hs]
  · simp only [cloneSource, hurl]

variable [Timeline τ]

/-- A run comes to the same end whatever the repository is. -/
lemma runToEnd_withRepository {s : Settings} (hs : s.IgnoresSender) (v : Value) (run : QueuedRun) :
    (runToEnd s (run.withRepository v) : RunM τ RunEnd) =
      RunEnd.withRepository v <$> runToEnd s run := by
  have hoptions : runOptions s (run.event.withRepository v) = runOptions s run.event := by
    rw [runOptions, runOptions, cloneSource_withRepository hs]
  simp only [runToEnd, QueuedRun.withRepository, hoptions, Trigger.start_withRepository,
    RunM.attempt_map, bind_map_left, map_bind]
  congr
  funext ended
  rcases ended with fault | result
  · cases fault <;> rfl
  · rfl

/-- A run is carried out and recorded in the same way whatever the repository is. -/
lemma execute_withRepository {r : Receiver} (hs : r.settings.IgnoresSender) (v : Value)
    (run : QueuedRun) :
    (r.execute (run.withRepository v) : RunM τ Receiver) = r.execute run := by
  have hlog : ∀ outcome : RunEnd, (logEnd run.runId (outcome.withRepository v) : RunM τ Unit) =
      logEnd run.runId outcome := by
    intro outcome
    cases outcome <;> rfl
  have hchanges : ∀ (outcome : RunEnd) (time : Calendar.Moment),
      (outcome.withRepository v).changes time = outcome.changes time := by
    intro outcome time
    cases outcome <;> rfl
  simp only [execute, runToEnd_withRepository hs, bind_map_left]
  simp only [QueuedRun.withRepository, hlog, hchanges]
  rfl

/-- Runs are carried out and recorded in the same way whatever the repository is. -/
lemma foldlM_execute_withRepository {r : Receiver} (hs : r.settings.IgnoresSender) (v : Value)
    (runs : List QueuedRun) (host : Host τ) (w : World τ) :
    (runs.map (QueuedRun.withRepository v)).foldlM execute r host w =
      runs.foldlM execute r host w := by
  induction runs generalizing r w with
  | nil => rfl
  | cons run rest ih =>
    rw [List.map_cons, List.foldlM_cons, List.foldlM_cons, execute_withRepository hs,
      RunM.bind_apply, RunM.bind_apply]
    rcases hrun : r.execute run host w with ⟨fault | r', w'⟩
    · rfl
    · obtain ⟨outcome, time, rfl⟩ := eq_of_execute hrun
      exact ih (r := { r with history := historyAfter r.history run.runId outcome time }) hs w'

end Receiver

/-! ## Decisions -/

/-- Two objects that are the same but for what they hold as the repository, which is nothing or an
object. -/
structure Value.SameButRepository (v v' : Value) : Prop where
  /-- The first one is an object. -/
  isMap : v.isMap = true
  /-- So is the second one. -/
  isMap' : v'.isMap = true
  /-- Everything else is the same. -/
  get?_eq : ∀ name, name ≠ "repository" → v'.get? name = v.get? name
  /-- The repository of the first one. -/
  repository : v.field "repository" = .null ∨ (v.field "repository").isMap = true
  /-- The repository of the second one. -/
  repository' : v'.field "repository" = .null ∨ (v'.field "repository").isMap = true

namespace Value.SameButRepository

variable {v v' : Value}

/-- A part that is not the repository is the same. -/
lemma field_eq (h : v.SameButRepository v') {name : String} (hname : name ≠ "repository") :
    v'.field name = v.field name := by
  rw [field, field, h.get?_eq name hname]

/-- A path that does not begin with the repository leads to the same. -/
lemma require_eq (h : v.SameButRepository v') {name : String} (hname : name ≠ "repository")
    (path : List String) : Event.require v' (name :: path) = Event.require v (name :: path) := by
  simp only [Event.require, List.foldlM_cons, h.get?_eq name hname]

end Value.SameButRepository

namespace Event

variable {payload payload' : Value} (h : payload.SameButRepository payload')
include h

/-- The push that an object announces is the same but for the repository. -/
lemma pushOf_withRepository (u v : Value) :
    pushOf payload' v = withRepository v <$> pushOf payload u := by
  have href := h.require_eq (by decide : "ref" ≠ "repository") []
  have hhead := h.field_eq (by decide : "head_commit" ≠ "repository")
  have hafter := h.field_eq (by decide : "after" ≠ "repository")
  simp only [pushOf, href, hhead, hafter, map_bind, map_pure]
  rfl

/-- The pull request that an object announces is the same but for the repository. -/
lemma pullRequestOf_withRepository (u v : Value) :
    pullRequestOf payload' v = withRepository v <$> pullRequestOf payload u := by
  have hpull := h.require_eq (by decide : "pull_request" ≠ "repository")
  have haction := h.field_eq (by decide : "action" ≠ "repository")
  simp only [pullRequestOf, hpull, haction, map_bind, map_pure]
  rfl

/-- The event that an object announces is the same but for the repository. -/
lemma ofPayload_withRepository : ∃ v, ∀ kind ∈ eventKinds,
    ofPayload kind payload' = withRepository v <$> ofPayload kind payload := by
  obtain ⟨u, hu⟩ := exists_optionalField h.repository "clone_url"
  obtain ⟨v, hv⟩ := exists_optionalField h.repository' "clone_url"
  refine ⟨v, fun kind hkind => ?_⟩
  rcases List.mem_pair.mp hkind with rfl | rfl
  · rw [ofPayload_push h.isMap, ofPayload_push h.isMap', hu, hv]
    exact pushOf_withRepository h u v
  · rw [ofPayload_pullRequest h.isMap, ofPayload_pullRequest h.isMap', hu, hv]
    exact pullRequestOf_withRepository h u v

end Event

namespace Notification

/-- An event starts the same workflows whatever its repository is. -/
lemma matching_withRepository (v : Value) (e : Event) (workflows : List Workflow) :
    matching (e.withRepository v) workflows = matching e workflows := by
  have hfirst : ∀ rules : List TriggerRule,
      Workflow.firstMatch (e.withRepository v) rules = Workflow.firstMatch e rules := by
    intro rules
    induction rules with
    | nil => rfl
    | cons rule rest ih =>
      rw [Workflow.firstMatch, Workflow.firstMatch, ih]
      rfl
  induction workflows with
  | nil => rfl
  | cons wf rest ih =>
    rw [matching, matching, ih, Workflow.shouldRun, Workflow.shouldRun, Workflow.matchingRule,
      Workflow.matchingRule, hfirst]

/-- What an event leads to is the same but for its repository. -/
lemma decideEvent_withRepository (v : Value) (e : Event) (workflows : List Workflow) :
    decideEvent workflows (e.withRepository v) = (decideEvent workflows e).withRepository v := by
  rw [decideEvent, decideEvent, matching_withRepository]
  rcases matching e workflows with _ | _ | _ <;> rfl

/-- What an object leads to is the same but for the repository. -/
lemma decidePayload_withRepository {payload payload' : Value}
    (h : payload.SameButRepository payload') :
    ∃ v, ∀ workflows kind, decidePayload workflows kind payload' =
      (decidePayload workflows kind payload).withRepository v := by
  obtain ⟨v, hv⟩ := Event.ofPayload_withRepository h
  refine ⟨v, fun workflows kind => ?_⟩
  unfold decidePayload
  split
  · rfl
  rw [h.field_eq (by decide)]
  cases kind with
  | none => rfl
  | some name =>
    by_cases hkind : name ∈ eventKinds
    swap
    · simp [hkind, Decision.withRepository]
    simp only [Option.any_some, Option.getD_some, hv name hkind]
    split_ifs
    · rfl
    · rfl
    cases Event.ofPayload name payload with
    | ok e => exact decideEvent_withRepository v e workflows
    | error reason => cases reason <;> rfl

end Notification

/-- Two requests with objects that differ at most in the repository.  Both are signed. -/
structure Request.SameButRepository (secret : String) (q q' : Request) : Prop where
  /-- The method is the same. -/
  method_eq : q'.method = q.method
  /-- The path is the same. -/
  parts_eq : q'.parts = q.parts
  /-- The header that names the kind of event is the same. -/
  kind_eq : q'.header? Notification.eventHeader = q.header? Notification.eventHeader
  /-- The signature of the first one is accepted. -/
  signed : Signature.verify? q.body (q.header? Notification.signatureHeader) secret = some true
  /-- So is that of the second one. -/
  signed' : Signature.verify? q'.body (q'.header? Notification.signatureHeader) secret = some true
  /-- The bodies hold objects. -/
  payloads : ∃ payload payload', Json.ofBytes? q.body = some payload ∧
    Json.ofBytes? q'.body = some payload' ∧ payload.SameButRepository payload'

/-- What a notification leads to is the same but for the repository. -/
lemma Notification.decide_withRepository {secret : String} {q q' : Request}
    (h : q.SameButRepository secret q') :
    ∃ v, ∀ workflows, decide secret workflows q' =
      (decide secret workflows q).withRepository v := by
  obtain ⟨payload, payload', hpayload, hpayload', hsame⟩ := h.payloads
  obtain ⟨v, hv⟩ := decidePayload_withRepository hsame
  refine ⟨v, fun workflows => ?_⟩
  simp only [decide, decideBody, h.signed, h.signed', hpayload, hpayload', hsame.isMap,
    hsame.isMap', h.kind_eq, if_true, hv]

/-! ## Answers -/

namespace Receiver

/-- A run is recorded in the same way whatever the repository is. -/
lemma queueRuns_withRepository (v : Value) (e : Event) (h : RunHistory)
    (workflows : List Workflow) :
    (queueRuns (e.withRepository v) h workflows :
        RunM τ (Except NotificationFault Unit × RunHistory × List QueuedRun)) =
      Prod.map id (Prod.map id (List.map (QueuedRun.withRepository v))) <$>
        queueRuns e h workflows := by
  induction workflows generalizing h with
  | nil => rfl
  | cons wf rest ih =>
    have hrecord : ∀ runId time, recordOf? runId wf (e.withRepository v) time =
        recordOf? runId wf e time := fun _ _ => rfl
    simp only [queueRuns, hrecord, ih, map_bind]
    congr
    funext runId
    congr
    funext time
    cases recordOf? runId wf e time with
    | none => rfl
    | some record =>
      dsimp only
      split
      · simp only [bind_map_left, map_bind, map_pure]
        rfl
      · rfl

/-- A notification is answered in the same way whatever the repository is. -/
lemma notify_withRepository {r : Receiver} {q q' : Request}
    (h : q.SameButRepository r.settings.webhookSecret q') :
    ∃ v, (r.notify q' : RunM τ Reply) = Reply.withRepository v <$> r.notify q := by
  obtain ⟨v, hv⟩ := Notification.decide_withRepository h
  have hanswer : ∀ kind queued, answer "queued" (some kind) none
      (queued.map (QueuedRun.withRepository v)) = answer "queued" (some kind) none queued := by
    intro kind queued
    simp only [answer, List.map_map]
    rfl
  refine ⟨v, ?_⟩
  rw [notify, notify, hv]
  cases Notification.decide r.settings.webhookSecret r.workflows q with
  | queue e workflows =>
    simp only [Decision.withRepository, queueRuns_withRepository, bind_map_left, map_bind]
    congr
    funext answered
    obtain ⟨result, history, queued⟩ := answered
    cases result with
    | ok _ =>
      simp only [Prod.map, id, map_pure, hanswer]
      rfl
    | error fault => rfl
  | refuse | dismiss | unmatched | fault => rfl

/-- A request is answered in the same way whatever the repository is. -/
lemma handle_withRepository {r : Receiver} {q q' : Request}
    (h : q.SameButRepository r.settings.webhookSecret q') :
    ∃ v, (r.handle q' : RunM τ Reply) = Reply.withRepository v <$> r.handle q := by
  obtain ⟨v, hv⟩ := notify_withRepository (τ := τ) h
  have honly : ∀ (method : String) (reply reply' : RunM τ Reply),
      reply' = Reply.withRepository v <$> reply →
      only method q' reply' r = Reply.withRepository v <$> only method q reply r := by
    intro method reply reply' heq
    rw [only, only, h.method_eq, heq]
    split <;> rfl
  refine ⟨v, ?_⟩
  unfold handle
  rw [h.parts_eq]
  split
  · exact honly _ _ _ rfl
  · exact honly _ _ _ rfl
  · exact honly _ _ _ hv
  · split
    · rfl
    · exact honly _ _ _ rfl
  · rfl

variable [Timeline τ]

/-! ## No influence -/

/-- Two runs that nobody can tell apart: receivers with some settings show them under the same name
and for the same workflow, and carry them out in the same way, whatever happened before. -/
structure SameRun (τ : Type) [Timeline τ] (s : Settings) (run run' : QueuedRun) : Prop where
  /-- They have the same name. -/
  runId_eq : run'.runId = run.runId
  /-- They are of the same workflow. -/
  workflow_eq : run'.workflow = run.workflow
  /-- They come to the same, with the same records, actions and files. -/
  execute_eq : ∀ r : Receiver, r.settings = s → ∀ (host : Host τ) (w : World τ),
    r.execute run' host w = r.execute run host w

/-- Two replies that nobody can tell apart. -/
structure SameReply (τ : Type) [Timeline τ] (s : Settings) (reply reply' : Reply) : Prop where
  /-- The answer is the same. -/
  response_eq : reply'.response = reply.response
  /-- The history is the same. -/
  history_eq : reply'.history = reply.history
  /-- So are the runs that follow. -/
  queued : List.Forall₂ (SameRun τ s) reply.queued reply'.queued

/-- Where the settings ignore the sender, a reply is the same whatever the repository is. -/
lemma sameReply_withRepository {s : Settings} (hs : s.IgnoresSender) (v : Value) (reply : Reply) :
    SameReply τ s reply (reply.withRepository v) where
  response_eq := rfl
  history_eq := rfl
  queued := by
    rw [Reply.withRepository, List.forall₂_map_right_iff, List.forall₂_same]
    intro run _
    refine ⟨rfl, rfl, ?_⟩
    rintro r rfl host w
    rw [execute_withRepository hs]

/-- Two signed notifications that differ only in the repository get replies that nobody can tell
apart. -/
lemma handle_sameReply {r : Receiver} (hs : r.settings.IgnoresSender) {q q' : Request}
    (hq : q.SameButRepository r.settings.webhookSecret q') (host : Host τ) (w : World τ) :
    ∃ reply reply' w₁, r.handle q host w = (.ok reply, w₁) ∧
      r.handle q' host w = (.ok reply', w₁) ∧ SameReply τ r.settings reply reply' := by
  obtain ⟨v, hv⟩ := handle_withRepository (τ := τ) hq
  obtain ⟨reply, w₁, hreply⟩ := r.handle_returns q host w
  refine ⟨reply, reply.withRepository v, w₁, hreply, ?_, sameReply_withRepository hs v reply⟩
  rw [hv, RunM.map_apply, hreply]

/-- Two signed notifications that differ only in the repository are served in the same way. -/
lemma serve_eq_of_sameButRepository {r : Receiver} (hs : r.settings.IgnoresSender) {q q' : Request}
    (hq : q.SameButRepository r.settings.webhookSecret q') (host : Host τ) (w : World τ) :
    r.serve q' host w = r.serve q host w := by
  obtain ⟨v, hv⟩ := handle_withRepository (τ := τ) hq
  obtain ⟨reply, w₁, hreply⟩ := r.handle_returns q host w
  have hruns := foldlM_execute_withRepository (r := { r with history := reply.history }) hs v
    reply.queued host w₁
  simp only [serve, RunM.bind_apply, hv, RunM.map_apply, hreply, Reply.withRepository, hruns]

/-- The repository that the sender of a notification names has no influence where the settings do
not let it, or name a repository themselves.  Of two signed notifications that differ in nothing
else, both get the same answer and leave the same history and the same world behind, and the runs
that they queue come to the same whenever they are carried out.  So serving the one, its runs
included, is serving the other. -/
theorem repository_without_influence {r : Receiver} (hs : r.settings.IgnoresSender)
    {q q' : Request} (hq : q.SameButRepository r.settings.webhookSecret q') (host : Host τ)
    (w : World τ) :
    (∃ reply reply' w₁, r.handle q host w = (.ok reply, w₁) ∧
      r.handle q' host w = (.ok reply', w₁) ∧ SameReply τ r.settings reply reply') ∧
    r.serve q' host w = r.serve q host w :=
  ⟨handle_sameReply hs hq host w, serve_eq_of_sameButRepository hs hq host w⟩

/-- A receiver that clones from its own root. -/
def ofCheckout : Receiver where
  settings := {}
  workflows := [{
    name := "ci"
    triggers := [{ event := pushKind }]
    jobs := [
      { name := "check", steps := [{ name := "Fetch", uses := some "actions/checkout@v4" }] }] }]
  history := { size := 50 }

/-- A notification of a push to the main branch that names a repository. -/
def pushNamingRepository : Request where
  method := "POST"
  path := "/webhooks/github"
  headers := [("X-GitHub-Event", "push")]
  body := Text.Utf8.encode
    "\x7b\"ref\":\"refs/heads/main\",\"repository\":\x7b\"clone_url\":\"https://fork\"\x7d\x7d"

/-- The same without a repository. -/
def pushNamingNone : Request :=
  { pushNamingRepository with body := Text.Utf8.encode "\x7b\"ref\":\"refs/heads/main\"\x7d" }

/-- A host on which Git does all it is asked. -/
def gitHost : Host Float := { numberingHost with git := fun _ _ => some {} }

/-- Whether a value is an object with a reference, and maybe with an object as the repository. -/
def isBarePush (ref : String) : Value → Bool
  | .map [(.text "ref", .text s)] => s == ref
  | .map [(.text "ref", .text s), (.text "repository", .map _)] => s == ref
  | _ => false

/-- Such an object holds nothing but the reference, the repository apart. -/
lemma get?_of_isBarePush {ref : String} {v : Value} (h : isBarePush ref v = true) :
    v.isMap = true ∧
    (∀ name, name ≠ "repository" → v.get? name = if "ref" = name then some (.text ref) else none) ∧
    (v.field "repository" = .null ∨ (v.field "repository").isMap = true) := by
  unfold isBarePush at h
  split at h
  · obtain rfl := beq_iff_eq.mp h
    refine ⟨rfl, fun name _ => ?_, Or.inl rfl⟩
    by_cases href : "ref" = name <;> simp [Value.get?, Value.lookup, href]
  · obtain rfl := beq_iff_eq.mp h
    refine ⟨rfl, fun name hname => ?_, Or.inr rfl⟩
    by_cases href : "ref" = name <;> simp [Value.get?, Value.lookup, href, hname.symm]
  · cases h

/-- The push is served in the same way with and without a repository: it queues a run, for which Git
is asked about the root, clones from there and checks out. -/
theorem repository_without_influence_of_push :
    ofCheckout.serve pushNamingNone gitHost .initial =
        ofCheckout.serve pushNamingRepository gitHost .initial ∧
      (ofCheckout.serve pushNamingRepository gitHost .initial).2.gitCalls = 3 := by
  have hnamed : (Json.ofBytes? pushNamingRepository.body).any (isBarePush "refs/heads/main") =
      true := by decide +kernel
  have hnone : (Json.ofBytes? pushNamingNone.body).any (isBarePush "refs/heads/main") =
      true := by decide +kernel
  obtain ⟨payload, hpayload, hbare⟩ := (Option.any_eq_true ..).mp hnamed
  obtain ⟨payload', hpayload', hbare'⟩ := (Option.any_eq_true ..).mp hnone
  obtain ⟨hmap, hget, hrepository⟩ := get?_of_isBarePush hbare
  obtain ⟨hmap', hget', hrepository'⟩ := get?_of_isBarePush hbare'
  have hvalues : payload.SameButRepository payload' :=
    ⟨hmap, hmap', fun name hname => by rw [hget name hname, hget' name hname], hrepository,
      hrepository'⟩
  have hsame : pushNamingRepository.SameButRepository "" pushNamingNone :=
    ⟨rfl, rfl, rfl, rfl, rfl, payload, payload', hpayload, hpayload', hvalues⟩
  refine ⟨(repository_without_influence (r := ofCheckout) (Or.inl rfl) hsame gitHost .initial).2,
    ?_⟩
  decide +kernel

/-- Nor has it any influence in a sequence of requests: in each notification of it the repository
may be another one. -/
theorem serveAll_eq_of_sameButRepository {r : Receiver} (hs : r.settings.IgnoresSender)
    {requests requests' : List Request}
    (h : List.Forall₂ (fun q q' => q' = q ∨ q.SameButRepository r.settings.webhookSecret q')
      requests requests') (host : Host τ) (w : World τ) :
    r.serveAll requests' host w = r.serveAll requests host w := by
  generalize hsecret : r.settings.webhookSecret = secret at h
  induction h generalizing r w with
  | nil => rfl
  | @cons q q' rest rest' hq hrest ih =>
    have hserve : r.serve q' host w = r.serve q host w := by
      rcases hq with rfl | hq
      · rfl
      · exact serve_eq_of_sameButRepository hs (hsecret ▸ hq) host w
    simp only [serveAll, List.foldlM_cons, RunM.bind_apply, hserve]
    rcases hrun : r.serve q host w with ⟨fault | ⟨answer, r'⟩, w'⟩
    · rfl
    · -- the next receiver has the same settings
      have hsettings : r'.settings = r.settings := by rw [eq_of_serve hrun]
      exact ih (hsettings ▸ hs) w' (hsettings ▸ hsecret)

end Receiver

end CiRunner
