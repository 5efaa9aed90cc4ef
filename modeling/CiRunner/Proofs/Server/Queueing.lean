import CiRunner.Proofs.Server.Decision
import CiRunner.Proofs.Server.History
import CiRunner.Proofs.Server.Serving

/-!
# Queueing runs

Whether a run can be recorded depends on its event alone, and a history that can hold runs at all
accepts every one.  So when a notification starts workflows, either all their runs are queued or
none is: a fault shows at the first of them, before the history has changed.
-/

namespace CiRunner

variable {τ : Type}

/-! ## Records of queued runs -/

/-- The branch and the commit of an event as they are recorded: both have to be texts, but there may
be no commit. -/
def Event.mark? (e : Event) : Option (String × Option String) :=
  match e.branch, e.sha with
  | .text branch, .text sha => some (branch, some sha)
  | .text branch, .null => some (branch, none)
  | _, _ => none

/-- An event can be recorded with its branch if that is a text, and its commit if that is a text or
nothing. -/
lemma Event.mark?_eq_some_iff {e : Event} {mark : String × Option String} :
    e.mark? = some mark ↔ e.branch = .text mark.1 ∧ e.sha = Value.ofText? mark.2 := by
  obtain ⟨branch, sha⟩ := mark
  rcases e with ⟨kind, b, c⟩
  cases b <;> cases c <;> cases sha <;> simp [mark?, Value.ofText?]

/-- The record of a run that is queued at some time. -/
def QueuedRun.record (mark : String × Option String) (run : QueuedRun) (time : Calendar.Moment) :
    RunRecord where
  runId := run.runId
  workflow := run.workflow.name
  event := run.event.kind
  branch := mark.1
  sha := mark.2
  status := "queued"
  createdAt := time

namespace Receiver

/-- A run is recorded exactly if its event can be. -/
lemma recordOf?_eq (runId : String) (wf : Workflow) (e : Event) (time : Calendar.Moment) :
    recordOf? runId wf e time =
      e.mark?.map fun mark => QueuedRun.record mark ⟨runId, wf, e⟩ time := by
  rcases e with ⟨kind, branch, sha⟩
  cases branch <;> cases sha <;> rfl

end Receiver

/-! ## Adding several runs -/

namespace RunHistory

/-- A history after some runs were added one after another. -/
def addAll (h : RunHistory) (records : List RunRecord) : RunHistory :=
  records.foldl (fun h r => (h.add r).2) h

/-- No operation changes how many runs a history may hold. -/
lemma size_addAll (h : RunHistory) (records : List RunRecord) :
    (h.addAll records).size = h.size := by
  induction records generalizing h with
  | nil => rfl
  | cons r rest ih => exact ih (h.add r).2

/-- After a run was added, a history holds no more runs than it may. -/
lemma length_runs_addAll_le (h : RunHistory) {records : List RunRecord} (hne : records ≠ []) :
    (h.addAll records).runs.length ≤ h.size.toNat := by
  obtain ⟨before, r, rfl⟩ := (List.eq_nil_or_concat' records).resolve_left hne
  rw [addAll, List.foldl_concat, ← h.size_addAll before]
  exact length_trim_le ..

/-- A history is known by its runs, if it may hold as many as another one. -/
lemma eq_of_size_eq {h h' : RunHistory} (hsize : h'.size = h.size) :
    h' = { h with runs := h'.runs } := by
  cases h'
  cases hsize
  rfl

/-- Runs under new names are appended, and the oldest ones are dropped. -/
lemma addAll_of_new {h : RunHistory} {records : List RunRecord} (hne : records ≠ [])
    (hnodup : (records.map RunRecord.runId).Nodup)
    (hnew : ∀ r ∈ records, r.runId ∉ h.names) :
    h.addAll records = { h with runs := trim h.size (h.runs ++ records) } := by
  -- it does not matter to what is left in the end that runs are dropped on the way
  have htrim : trim h.size (h.addAll records).runs = trim h.size (h.runs ++ records) := by
    clear hne
    induction records generalizing h with
    | nil => rw [List.append_nil]; rfl
    | cons r rest ih =>
      rw [List.map_cons, List.nodup_cons] at hnodup
      obtain ⟨hr, hrest⟩ := List.forall_mem_cons.mp hnew
      have hruns : (h.add r).2.runs = trim h.size (h.runs ++ [r]) :=
        congrArg (trim h.size) (place_of_not_mem hr)
      have hnames : ∀ s ∈ rest, s.runId ∉ (h.add r).2.names := by
        intro s hs hmem
        rw [names, hruns] at hmem
        have hmem := ((trim_suffix ..).sublist.map RunRecord.runId).subset hmem
        rw [List.map_append, List.mem_append, List.map_singleton, List.mem_singleton] at hmem
        rcases hmem with hmem | hmem
        · exact hrest s hs hmem
        · exact hnodup.1 (hmem ▸ List.mem_map_of_mem hs)
      have hend := ih hnodup.2 hnames
      rw [size_add, hruns, trim_trim_append, List.append_assoc] at hend
      exact hend
  rw [← htrim, trim_of_length_le (h.length_runs_addAll_le hne)]
  exact eq_of_size_eq (h.size_addAll records)

end RunHistory

/-! ## Names and times -/

/-- A world in which some runs more were given names and times. -/
def World.numbered (w : World τ) (n : ℕ) : World τ :=
  { w with names := w.names + n, stamps := w.stamps + n }

/-- One run and some more are numbered together. -/
lemma World.numbered_numbered_one (w : World τ) (n : ℕ) :
    (w.numbered 1).numbered n = w.numbered (n + 1) := by
  simp only [numbered, Nat.add_assoc, Nat.add_comm n 1]

namespace Host

/-- The names that a host makes from some number on are new: different from one another and from
those that are taken. -/
structure NamesFresh (host : Host τ) (k : ℕ) (taken : Set String) : Prop where
  /-- No name is made twice. -/
  injOn : Set.InjOn host.freshName (Set.Ici k)
  /-- No name is taken. -/
  not_mem : ∀ i, k ≤ i → host.freshName i ∉ taken

/-- The names that a host makes from some number on. -/
def namesFrom (host : Host τ) (k n : ℕ) : List String := (List.range' k n).map host.freshName

/-- The times that a host tells from some number on. -/
def timesFrom (host : Host τ) (k n : ℕ) : List Calendar.Moment := (List.range' k n).map host.now

/-- Fresh names are different from one another. -/
lemma NamesFresh.nodup {host : Host τ} {k : ℕ} {taken : Set String}
    (h : host.NamesFresh k taken) (n : ℕ) : (host.namesFrom k n).Nodup := by
  refine (List.nodup_range' ..).map_on fun i hi j hj hij => ?_
  exact h.injOn (List.left_le_of_mem_range' hi) (List.left_le_of_mem_range' hj) hij

/-- Fresh names are not taken. -/
lemma NamesFresh.not_mem_namesFrom {host : Host τ} {k n : ℕ} {taken : Set String} {id : String}
    (h : host.NamesFresh k taken) (hid : id ∈ host.namesFrom k n) : id ∉ taken := by
  obtain ⟨i, hi, rfl⟩ := List.mem_map.mp hid
  exact h.not_mem i (List.left_le_of_mem_range' hi)

/-- The runs of some workflows for an event, under the names that a host makes. -/
def runsFrom (host : Host τ) (e : Event) : ℕ → List Workflow → List QueuedRun
  | _, [] => []
  | k, wf :: rest => ⟨host.freshName k, wf, e⟩ :: host.runsFrom e (k + 1) rest

variable (host : Host τ) (e : Event)

/-- There is one run for each workflow, in their order. -/
@[simp] lemma map_workflow_runsFrom (k : ℕ) (workflows : List Workflow) :
    (host.runsFrom e k workflows).map QueuedRun.workflow = workflows := by
  induction workflows generalizing k with
  | nil => rfl
  | cons wf rest ih => rw [runsFrom, List.map_cons, ih]

@[simp] lemma length_runsFrom (k : ℕ) (workflows : List Workflow) :
    (host.runsFrom e k workflows).length = workflows.length := by
  rw [← List.length_map QueuedRun.workflow, map_workflow_runsFrom]

/-- The runs have the names that the host makes. -/
lemma map_runId_runsFrom (k : ℕ) (workflows : List Workflow) :
    (host.runsFrom e k workflows).map QueuedRun.runId = host.namesFrom k workflows.length := by
  induction workflows generalizing k with
  | nil => rfl
  | cons wf rest ih =>
    rw [runsFrom, List.map_cons, ih, List.length_cons, namesFrom, namesFrom, List.range'_succ,
      List.map_cons]

/-- The runs are all for the same event. -/
lemma event_of_mem_runsFrom {k : ℕ} {workflows : List Workflow} {run : QueuedRun}
    (h : run ∈ host.runsFrom e k workflows) : run.event = e := by
  induction workflows generalizing k with
  | nil => simp [runsFrom] at h
  | cons wf rest ih =>
    rcases List.mem_cons.mp h with rfl | h
    · rfl
    · exact ih h

end Host

/-- The records of queued runs. -/
def recordsOf (mark : String × Option String) (runs : List QueuedRun)
    (times : List Calendar.Moment) : List RunRecord :=
  List.zipWith (QueuedRun.record mark) runs times

/-- The records stand under the names of the runs. -/
lemma map_runId_recordsOf (mark : String × Option String) {runs : List QueuedRun}
    {times : List Calendar.Moment} (h : runs.length = times.length) :
    (recordsOf mark runs times).map RunRecord.runId = runs.map QueuedRun.runId := by
  induction runs generalizing times with
  | nil => rfl
  | cons run rest ih =>
    cases times with
    | nil => simp at h
    | cons time times =>
      rw [recordsOf, List.zipWith_cons_cons, List.map_cons, List.map_cons, ← recordsOf,
        ih (Nat.succ.inj h)]
      rfl

/-! ## The loop that queues -/

namespace Receiver

variable {e : Event} {mark : String × Option String}

/-- If the event can be recorded, a run of each workflow is queued. -/
lemma queueRuns_of_mark (hmark : e.mark? = some mark) {h : RunHistory} (hsize : 0 ≤ h.size)
    (workflows : List Workflow) (host : Host τ) (w : World τ) :
    queueRuns e h workflows host w =
      (.ok (.ok (), h.addAll (recordsOf mark (host.runsFrom e w.names workflows)
          (host.timesFrom w.stamps workflows.length)), host.runsFrom e w.names workflows),
        w.numbered workflows.length) := by
  induction workflows generalizing h w with
  | nil => rfl
  | cons wf rest ih =>
    set r := QueuedRun.record mark ⟨host.freshName w.names, wf, e⟩ (host.now w.stamps) with hr
    -- a history whose size is not negative accepts every run
    have hadd : h.add r = (true, (h.add r).2) := by
      rw [RunHistory.add_eq, decide_eq_true hsize]
    simp only [queueRuns, RunM.bind_apply, RunM.freshName_apply, RunM.now_apply, recordOf?_eq,
      hmark, Option.map_some, ← hr]
    rw [hadd]
    simp only [if_true, RunM.bind_apply, ih (h := (h.add r).2) hsize, RunM.pure_apply]
    exact Prod.ext rfl (w.numbered_numbered_one rest.length)

/-- If the event cannot be recorded, no run is queued. -/
lemma queueRuns_of_no_mark (hmark : e.mark? = none) (h : RunHistory) (wf : Workflow)
    (rest : List Workflow) (host : Host τ) (w : World τ) :
    queueRuns e h (wf :: rest) host w = (.ok (.error .record, h, []), w.numbered 1) := by
  simp only [queueRuns, RunM.bind_apply, RunM.freshName_apply, RunM.now_apply, recordOf?_eq, hmark,
    Option.map_none, RunM.pure_apply]
  rfl

/-- Whatever comes of queueing, the runs that were queued are for the event, which can be recorded,
and of the workflows. -/
lemma of_mem_queueRuns {h h' : RunHistory} {workflows : List Workflow} {host : Host τ}
    {w w' : World τ} {result : Except NotificationFault Unit} {queued : List QueuedRun}
    (hqueue : queueRuns e h workflows host w = (.ok (result, h', queued), w')) {run : QueuedRun}
    (hrun : run ∈ queued) : run.event = e ∧ run.workflow ∈ workflows ∧ e.mark?.isSome = true := by
  induction workflows generalizing h h' result queued w w' with
  | nil =>
    cases hqueue
    cases hrun
  | cons wf rest ih =>
    simp only [queueRuns, RunM.bind_apply, RunM.freshName_apply, RunM.now_apply, recordOf?_eq]
      at hqueue
    cases hmark : e.mark? with
    | none =>
      rw [hmark] at hqueue
      cases hqueue
      cases hrun
    | some mark =>
      rw [hmark] at hqueue
      dsimp only [Option.map_some] at hqueue
      split at hqueue
      · obtain ⟨⟨result', h₁, others⟩, w₁, hrest⟩ := queueRuns_returns e
          (h.add (QueuedRun.record mark ⟨host.freshName w.names, wf, e⟩ (host.now w.stamps))).2 rest
          host { w with names := w.names + 1, stamps := w.stamps + 1 }
        rw [RunM.bind_apply, hrest] at hqueue
        cases hqueue
        rcases List.mem_cons.mp hrun with rfl | hrun
        · exact ⟨rfl, List.mem_cons_self, rfl⟩
        · obtain ⟨hevent, hmem, -⟩ := ih hrest hrun
          exact ⟨hevent, List.mem_cons_of_mem _ hmem, rfl⟩
      · cases hqueue
        cases hrun

end Receiver

/-! ## Answers to notifications -/

namespace Response

/-- The word with which an answer says what came of a notification. -/
def statusWord? (a : Response) : Option String :=
  match a.body with
  | .json v =>
    match v.field "status" with
    | .text word => some word
    | _ => none
  | .text _ => none

@[simp] lemma statusWord?_answer (status : String) (kind reason : Option String)
    (queued : List QueuedRun) :
    (Receiver.answer status kind reason queued).statusWord? = some status := by
  simp [statusWord?, Receiver.answer, ok, Value.field, Value.get?, Value.lookup]

@[simp] lemma statusWord?_refusal (status : ℕ) (detail : String) :
    (refusal status detail).statusWord? = none := by
  simp [statusWord?, refusal, Value.field, Value.get?, Value.lookup]

@[simp] lemma statusWord?_internalError : internalError.statusWord? = none := rfl

end Response

namespace Receiver

variable {r : Receiver} {q : Request} {e : Event} {started : List Workflow}

/-- A notification that starts no workflow changes nothing that is remembered. -/
lemma notify_of_ne_queue
    (hdecide : ∀ e started,
      Notification.decide r.settings.webhookSecret r.workflows q ≠ .queue e started)
    (host : Host τ) (w : World τ) :
    ∃ response w', r.notify q host w = (.ok ⟨response, r.history, []⟩, w') ∧
      response.statusWord? ≠ some "queued" := by
  unfold notify
  cases hd : Notification.decide r.settings.webhookSecret r.workflows q with
  | refuse status detail => exact ⟨_, _, rfl, by simp⟩
  | dismiss status kind reason =>
    refine ⟨_, _, rfl, ?_⟩
    have hstatus := Notification.status_of_decide_eq_dismiss hd
    rw [Response.statusWord?_answer]
    rintro ⟨rfl⟩
    exact absurd hstatus (by decide)
  | unmatched e => exact ⟨_, _, rfl, by simp⟩
  | queue e started => exact absurd hd (hdecide e started)
  | fault reason => exact ⟨_, _, rfl, by simp⟩

/-- A notification that starts workflows queues a run of each, if their event can be recorded. -/
lemma notify_of_mark
    (hdecide : Notification.decide r.settings.webhookSecret r.workflows q = .queue e started)
    {mark : String × Option String} (hmark : e.mark? = some mark) (hsize : 0 ≤ r.history.size)
    (host : Host τ) (w : World τ) :
    r.notify q host w =
      (.ok ⟨answer "queued" (some e.kind) none (host.runsFrom e w.names started),
          r.history.addAll (recordsOf mark (host.runsFrom e w.names started)
            (host.timesFrom w.stamps started.length)), host.runsFrom e w.names started⟩,
        w.numbered started.length) := by
  simp only [notify, hdecide, RunM.bind_apply, queueRuns_of_mark hmark hsize, RunM.pure_apply]

/-- A notification that starts workflows queues no run if their event cannot be recorded. -/
lemma notify_of_no_mark
    (hdecide : Notification.decide r.settings.webhookSecret r.workflows q = .queue e started)
    (hmark : e.mark? = none) (host : Host τ) (w : World τ) :
    r.notify q host w = (.ok ⟨.internalError, r.history, []⟩, w.numbered 1) := by
  obtain ⟨wf, rest, rfl⟩ := List.exists_cons_of_ne_nil
    (Notification.decide_eq_queue_iff.mp hdecide).2.2.2
  simp only [notify, hdecide, RunM.bind_apply, queueRuns_of_no_mark hmark, RunM.pure_apply]

/-- A run is queued by a notification of its event, which can be recorded, and it is a run of one of
the workflows. -/
lemma of_mem_queued {host : Host τ} {w w' : World τ} {reply : Reply}
    (hhandle : r.handle q host w = (.ok reply, w')) {run : QueuedRun} (hrun : run ∈ reply.queued) :
    (∃ kind payload,
      Notification.Announces r.settings.webhookSecret q kind payload run.event) ∧
    run.workflow ∈ r.workflows ∧ run.event.mark?.isSome = true := by
  obtain h | ⟨response, h⟩ := r.handle_cases q (τ := τ)
  swap
  · rw [h] at hhandle
    cases hhandle
    cases hrun
  rw [h, notify] at hhandle
  cases hdecide : Notification.decide r.settings.webhookSecret r.workflows q with
  | queue e started =>
    obtain ⟨⟨result, h', queued⟩, w₁, hqueue⟩ := queueRuns_returns e r.history started host w
    simp only [hdecide, RunM.bind_apply, hqueue] at hhandle
    obtain ⟨hannounces, -, rfl, -⟩ := Notification.decide_eq_queue_iff.mp hdecide
    cases result with
    | ok _ =>
      cases hhandle
      obtain ⟨rfl, hmem, hmark⟩ := of_mem_queueRuns hqueue hrun
      exact ⟨hannounces, (List.mem_filter.mp hmem).1, hmark⟩
    | error fault =>
      cases hhandle
      cases hrun
  | refuse | dismiss | unmatched | fault =>
    rw [hdecide] at hhandle
    cases hhandle
    cases hrun

/-- The runs of the workflows that an event starts are queued. -/
structure Queues (r : Receiver) (e : Event) (host : Host τ) (w : World τ) (reply : Reply) :
    Prop where
  /-- There is one run for each workflow that the event starts, in their order. -/
  workflows : reply.queued.map QueuedRun.workflow = r.workflows.filter (Workflow.startedBy e)
  /-- The runs are for the event. -/
  event : ∀ run ∈ reply.queued, run.event = e
  /-- Each has the next name that the host makes. -/
  names : reply.queued.map QueuedRun.runId = host.namesFrom w.names reply.queued.length
  /-- The answer lists them. -/
  response : reply.response = answer "queued" (some e.kind) none reply.queued
  /-- Their records are added to the history in their order.  If the names are fresh, the history
  is the one before with these records after it, of which the last ones are kept. -/
  history : ∃ mark, e.mark? = some mark ∧ ∃ records,
    records = recordsOf mark reply.queued (host.timesFrom w.stamps reply.queued.length) ∧
    reply.history = r.history.addAll records ∧
    (host.NamesFresh w.names {id | id ∈ r.history.names} →
      (records.map RunRecord.runId).Nodup ∧ (∀ record ∈ records, record.runId ∉ r.history.names) ∧
      reply.history =
        { r.history with runs := RunHistory.trim r.history.size (r.history.runs ++ records) })

/-- What a notification queues that starts workflows. -/
lemma queues_of_mark
    (hdecide : Notification.decide r.settings.webhookSecret r.workflows q = .queue e started)
    {mark : String × Option String} (hmark : e.mark? = some mark) (host : Host τ) (w : World τ) :
    r.Queues e host w
      ⟨answer "queued" (some e.kind) none (host.runsFrom e w.names started),
        r.history.addAll (recordsOf mark (host.runsFrom e w.names started)
          (host.timesFrom w.stamps started.length)), host.runsFrom e w.names started⟩ := by
  obtain ⟨-, -, hstarted, hne⟩ := Notification.decide_eq_queue_iff.mp hdecide
  have hlength : (host.runsFrom e w.names started).length = started.length :=
    host.length_runsFrom e w.names started
  refine ⟨(host.map_workflow_runsFrom e w.names started).trans hstarted,
    fun _ => host.event_of_mem_runsFrom e, ?_, rfl, mark, hmark, _, rfl, by rw [hlength], ?_⟩
  · rw [hlength]
    exact host.map_runId_runsFrom e w.names started
  intro hfresh
  dsimp only
  rw [hlength]
  set records := recordsOf mark (host.runsFrom e w.names started)
    (host.timesFrom w.stamps started.length) with hrecords
  have hnames : records.map RunRecord.runId = host.namesFrom w.names started.length := by
    rw [hrecords, map_runId_recordsOf mark (by simp [Host.timesFrom]), host.map_runId_runsFrom]
  have hnodup : (records.map RunRecord.runId).Nodup := hnames ▸ hfresh.nodup started.length
  have hnew : ∀ record ∈ records, record.runId ∉ r.history.names := fun record hmem =>
    hfresh.not_mem_namesFrom (hnames ▸ List.mem_map_of_mem hmem)
  have hrecordsne : records ≠ [] := by
    intro hnil
    have hzero : 0 = started.length := by
      simpa [hnil, Host.namesFrom] using congrArg List.length hnames
    exact hne (List.eq_nil_of_length_eq_zero hzero.symm)
  exact ⟨hnodup, hnew, RunHistory.addAll_of_new hrecordsne hnodup hnew⟩

/-- A notification starts runs: it announces an event that can be compared with the rules of all
workflows, matches a rule of one of them, and can be recorded. -/
structure Starts (r : Receiver) (q : Request) (e : Event) : Prop where
  /-- The event is announced. -/
  announces : ∃ kind payload, Notification.Announces r.settings.webhookSecret q kind payload e
  /-- It can be compared with all workflows. -/
  compares : ∀ wf ∈ r.workflows, wf.ComparesWith e
  /-- It starts one of them. -/
  started : ∃ wf ∈ r.workflows, wf.startedBy e = true
  /-- It can be recorded. -/
  recorded : e.mark?.isSome = true

/-- A notification starts runs exactly if it starts workflows and its event can be recorded. -/
lemma starts_iff : r.Starts q e ↔
    ∃ started, Notification.decide r.settings.webhookSecret r.workflows q = .queue e started ∧
      e.mark?.isSome = true := by
  constructor
  · rintro ⟨hannounces, hcompares, ⟨wf, hwf, hstarted⟩, hrecorded⟩
    have hne : r.workflows.filter (Workflow.startedBy e) ≠ [] :=
      List.ne_nil_of_mem (List.mem_filter.mpr ⟨hwf, hstarted⟩)
    exact ⟨_, Notification.decide_eq_queue_iff.mpr ⟨hannounces, hcompares, rfl, hne⟩, hrecorded⟩
  · rintro ⟨started, hdecide, hrecorded⟩
    obtain ⟨hannounces, hcompares, rfl, hne⟩ := Notification.decide_eq_queue_iff.mp hdecide
    obtain ⟨wf, hmem⟩ := List.exists_mem_of_ne_nil _ hne
    exact ⟨hannounces, hcompares, ⟨wf, List.mem_filter.mp hmem⟩, hrecorded⟩

/-- What comes of a notification.  Either it starts runs: then it is answered that they are queued,
one run is queued for each workflow that its event starts, and their records are added to the
history.  Or it does not: then the answer says something else, nothing that is remembered changes,
and no run follows. -/
theorem notify_queues_matching (hsize : 0 ≤ r.history.size) (q : Request) (host : Host τ)
    (w : World τ) :
    ∃ reply w', r.notify q host w = (.ok reply, w') ∧
      ((reply.response.statusWord? = some "queued" ∧
          ∃ e, r.Starts q e ∧ r.Queues e host w reply) ∨
        (reply.response.statusWord? ≠ some "queued" ∧ (∀ e, ¬r.Starts q e) ∧
          reply.history = r.history ∧ reply.queued = [])) := by
  by_cases hqueue : ∃ e started,
      Notification.decide r.settings.webhookSecret r.workflows q = .queue e started
  · obtain ⟨e, started, hdecide⟩ := hqueue
    cases hmark : e.mark? with
    | none =>
      -- the fault shows at the first run, when nothing is queued yet
      refine ⟨_, _, notify_of_no_mark hdecide hmark host w, Or.inr ⟨by simp, fun e' he' => ?_,
        rfl, rfl⟩⟩
      obtain ⟨started', hdecide', hrecorded⟩ := starts_iff.mp he'
      obtain ⟨rfl, rfl⟩ := Decision.queue.inj (hdecide.symm.trans hdecide')
      rw [hmark] at hrecorded
      cases hrecorded
    | some mark =>
      have hstarts : r.Starts q e := starts_iff.mpr ⟨started, hdecide, by rw [hmark]; rfl⟩
      exact ⟨_, _, notify_of_mark hdecide hmark hsize host w,
        Or.inl ⟨by simp, e, hstarts, queues_of_mark hdecide hmark host w⟩⟩
  · push Not at hqueue
    obtain ⟨response, w', hnotify, hstatus⟩ := notify_of_ne_queue hqueue host w
    refine ⟨_, w', hnotify, Or.inr ⟨hstatus, fun e he => ?_, rfl, rfl⟩⟩
    obtain ⟨started, hdecide, -⟩ := starts_iff.mp he
    exact hqueue e started hdecide

/-- A receiver with a workflow for every branch, one for releases and one for the main branch.  It
may remember three runs and remembers two. -/
def ofThreeWorkflows : Receiver where
  settings := { webhookSecret := "s3cret", historySize := 3 }
  workflows := [
    { buildAndPack with name := "lint", triggers := [{ event := "push" }] },
    { buildAndPack with
      name := "release", triggers := [{ event := "push", branches := some ["v*"] }] },
    { buildAndPack with
      name := "build", triggers := [{ event := "push", branches := some ["main"] }] }]
  history :=
    { size := 3
      runs := [
        { runId := "a", workflow := "lint", event := "push", branch := "dev", status := "failure"
          createdAt := default },
        { runId := "b", workflow := "lint", event := "push", branch := "main", status := "success"
          createdAt := default }] }

/-- A signed notification of a push to the main branch. -/
def pushToMain : Request :=
  let body := Text.Utf8.encode "\x7b\"ref\":\"refs/heads/main\",\"after\":\"c0ffee\"\x7d"
  { method := "POST"
    path := "/webhooks/github"
    headers :=
      [("X-GitHub-Event", "push"), ("X-Hub-Signature-256", Signature.ofBody "s3cret" body)]
    body }

/-- A host on which fresh names are numbers. -/
def numberingHost : Host Float := { Host.scripted [] with freshName := Nat.repr }

/-- The push queues two runs, and the oldest of the runs before makes room for them. -/
theorem notify_queues_matching_of_push :
    ∃ reply w', ofThreeWorkflows.notify pushToMain numberingHost .initial = (.ok reply, w') ∧
      (∃ e, ofThreeWorkflows.Starts pushToMain e ∧
        ofThreeWorkflows.Queues e numberingHost .initial reply) ∧
      reply.history.names = ["b", "0", "1"] := by
  obtain ⟨reply, w', hnotify, hcases⟩ :=
    notify_queues_matching (r := ofThreeWorkflows) (by decide) pushToMain numberingHost .initial
  have hreply : (ofThreeWorkflows.notify pushToMain numberingHost .initial).1.toOption.map
      (fun reply => (reply.response.statusWord?, reply.history.names)) =
        some (some "queued", ["b", "0", "1"]) := by decide +kernel
  rw [hnotify] at hreply
  obtain ⟨hstatus, hnames⟩ := Prod.mk.inj (Option.some.inj hreply)
  obtain ⟨-, hqueues⟩ | ⟨hother, -⟩ := hcases
  · exact ⟨reply, w', hnotify, hqueues, hnames⟩
  · exact absurd hstatus hother

end Receiver

end CiRunner
