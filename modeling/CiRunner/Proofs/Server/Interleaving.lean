import CiRunner.Proofs.Server.Queueing
import CiRunner.Proofs.Server.Serving

/-!
# Requests and runs side by side

A receiver answers requests while runs that were queued before are going on.  What it remembers then
changes in small steps, which may follow one another in any order: a notification queues one more of
its runs, is answered or breaks off, a run starts, and a run comes to its end or is interrupted.  An
`Activity` is a history with all notifications and runs that are under way, and `Activity.Step` is
one of these steps.

Serving one request from beginning to end is a special case
(`Receiver.exists_reaches_of_serve`).
-/

namespace CiRunner

/-! ## What is under way -/

/-- How far a run has come. -/
inductive Stage where
  /-- It waits for its turn. -/
  | queued
  /-- It has started. -/
  | running
  /-- It came to its end. -/
  | ended
  /-- It was interrupted. -/
  | interrupted
  deriving DecidableEq, Repr

/-- A run and how far it has come. -/
structure Task where
  /-- The run. -/
  run : QueuedRun
  /-- How far it has come. -/
  stage : Stage

/-- Runs that have come equally far. -/
def tasksAt (stage : Stage) (runs : List QueuedRun) : Multiset Task :=
  Multiset.map (fun run => ⟨run, stage⟩) runs

@[simp] lemma tasksAt_nil (stage : Stage) : tasksAt stage [] = 0 := rfl

/-- A run and more runs that have come equally far. -/
lemma tasksAt_cons (stage : Stage) (run : QueuedRun) (runs : List QueuedRun) :
    tasksAt stage (run :: runs) = ⟨run, stage⟩ ::ₘ tasksAt stage runs := by
  rw [tasksAt, ← Multiset.cons_coe, Multiset.map_cons, tasksAt]

/-- Runs and one more that have come equally far. -/
lemma tasksAt_concat (stage : Stage) (runs : List QueuedRun) (run : QueuedRun) :
    tasksAt stage (runs ++ [run]) = ⟨run, stage⟩ ::ₘ tasksAt stage runs := by
  rw [tasksAt, ← Multiset.coe_add, add_comm, Multiset.coe_singleton, Multiset.singleton_add,
    Multiset.map_cons, tasksAt]

/-- A notification that starts workflows and is not answered yet. -/
structure Intake where
  /-- The event. -/
  event : Event
  /-- The workflows of which a run is still to be queued. -/
  left : List Workflow
  /-- The runs that were queued. -/
  queued : List QueuedRun := []

/-- The runs of a notification wait until it is answered. -/
def Intake.tasks (i : Intake) : Multiset Task := tasksAt .queued i.queued

/-- What a receiver remembers, and what is under way. -/
structure Activity where
  /-- The runs it remembers. -/
  history : RunHistory
  /-- The notifications that are not answered yet. -/
  intakes : Multiset Intake := 0
  /-- The runs of the notifications that are. -/
  tasks : Multiset Task := 0

namespace Activity

/-- All runs, those of notifications that are not answered yet included. -/
def runs (a : Activity) : Multiset Task := a.intakes.bind Intake.tasks + a.tasks

/-- The names of all runs. -/
def ids (a : Activity) : Multiset String := a.runs.map (·.run.runId)

/-- Nothing is under way, and nothing remembered. -/
def initial (size : ℤ) : Activity where
  history := { size }

end Activity

/-! ## Steps -/

/-- The next thing that a run does, with the changes of its record. -/
inductive Turn : Stage → Stage → List RunChange → Prop
  /-- It starts. -/
  | start : Turn .queued .running [.status "running"]
  /-- It comes to its end, with a result or with a fault. -/
  | finish (outcome : Receiver.RunEnd) (time : Calendar.Moment) :
      Turn .running .ended (outcome.changes time)
  /-- It is interrupted. -/
  | interrupt : Turn .running .interrupted []

/-- What a step is about. -/
inductive Move where
  /-- A notification that queues no run in this step. -/
  | attend
  /-- A notification that queues the run of a name. -/
  | queue (runId : String)
  /-- The run of a name. -/
  | turn (runId : String)

namespace Activity

/-- One step of what is under way. -/
inductive Step (a : Activity) : Move → Activity → Prop
  /-- A notification comes in that starts some workflows. -/
  | accept (event : Event) (left : List Workflow) :
      Step a .attend { a with intakes := { event, left } ::ₘ a.intakes }
  /-- A run of the next workflow is queued under a fresh name. -/
  | queue {event : Event} {wf : Workflow} {left : List Workflow} {queued : List QueuedRun}
      {others : Multiset Intake} {runId : String} {time : Calendar.Moment} {r : RunRecord}
      (hintake : a.intakes = ⟨event, wf :: left, queued⟩ ::ₘ others)
      (hfresh : runId ∉ a.ids) (hrecord : Receiver.recordOf? runId wf event time = some r)
      (hadd : (a.history.add r).1 = true) :
      Step a (.queue runId)
        { a with
          history := (a.history.add r).2
          intakes := ⟨event, left, queued ++ [⟨runId, wf, event⟩]⟩ ::ₘ others }
  /-- The run of the next workflow cannot be recorded, and the notification breaks off. -/
  | refuse {event : Event} {wf : Workflow} {left : List Workflow} {queued : List QueuedRun}
      {others : Multiset Intake} {runId : String} {time : Calendar.Moment}
      (hintake : a.intakes = ⟨event, wf :: left, queued⟩ ::ₘ others)
      (hrecord : Receiver.recordOf? runId wf event time = none) :
      Step a .attend { a with intakes := others }
  /-- The history cannot hold the run of the next workflow, and the notification breaks off. -/
  | overflow {event : Event} {wf : Workflow} {left : List Workflow} {queued : List QueuedRun}
      {others : Multiset Intake} {runId : String} {time : Calendar.Moment} {r : RunRecord}
      (hintake : a.intakes = ⟨event, wf :: left, queued⟩ ::ₘ others)
      (hrecord : Receiver.recordOf? runId wf event time = some r)
      (hadd : (a.history.add r).1 = false) :
      Step a .attend { a with history := (a.history.add r).2, intakes := others }
  /-- A notification is answered, and its runs may start. -/
  | answer {event : Event} {queued : List QueuedRun} {others : Multiset Intake}
      (hintake : a.intakes = ⟨event, [], queued⟩ ::ₘ others) :
      Step a .attend
        { a with intakes := others, tasks := tasksAt .queued queued + a.tasks }
  /-- A run does the next thing. -/
  | turn {run : QueuedRun} {stage stage' : Stage} {changes : List RunChange}
      {others : Multiset Task} (htask : a.tasks = ⟨run, stage⟩ ::ₘ others)
      (hturn : Turn stage stage' changes) :
      Step a (.turn run.runId)
        { a with
          history := a.history.update run.runId changes
          tasks := ⟨run, stage'⟩ ::ₘ others }

/-- What may come of what is under way, after any number of steps. -/
def Reaches : Activity → Activity → Prop :=
  Relation.ReflTransGen fun a b => ∃ m, Step a m b

end Activity

/-! ## Serving a request in steps -/

variable {τ : Type}

/-- Once a fresh name is taken, those that a host makes after it are fresh. -/
lemma Host.NamesFresh.succ {host : Host τ} {k : ℕ} {taken : Set String}
    (h : host.NamesFresh k taken) :
    host.NamesFresh (k + 1) (insert (host.freshName k) taken) where
  injOn := h.injOn.mono (Set.Ici_subset_Ici.mpr (Nat.le_succ k))
  not_mem i hi hmem := by
    rcases hmem with heq | hmem
    · exact absurd (h.injOn (Nat.le_of_succ_le hi) (Nat.le_refl k) heq) (Nat.ne_of_gt hi)
    · exact h.not_mem i (Nat.le_of_succ_le hi) hmem

namespace Activity

/-- The runs of a notification that is not answered yet, and all others. -/
lemma runs_of_intakes_eq {a : Activity} {i : Intake} {others : Multiset Intake}
    (h : a.intakes = i ::ₘ others) : a.runs = i.tasks + (others.bind Intake.tasks + a.tasks) := by
  rw [runs, h, Multiset.cons_bind, add_assoc]

/-- A run of a notification that was answered, and all others. -/
lemma runs_of_tasks_eq {a : Activity} {t : Task} {others : Multiset Task}
    (h : a.tasks = t ::ₘ others) : a.runs = t ::ₘ (a.intakes.bind Intake.tasks + others) := by
  rw [runs, h, Multiset.add_cons]

/-- A run that is queued joins the others. -/
lemma runs_of_queue {a : Activity} {event : Event} {left left' : List Workflow}
    {queued : List QueuedRun} {others : Multiset Intake}
    (h : a.intakes = ⟨event, left, queued⟩ ::ₘ others) (history : RunHistory) (run : QueuedRun) :
    runs { a with history, intakes := ⟨event, left', queued ++ [run]⟩ ::ₘ others } =
      ⟨run, .queued⟩ ::ₘ a.runs := by
  rw [runs_of_intakes_eq rfl, runs_of_intakes_eq h, Intake.tasks, tasksAt_concat,
    Multiset.cons_add, Intake.tasks]

/-- Where nothing is done, everything stays as it is. -/
lemma reaches_of_nothing {a : Activity} {history : RunHistory} (h : a.history = history) :
    a.Reaches { a with history, tasks := tasksAt .queued [] + a.tasks } := by
  rw [← h, tasksAt_nil, zero_add]
  exact .refl

/-- Runs of all workflows that are left are queued one after another. -/
lemma reaches_of_intake {event : Event} {mark : String × Option String}
    (hmark : event.mark? = some mark) (left : List Workflow) {a : Activity}
    (hsize : 0 ≤ a.history.size) {queued : List QueuedRun} {others : Multiset Intake}
    (hintake : a.intakes = ⟨event, left, queued⟩ ::ₘ others) (host : Host τ) {k : ℕ}
    (hfresh : host.NamesFresh k {id | id ∈ a.ids}) (s : ℕ) :
    a.Reaches { a with
      history := a.history.addAll
        (recordsOf mark (host.runsFrom event k left) (host.timesFrom s left.length))
      intakes := ⟨event, [], queued ++ host.runsFrom event k left⟩ ::ₘ others } := by
  induction left generalizing a queued k s with
  | nil =>
    rw [Host.runsFrom, List.append_nil, ← hintake]
    exact .refl
  | cons wf left ih =>
    set run : QueuedRun := ⟨host.freshName k, wf, event⟩ with hrun
    set next : Activity := { a with
      history := (a.history.add (run.record mark (host.now s))).2
      intakes := ⟨event, left, queued ++ [run]⟩ ::ₘ others } with hnext
    have hstep : Step a (.queue run.runId) next := by
      have hrecord : Receiver.recordOf? run.runId wf event (host.now s) =
          some (run.record mark (host.now s)) := by
        rw [Receiver.recordOf?_eq, hmark]
        rfl
      exact .queue hintake (hfresh.not_mem k (Nat.le_refl k)) hrecord (decide_eq_true hsize)
    -- the step takes one fresh name, and those after it stay fresh
    have hids : {id | id ∈ next.ids} = insert (host.freshName k) {id | id ∈ a.ids} := by
      ext id
      simp [ids, hnext, runs_of_queue hintake, hrun]
    have hrest := ih (a := next) hsize rfl (hids ▸ hfresh.succ) (s + 1)
    rw [List.append_assoc] at hrest
    exact .head ⟨_, hstep⟩ hrest

end Activity

namespace Receiver

variable {r r' : Receiver} {q : Request} {host : Host τ} {w w' : World τ} {a : Activity}

/-- Answering a notification queues its runs step by step. -/
lemma reaches_of_notify (hhistory : a.history = r.history) (hsize : 0 ≤ r.history.size)
    (hfresh : host.NamesFresh w.names {id | id ∈ a.ids}) {reply : Reply}
    (h : r.notify q host w = (.ok reply, w')) :
    a.Reaches { a with
      history := reply.history
      tasks := tasksAt .queued reply.queued + a.tasks } := by
  by_cases hqueue : ∃ e started,
      Notification.decide r.settings.webhookSecret r.workflows q = .queue e started
  · obtain ⟨e, started, hdecide⟩ := hqueue
    cases hmark : e.mark? with
    | none =>
      rw [notify_of_no_mark hdecide hmark] at h
      cases h
      exact Activity.reaches_of_nothing hhistory
    | some mark =>
      rw [notify_of_mark hdecide hmark hsize] at h
      cases h
      rw [← hhistory] at hsize ⊢
      set accepted : Activity := { a with intakes := ⟨e, started, []⟩ ::ₘ a.intakes }
      have hids : accepted.ids = a.ids := by
        rw [Activity.ids, Activity.runs_of_intakes_eq rfl, Intake.tasks, tasksAt_nil, zero_add]
        rfl
      have hqueued := Activity.reaches_of_intake hmark started (a := accepted) hsize rfl host
        (hids ▸ hfresh) w.stamps
      exact .head ⟨_, .accept e started⟩ (hqueued.tail ⟨_, .answer rfl⟩)
  · push Not at hqueue
    obtain ⟨response, w₁, hnotify, -⟩ := notify_of_ne_queue hqueue host w
    rw [hnotify] at h
    cases h
    exact Activity.reaches_of_nothing hhistory

/-- Answering a request queues the runs of a notification step by step, or does nothing. -/
lemma reaches_of_handle (hhistory : a.history = r.history) (hsize : 0 ≤ r.history.size)
    (hfresh : host.NamesFresh w.names {id | id ∈ a.ids}) {reply : Reply}
    (h : r.handle q host w = (.ok reply, w')) :
    a.Reaches { a with
      history := reply.history
      tasks := tasksAt .queued reply.queued + a.tasks } := by
  obtain hnotify | ⟨response, hnothing⟩ := r.handle_cases (τ := τ) q
  · exact reaches_of_notify hhistory hsize hfresh (hnotify ▸ h)
  · rw [hnothing] at h
    cases h
    exact Activity.reaches_of_nothing hhistory

variable [Timeline τ]

/-- A run that comes to its end makes two steps. -/
lemma reaches_of_execute {run : QueuedRun} {others : Multiset Task}
    (htask : a.tasks = ⟨run, .queued⟩ ::ₘ others) (hhistory : a.history = r.history)
    (h : r.execute run host w = (.ok r', w')) :
    a.Reaches { a with history := r'.history, tasks := ⟨run, .ended⟩ ::ₘ others } := by
  obtain ⟨outcome, time, rfl⟩ := eq_of_execute h
  rw [historyAfter, ← hhistory]
  exact .head ⟨_, .turn htask .start⟩ (.single ⟨_, .turn rfl (.finish outcome time)⟩)

/-- Runs that come to their ends one after another make two steps each. -/
lemma reaches_of_foldlM_execute {runs : List QueuedRun} {others : Multiset Task}
    (htasks : a.tasks = tasksAt .queued runs + others) (hhistory : a.history = r.history)
    (h : runs.foldlM execute r host w = (.ok r', w')) :
    a.Reaches { a with history := r'.history, tasks := tasksAt .ended runs + others } := by
  induction runs generalizing a r w others with
  | nil =>
    cases h
    rw [tasksAt_nil, zero_add] at htasks ⊢
    rw [← hhistory, ← htasks]
    exact .refl
  | cons run rest ih =>
    rw [List.foldlM_cons, RunM.bind_eq_ok_iff] at h
    obtain ⟨r₁, w₁, hrun, hrest⟩ := h
    rw [tasksAt_cons, Multiset.cons_add] at htasks ⊢
    have hfirst := reaches_of_execute htasks hhistory hrun
    -- the run that ended is one of the others from now on
    rw [← Multiset.add_cons] at hfirst ⊢
    exact hfirst.trans (ih rfl rfl hrest)

/-- Serving a request from beginning to end is one way in which notifications and runs may follow
one another: the runs that it queues come to their ends. -/
theorem exists_reaches_of_serve (hhistory : a.history = r.history) (hsize : 0 ≤ r.history.size)
    (hfresh : host.NamesFresh w.names {id | id ∈ a.ids}) {answer : Response}
    (h : r.serve q host w = (.ok (answer, r'), w')) :
    ∃ queued : List QueuedRun, a.Reaches { a with
      history := r'.history
      tasks := tasksAt .ended queued + a.tasks } := by
  obtain ⟨reply, w₁, hhandle, -, hruns⟩ := serve_eq_ok_iff.mp h
  have hanswered := reaches_of_handle hhistory hsize hfresh hhandle
  exact ⟨reply.queued, hanswered.trans (reaches_of_foldlM_execute rfl rfl hruns)⟩

end Receiver

end CiRunner
