import CiRunner.Proofs.Run.Evaluation
import CiRunner.Server.Receiver

/-!
# Serving requests

A request is answered first, and the runs that it queued follow one after another.  This file takes
these two parts apart.  Of the requests only notifications queue runs, and a run that comes to its
end has changed the history twice: when it started and when it ended.  A receiver that serves
requests changes nothing but its history.
-/

namespace CiRunner.Receiver

variable {τ : Type} {r r' : Receiver} {q : Request} {host : Host τ} {w w' : World τ}

/-! ## Answers -/

/-- Whether or not a path knows the method, a request is answered without anything being done if
there is nothing to do for that method. -/
lemma exists_only_eq (method : String) (q : Request) (response : Response) (r : Receiver) :
    ∃ response', (only method q (pure ⟨response, r.history, []⟩) r : RunM τ Reply) =
      pure ⟨response', r.history, []⟩ := by
  unfold only
  split <;> exact ⟨_, rfl⟩

/-- A request is a notification, or it is answered without anything being done. -/
lemma handle_cases (r : Receiver) (q : Request) :
    (r.handle q : RunM τ Reply) = r.notify q ∨
      ∃ response, (r.handle q : RunM τ Reply) = pure ⟨response, r.history, []⟩ := by
  unfold handle
  split
  · exact Or.inr (exists_only_eq ..)
  · exact Or.inr (exists_only_eq ..)
  · unfold only
    split
    · exact Or.inl rfl
    · exact Or.inr ⟨_, rfl⟩
  · split
    · exact Or.inr ⟨_, rfl⟩
    · exact Or.inr (exists_only_eq ..)
  · exact Or.inr ⟨_, rfl⟩

/-- A request of the method and the path of notifications is one. -/
lemma handle_eq_notify (hmethod : q.method = "POST")
    (hparts : q.parts = ["", "webhooks", "github"]) : (r.handle q : RunM τ Reply) = r.notify q := by
  rw [handle, hparts]
  exact if_pos hmethod

/-- Queueing runs always gives a value, also where a run cannot be queued. -/
lemma queueRuns_returns (e : Event) (h : RunHistory) (workflows : List Workflow) (host : Host τ)
    (w : World τ) : ∃ result w', queueRuns e h workflows host w = (.ok result, w') := by
  induction workflows generalizing h w with
  | nil => exact ⟨_, w, rfl⟩
  | cons wf rest ih =>
    simp only [queueRuns, RunM.bind_apply, RunM.freshName_apply, RunM.now_apply]
    cases recordOf? (host.freshName w.names) wf e (host.now w.stamps) with
    | none => exact ⟨_, _, rfl⟩
    | some record =>
      dsimp only
      split
      · obtain ⟨result, w', hrest⟩ := ih (h.add record).2
          { w with names := w.names + 1, stamps := w.stamps + 1 }
        rw [RunM.bind_apply, hrest]
        exact ⟨_, _, rfl⟩
      · exact ⟨_, _, rfl⟩

/-- Every request is answered. -/
lemma handle_returns (r : Receiver) (q : Request) (host : Host τ) (w : World τ) :
    ∃ reply w', r.handle q host w = (.ok reply, w') := by
  obtain h | ⟨response, h⟩ := r.handle_cases q (τ := τ)
  · rw [h, notify]
    cases Notification.decide r.settings.webhookSecret r.workflows q with
    | queue e workflows =>
      obtain ⟨⟨result, h', queued⟩, w', hqueue⟩ := queueRuns_returns e r.history workflows host w
      simp only [RunM.bind_apply, hqueue]
      cases result with
      | ok _ => exact ⟨_, _, rfl⟩
      | error fault => exact ⟨_, _, rfl⟩
    | refuse | dismiss | unmatched | fault => exact ⟨_, _, rfl⟩
  · rw [h]
    exact ⟨_, _, rfl⟩

/-! ## Runs -/

/-- The end of a run is logged. -/
lemma logEnd_apply (runId : String) (outcome : RunEnd) (host : Host τ) (w : World τ) :
    ∃ message, logEnd runId outcome host w = (.ok (), w.did [message]) := by
  cases outcome <;> exact ⟨_, rfl⟩

variable [Timeline τ]

/-- The history after a run that came to its end. -/
def historyAfter (h : RunHistory) (runId : String) (outcome : RunEnd) (time : Calendar.Moment) :
    RunHistory :=
  (h.update runId [.status "running"]).update runId (outcome.changes time)

/-- A run comes to its end, unless the user interrupts it: any other fault is an end of it too. -/
lemma runToEnd_cases (s : Settings) (run : QueuedRun) (host : Host τ) (w : World τ) :
    ∃ w', runToEnd s run host w = (.error .interrupted, w') ∨
      ∃ outcome, runToEnd s run host w = (.ok outcome, w') := by
  rw [runToEnd, RunM.bind_apply, RunM.attempt_apply]
  rcases Trigger.start { quiet := true } run.workflow run.event (runOptions s run.event) host w
    with ⟨fault | result, w'⟩
  · refine ⟨w', ?_⟩
    -- an interruption is the only fault that is passed on
    cases fault with
    | interrupted => exact Or.inl rfl
    | _ => exact Or.inr ⟨_, rfl⟩
  · exact ⟨w', Or.inr ⟨_, rfl⟩⟩

/-- A run that is started is interrupted by the user, or it comes to its end and is recorded as
running and then as ended. -/
lemma execute_cases (r : Receiver) (run : QueuedRun) (host : Host τ) (w : World τ) :
    ∃ w', r.execute run host w = (.error .interrupted, w') ∨
      ∃ outcome time, r.execute run host w =
        (.ok { r with history := historyAfter r.history run.runId outcome time }, w') := by
  simp only [execute, RunM.bind_apply, RunM.log_apply]
  obtain ⟨w₁, hrun | ⟨outcome, hrun⟩⟩ := runToEnd_cases r.settings run host (w.did [_])
  · exact ⟨w₁, Or.inl (by rw [hrun])⟩
  · obtain ⟨message, hlog⟩ := logEnd_apply run.runId outcome host w₁
    simp only [hrun, hlog, RunM.now_apply, RunM.pure_apply]
    exact ⟨_, Or.inr ⟨outcome, _, rfl⟩⟩

/-- A run that comes to its end changes nothing but the history. -/
lemma eq_of_execute {run : QueuedRun} (h : r.execute run host w = (.ok r', w')) :
    ∃ outcome time, r' = { r with history := historyAfter r.history run.runId outcome time } := by
  obtain ⟨w₁, hrun | ⟨outcome, time, hrun⟩⟩ := r.execute_cases run host w
  · cases congrArg Prod.fst (h.symm.trans hrun)
  · exact ⟨outcome, time, Except.ok.inj (congrArg Prod.fst (h.symm.trans hrun))⟩

/-- Runs change nothing but the history. -/
lemma eq_of_foldlM_execute {runs : List QueuedRun}
    (h : runs.foldlM execute r host w = (.ok r', w')) : r' = { r with history := r'.history } := by
  induction runs generalizing r w with
  | nil =>
    cases h
    rfl
  | cons run rest ih =>
    rw [List.foldlM_cons, RunM.bind_eq_ok_iff] at h
    obtain ⟨r₁, w₁, hrun, hrest⟩ := h
    obtain ⟨outcome, time, rfl⟩ := eq_of_execute hrun
    exact (ih hrest :)

/-! ## Requests -/

/-- What is served is answered, and then the runs that were queued are run. -/
lemma serve_eq_ok_iff {answer : Response} :
    r.serve q host w = (.ok (answer, r'), w') ↔
      ∃ reply w₁, r.handle q host w = (.ok reply, w₁) ∧ reply.response = answer ∧
        reply.queued.foldlM execute { r with history := reply.history } host w₁ = (.ok r', w') := by
  unfold serve
  simp only [RunM.bind_eq_ok_iff, RunM.pure_apply]
  constructor
  · rintro ⟨reply, w₁, hhandle, after, w₂, hruns, h⟩
    cases h
    exact ⟨reply, w₁, hhandle, rfl, hruns⟩
  · rintro ⟨reply, w₁, hhandle, rfl, hruns⟩
    exact ⟨reply, w₁, hhandle, r', w', hruns, rfl⟩

/-- Serving a request changes nothing but the history. -/
lemma eq_of_serve {answer : Response} (h : r.serve q host w = (.ok (answer, r'), w')) :
    r' = { r with history := r'.history } := by
  obtain ⟨reply, w₁, -, -, hruns⟩ := serve_eq_ok_iff.mp h
  exact (eq_of_foldlM_execute hruns :)

/-- Serves requests one after another and gives the receiver after them. -/
def serveAll (r : Receiver) (requests : List Request) : RunM τ Receiver :=
  requests.foldlM (fun r q => do return (← r.serve q).2) r

end CiRunner.Receiver
