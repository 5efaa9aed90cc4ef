import CiRunner.Proofs.Run.Evaluation
import CiRunner.Server.Receiver

/-!
# What a notification leads to

A notification starts workflows exactly if it announces an event, if the event can be compared with
the rules of every workflow, and if it matches a rule of one of them; it then starts all those it
matches, in their order.
-/

namespace CiRunner

/-- Whether an event can be compared with the rules of a workflow and matches one of them. -/
def Workflow.startedBy (e : Event) (wf : Workflow) : Bool := (wf.shouldRun e).toOption.getD false

/-- An event can be compared with the rules of a workflow. -/
def Workflow.ComparesWith (e : Event) (wf : Workflow) : Prop := ∃ run, wf.shouldRun e = .ok run

namespace Notification

/-! ## The workflows that an event starts -/

/-- The workflows that an event starts are found exactly if it can be compared with the rules of all
workflows. -/
lemma matching_eq_ok_iff {e : Event} {workflows started : List Workflow} :
    matching e workflows = .ok started ↔
      (∀ wf ∈ workflows, wf.ComparesWith e) ∧
        started = workflows.filter (Workflow.startedBy e) := by
  induction workflows generalizing started with
  | nil => simp [matching, eq_comm]
  | cons wf rest ih =>
    rw [matching, List.forall_mem_cons, List.filter_cons, Workflow.startedBy]
    cases hwf : wf.shouldRun e with
    | error reason =>
      -- a workflow that cannot be compared ends the search, wherever it stands
      have hnot : ¬wf.ComparesWith e := by simp [Workflow.ComparesWith, hwf]
      simp [bind, Except.bind, hnot]
    | ok run =>
      have hcompares : wf.ComparesWith e := ⟨run, hwf⟩
      cases hrest : matching e rest with
      | error reason =>
        have hnot : ¬∀ wf ∈ rest, wf.ComparesWith e := fun hall => by
          rw [ih.mpr ⟨hall, rfl⟩] at hrest
          cases hrest
        simp [bind, Except.bind, hnot]
      | ok others =>
        obtain ⟨hall, rfl⟩ := ih.mp hrest
        simp only [hcompares, true_and, and_iff_right hall]
        cases run <;> simp [bind, Except.bind, pure, Except.pure, Except.toOption, eq_comm]

/-- An event starts workflows exactly if it can be compared with all of them and matches one. -/
lemma decideEvent_eq_queue_iff {e e' : Event} {workflows started : List Workflow} :
    decideEvent workflows e = .queue e' started ↔
      e' = e ∧ matching e workflows = .ok started ∧ started ≠ [] := by
  rw [decideEvent]
  cases hmatching : matching e workflows with
  | error reason => simp
  | ok found =>
    cases found with
    | nil => simp [eq_comm]
    | cons wf rest =>
      simp only [Decision.queue.injEq, Except.ok.injEq]
      constructor
      · rintro ⟨rfl, rfl⟩
        exact ⟨rfl, rfl, List.cons_ne_nil _ _⟩
      · rintro ⟨rfl, rfl, -⟩
        exact ⟨rfl, rfl⟩

/-! ## The events that are announced -/

/-- A notification announces an event. -/
structure Announces (secret : String) (q : Request) (kind : String) (payload : Value) (e : Event) :
    Prop where
  /-- Its signature is right, if there is a secret. -/
  signed : Signature.verify? q.body (q.header? signatureHeader) secret = some true
  /-- A header names the kind of event. -/
  kind_eq : q.header? eventHeader = some kind
  /-- The kind is one that can start runs. -/
  supported : kind ∈ eventKinds
  /-- The body can be read. -/
  payload_eq : Json.ofBytes? q.body = some payload
  /-- It is an object. -/
  isMap : payload.isMap = true
  /-- The object does not tell of a branch that was deleted. -/
  kept : (payload.field "deleted").truthy = false
  /-- The event is made from the object. -/
  event_eq : Event.ofPayload kind payload = .ok e

/-- Only an object that announces an event starts workflows. -/
lemma decidePayload_eq_queue_iff {workflows started : List Workflow} {kind : Option String}
    {payload : Value} {e : Event} :
    decidePayload workflows kind payload = .queue e started ↔
      ∃ name, kind = some name ∧ name ∈ eventKinds ∧ (payload.field "deleted").truthy = false ∧
        Event.ofPayload name payload = .ok e ∧ decideEvent workflows e = .queue e started := by
  constructor
  · intro h
    unfold decidePayload at h
    split at h
    · cases h
    cases kind with
    | none => cases h
    | some name =>
      dsimp only at h
      split_ifs at h with hkind hdeleted
      split at h
      · rename_i made hmade
        obtain rfl := (decideEvent_eq_queue_iff.mp h).1
        exact ⟨name, rfl, by simpa using hkind, by simpa using hdeleted, hmade, h⟩
      · cases h
      · cases h
  · rintro ⟨name, rfl, hkind, hdeleted, hevent, h⟩
    unfold decidePayload
    split
    · -- a ping is no kind of event
      rename_i hping
      cases hping
      exact absurd hkind (by decide)
    · simpa [hkind, hdeleted, hevent] using h

/-- A notification starts workflows exactly if it announces an event that can be compared with the
rules of all workflows and matches a rule of one; it starts all those that the event matches. -/
lemma decide_eq_queue_iff {secret : String} {workflows started : List Workflow} {q : Request}
    {e : Event} :
    decide secret workflows q = .queue e started ↔
      (∃ kind payload, Announces secret q kind payload e) ∧
        (∀ wf ∈ workflows, wf.ComparesWith e) ∧
        started = workflows.filter (Workflow.startedBy e) ∧ started ≠ [] := by
  have hevent : decideEvent workflows e = .queue e started ↔
      (∀ wf ∈ workflows, wf.ComparesWith e) ∧
        started = workflows.filter (Workflow.startedBy e) ∧ started ≠ [] := by
    rw [decideEvent_eq_queue_iff, matching_eq_ok_iff, and_assoc]
    exact and_iff_right rfl
  rw [← hevent]
  constructor
  · intro h
    unfold decide at h
    split at h
    · cases h
    · cases h
    rename_i hsigned
    unfold decideBody at h
    split at h
    · cases h
    rename_i payload hpayload
    split_ifs at h with hmap
    obtain ⟨kind, hkind, hsupported, hkept, hmade, hqueue⟩ := decidePayload_eq_queue_iff.mp h
    exact ⟨⟨kind, payload, hsigned, hkind, hsupported, hpayload, hmap, hkept, hmade⟩, hqueue⟩
  · rintro ⟨⟨kind, payload, ha⟩, hqueue⟩
    have hpayload := decidePayload_eq_queue_iff.mpr
      ⟨kind, rfl, ha.supported, ha.kept, ha.event_eq, hqueue⟩
    simp only [decide, decideBody, ha.signed, ha.payload_eq, ha.isMap, ha.kind_eq, if_true,
      hpayload]

/-- The words with which a notification is dismissed. -/
lemma status_of_decide_eq_dismiss {secret : String} {workflows : List Workflow} {q : Request}
    {status : String} {kind reason : Option String}
    (h : decide secret workflows q = .dismiss status kind reason) :
    status ∈ ["pong", "ignored", "skipped"] := by
  unfold decide at h
  split at h
  · cases h
  · cases h
  unfold decideBody at h
  split at h
  · cases h
  split_ifs at h
  unfold decidePayload at h
  split at h
  · cases h
    decide
  dsimp only at h
  split_ifs at h
  · cases h
    decide
  · cases h
    decide
  split at h
  · unfold decideEvent at h
    split at h <;> cases h
  · cases h
  · cases h

end Notification

end CiRunner
