import CiRunner.Proofs.Run.Evaluation

/-!
# What a run leads to

A relation between worlds that is reflexive and transitive holds between the worlds before and
after a computation as soon as it holds for every primitive step of it.  `RunM.Leads` is this
relation for one computation.  `RunM.Ends` looks at the fault as well that ends a computation: a
relation that holds along a chain of computations up to the first fault.  The lemmas here lift both
to sequences of computations, from the calls of Git to a checkout, and from the bodies of steps to a
run.
-/

namespace CiRunner

variable {τ α β : Type}

/-- The fault that ended a computation, if one did. -/
def faultOf : Except Fault α → Option Fault
  | .ok _ => none
  | .error e => some e

@[simp] lemma faultOf_ok (a : α) : faultOf (.ok a) = none := rfl

@[simp] lemma faultOf_error (e : Fault) : faultOf (.error e : Except Fault α) = some e := rfl

/-- A computation was ended by a fault. -/
lemma faultOf_eq_some_iff {result : Except Fault α} {e : Fault} :
    faultOf result = some e ↔ result = .error e := by
  cases result <;> simp

/-- A change of the value of a computation does not matter to its fault. -/
@[simp] lemma faultOf_map (f : α → β) (result : Except Fault α) :
    faultOf (result.map f) = faultOf result := by
  cases result <;> rfl

namespace RunM

/-- A computation leads from every world to one that is related to it. -/
def Leads (host : Host τ) (R : World τ → World τ → Prop) (m : RunM τ α) : Prop :=
  ∀ w, R w (m host w).2

/-- A computation leads from every world to one that is related to it by the fault that ended it, if
one did. -/
def Ends (host : Host τ) (Q : Option Fault → World τ → World τ → Prop) (m : RunM τ α) : Prop :=
  ∀ w, Q (faultOf (m host w).1) w (m host w).2

/-- Relations that hold along a chain of computations: it goes on as long as there is no fault. -/
class Chains (Q : Option Fault → World τ → World τ → Prop) : Prop where
  /-- Nothing is done. -/
  refl : ∀ w, Q none w w
  /-- Something is done, and then more up to a fault or the end. -/
  trans : ∀ {fault u v w}, Q none u v → Q fault v w → Q fault u w

/-- A relation that does not look at faults. -/
instance {R : World τ → World τ → Prop} [IsPreorder _ R] : Chains fun _ => R where
  refl := Std.Refl.refl
  trans := trans_of R

variable {host : Host τ} {R : World τ → World τ → Prop}
variable {Q : Option Fault → World τ → World τ → Prop} [Chains Q]

/-- A computation that gives a value ends without a fault. -/
lemma Ends.pure (a : α) : Ends host Q (pure a : RunM τ α) :=
  fun w => Chains.refl w

/-- A computation that looks at the world ends without a fault. -/
lemma Ends.get : Ends host Q (get : RunM τ (World τ)) :=
  fun w => Chains.refl w

omit [Chains Q] in
/-- A message that is taken is an action like any other. -/
lemma Ends.tell {m : Message} (h : Ends host Q (act (.tell m))) : Ends host Q (tell m) := h

/-- One computation after another: the fault of the first one ends both. -/
lemma Ends.bind {m : RunM τ α} {f : α → RunM τ β} (hm : Ends host Q m)
    (hf : ∀ a, Ends host Q (f a)) : Ends host Q (m >>= f) := by
  intro w
  have h := hm w
  rw [bind_apply]
  generalize m host w = ended at h ⊢
  rcases ended with ⟨_ | a, w'⟩
  · exact h
  · exact Chains.trans h (hf a w')

/-- One computation that can fail after another.  A failure is no fault. -/
lemma Ends.run_bind {ε : Type} {m : ExceptT ε (RunM τ) α} {f : α → ExceptT ε (RunM τ) β}
    (hm : Ends host Q m.run) (hf : ∀ a, Ends host Q (f a).run) : Ends host Q (m >>= f).run := by
  rw [ExceptT.run_bind]
  refine hm.bind fun a => ?_
  cases a with
  | ok a => exact hf a
  | error e => exact Ends.pure _

/-- A computation that gives a value leads nowhere else. -/
lemma Leads.pure [Std.Refl R] (a : α) : Leads host R (pure a : RunM τ α) :=
  fun w => Std.Refl.refl w

/-- A computation that looks at the world leads nowhere else. -/
lemma Leads.get [Std.Refl R] : Leads host R (get : RunM τ (World τ)) :=
  fun w => Std.Refl.refl w

/-- A fault leads nowhere else. -/
lemma Leads.throw [Std.Refl R] (e : Fault) : Leads host R (throw e : RunM τ α) :=
  fun w => Std.Refl.refl w

/-- A message that is taken leads where its action leads. -/
lemma Leads.tell {m : Message} (h : Leads host R (act (.tell m))) : Leads host R (tell m) := h

/-- One computation after another leads where the two lead. -/
lemma Leads.bind [IsPreorder _ R] {m : RunM τ α} {f : α → RunM τ β} (hm : Leads host R m)
    (hf : ∀ a, Leads host R (f a)) : Leads host R (m >>= f) :=
  Ends.bind (Q := fun _ => R) hm hf

/-- One computation that can fail after another leads where the two lead. -/
lemma Leads.run_bind [IsPreorder _ R] {ε : Type} {m : ExceptT ε (RunM τ) α}
    {f : α → ExceptT ε (RunM τ) β} (hm : Leads host R m.run) (hf : ∀ a, Leads host R (f a).run) :
    Leads host R (m >>= f).run :=
  Ends.run_bind (Q := fun _ => R) hm hf

end RunM

open RunM

/-! ## Checkouts and warnings -/

section Checkout

variable {host : Host τ} {Q : Option Fault → World τ → World τ → Prop} [Chains Q]
variable {R : World τ → World τ → Prop} [IsPreorder _ R]

/-- Asking whether a directory lies in a working tree ends as that call of Git ends. -/
lemma Git.isWorkTree_ends {directory : String}
    (h : Ends host Q (Git.call ["rev-parse", "--is-inside-work-tree"] (some directory)).run) :
    Ends host Q (Git.isWorkTree directory) := by
  refine h.bind fun answer => ?_
  cases answer with
  | ok answer => exact Ends.pure _
  | error e => exact Ends.pure _

/-- Checking out ends as the calls end with which a reference is checked out, or fetched before. -/
lemma Git.checkout_ends {reference directory : String}
    (hdetach : Ends host Q (Git.call ["checkout", "--quiet", "--detach", reference]
      (some directory)).run)
    (hfetch : Ends host Q (Git.call ["fetch", "--quiet", "origin", reference] (some directory)).run)
    (hhead : Ends host Q (Git.call ["checkout", "--quiet", "--detach", "FETCH_HEAD"]
      (some directory)).run) :
    Ends host Q (Git.checkout reference directory).run := by
  have detach_ends : ∀ ref, Ends host Q
      (Git.call ["checkout", "--quiet", "--detach", ref] (some directory)).run →
      Ends host Q (Git.detach ref directory).run :=
    fun ref href => href.run_bind fun _ => Ends.pure _
  refine (detach_ends _ hdetach).bind fun answer => ?_
  rcases answer with (_ | ⟨_, _, _⟩) | _
  · exact Ends.pure _
  · exact hfetch.run_bind fun _ => detach_ends _ hhead
  · exact Ends.pure _

namespace Checkout

/-- The calls of Git that a checkout can make, with their directories. -/
def calls (ws : Workspace) (s : Step) : List (List String × Option String) :=
  if ws.isolated then
    [(["clone", "--no-checkout", "--quiet", ws.source, ws.place.text], none),
      (["checkout", "--quiet", "--detach", reference ws s], some ws.place.text),
      (["fetch", "--quiet", "origin", reference ws s], some ws.place.text),
      (["checkout", "--quiet", "--detach", "FETCH_HEAD"], some ws.place.text)]
  else [(["rev-parse", "--is-inside-work-tree"], some ws.place.text)]

/-- Cloning and checking out ends as its calls of Git end. -/
lemma clone_ends {ws : Workspace} {s : Step} (hi : ws.isolated = true)
    (h : ∀ c ∈ calls ws s, Ends host Q (Git.call c.1 c.2).run) :
    Ends host Q (clone ws (reference ws s)).run := by
  simp only [calls, hi, if_true, List.forall_mem_cons] at h
  obtain ⟨hclone, hdetach, hfetch, hhead, -⟩ := h
  refine (hclone.run_bind fun _ => Ends.pure _).run_bind fun _ => ?_
  exact Git.checkout_ends hdetach hfetch hhead

/-- A checkout ends as its calls of Git end. -/
lemma perform_ends {ws : Workspace} {s : Step}
    (h : ∀ c ∈ calls ws s, Ends host Q (Git.call c.1 c.2).run) :
    Ends host Q (perform ws s) := by
  unfold perform
  cases hi : ws.isolated with
  | true =>
    refine (clone_ends hi h).bind fun answer => ?_
    cases answer with
    | ok _ => exact Ends.pure _
    | error e => exact Ends.pure _
  | false =>
    simp only [calls, hi, Bool.false_eq_true, if_false, List.forall_mem_cons] at h
    refine Ends.get.bind fun w => ?_
    split
    · exact Ends.pure _
    · refine (Git.isWorkTree_ends h.1).bind fun answer => ?_
      split <;> exact Ends.pure _

/-- A checkout leads where its calls of Git lead. -/
lemma perform_leads {ws : Workspace} {s : Step}
    (h : ∀ c ∈ calls ws s, Leads host R (Git.call c.1 c.2).run) :
    Leads host R (perform ws s) :=
  perform_ends (Q := fun _ => R) h

end Checkout

/-- What is told of changes that a run does not see. -/
def Trigger.note (place : String) : Message :=
  Console.info ("Note: uncommitted changes in " ++ place ++ " are not part of an isolated run")

/-- The warning about changes that a run does not see ends as two questions to Git end, or it is
broken off since Git is missing after the first of them. -/
lemma Trigger.warnOfChanges_ends {o : RunOptions}
    (hinside : Ends host Q (Git.call ["rev-parse", "--is-inside-work-tree"] (some o.root)).run)
    (hstatus : Ends host Q (Git.call ["status", "--porcelain"] (some o.root)).run)
    (hmissing : ∀ w, Q (some .gitMissing) w w) (hnote : ∀ place, Ends host Q (tell (note place))) :
    Ends host Q (warnOfChanges o) := by
  have hdirty : Ends host Q (Git.isDirty (some o.root) : Git.GitM τ Bool).run :=
    hstatus.run_bind fun _ => Ends.pure _
  have hchanged : Ends host Q (hasLocalChanges o.root) := by
    refine (Git.isWorkTree_ends hinside).bind fun inside => ?_
    split
    · refine hdirty.bind fun answer => ?_
      rcases answer with (_ | _) | _
      · exact hmissing
      · exact Ends.pure _
      · exact Ends.pure _
    · exact Ends.pure _
  unfold warnOfChanges
  split
  · refine hchanged.bind fun changed => ?_
    split
    · exact Ends.bind (fun w => Chains.refl w) fun place => hnote place.text
    · exact Ends.pure _
  · exact Ends.pure _

/-- The warning about changes that a run does not see leads where two questions to Git lead. -/
lemma Trigger.warnOfChanges_leads {o : RunOptions}
    (hinside : Leads host R (Git.call ["rev-parse", "--is-inside-work-tree"] (some o.root)).run)
    (hstatus : Leads host R (Git.call ["status", "--porcelain"] (some o.root)).run)
    (htell : ∀ m, Leads host R (tell m)) : Leads host R (warnOfChanges o) :=
  warnOfChanges_ends (Q := fun _ => R) hinside hstatus (fun w => Std.Refl.refl w)
    fun _ => htell _

end Checkout

/-! ## Steps, jobs and runs -/

section Runs

variable [Streams]

/-- What a run says of itself, by telling the user something and by marking where a step begins and
where it ends, keeps to a relation. -/
structure RunM.Remarks (host : Host τ) (Q : Option Fault → World τ → World τ → Prop) : Prop where
  /-- Something is told to the user. -/
  tell : ∀ m, Ends host Q (tell m)
  /-- A step begins. -/
  beginStep : ∀ job step time, Ends host Q (act (.beginStep job step time))
  /-- A step ends. -/
  endStep : ∀ r time, Ends host Q (act (.endStep r time))

/-- What a run says of itself on a console keeps to a relation, message by message.  Of other
messages nothing is asked. -/
structure RunM.Reports (host : Host τ) (Q : Option Fault → World τ → World τ → Prop)
    (c : Console) : Prop where
  /-- It is told that the run starts. -/
  runStarted : ∀ name e steps, Ends host Q (tell (Console.runStarted name e steps))
  /-- It is told that a job starts. -/
  jobStarted : ∀ name runsOn, Ends host Q (tell (Console.jobStarted name runsOn))
  /-- It is told that a step starts. -/
  stepStarted : ∀ name display, Ends host Q (tell (c.stepStarted name display))
  /-- It is told how a step ended. -/
  stepFinished : ∀ r, Ends host Q (tell (c.stepFinished r))
  /-- A step begins. -/
  beginStep : ∀ job step time, Ends host Q (act (.beginStep job step time))
  /-- A step ends. -/
  endStep : ∀ r time, Ends host Q (act (.endStep r time))

/-- If all messages keep to a relation, those of a run do. -/
lemma RunM.Remarks.reports {host : Host τ} {Q : Option Fault → World τ → World τ → Prop}
    (h : Remarks host Q) (c : Console) : Reports host Q c where
  runStarted _ _ _ := h.tell _
  jobStarted _ _ := h.tell _
  stepStarted _ _ := h.tell _
  stepFinished _ := h.tell _
  beginStep := h.beginStep
  endStep := h.endStep

namespace Sequence

/-- The action of a step ends as the calls of Git end that it can make, and tells what was done. -/
lemma runAction_ends {host : Host τ} {Q : Option Fault → World τ → World τ → Prop} [Chains Q]
    {ws : Workspace} {step : Step} (hcalls : Checkout.isCheckout step = true →
      ∀ call ∈ Checkout.calls ws step, Ends host Q (Git.call call.1 call.2).run)
    (htell : ∀ m, Ends host Q (tell m)) (job : Job) : Ends host Q (runAction ws job step) := by
  unfold runAction
  split
  · refine (Checkout.perform_ends (hcalls ‹_›)).bind fun answer => ?_
    cases answer with
    | ok done => exact (htell _).bind fun _ => Ends.pure _
    | error message => exact Ends.pure _
  · exact Ends.pure _

/-- The action of a step leads where its calls of Git lead, and what it tells. -/
lemma runAction_leads {host : Host τ} {R : World τ → World τ → Prop} [IsPreorder _ R]
    {ws : Workspace} {step : Step} (hcalls : Checkout.isCheckout step = true →
      ∀ call ∈ Checkout.calls ws step, Leads host R (Git.call call.1 call.2).run)
    (htell : ∀ m, Leads host R (tell m)) (job : Job) : Leads host R (runAction ws job step) :=
  runAction_ends (Q := fun _ => R) hcalls htell job

variable [Timeline τ] {host : Host τ} {Q : Option Fault → World τ → World τ → Prop} [Chains Q]
variable {c : Console} (h : Reports host Q c) (ws : Workspace) (base : Environment) (job : Job)

include h

/-- A step ends as its body ends. -/
lemma runStep_ends {step : Step} (hbody : ∀ limit, Ends host Q (runBody c ws base job step limit))
    (deadline : Option τ) : Ends host Q (runStep c ws base job deadline step) := by
  have hclock : Ends host Q clock := fun w => Chains.refl w
  refine (h.stepStarted _ _).bind fun _ => hclock.bind fun _ => (h.beginStep _ _ _).bind fun _ => ?_
  refine (hbody _).bind fun _ => hclock.bind fun _ => (h.endStep _ _).bind fun _ => ?_
  exact (h.stepFinished _).bind fun _ => Ends.pure _

/-- The steps of a job end as their bodies end. -/
lemma runSteps_ends {steps : List Step}
    (hbody : ∀ step ∈ steps, ∀ limit, Ends host Q (runBody c ws base job step limit))
    (deadline : Option τ) : Ends host Q (runSteps c ws base job deadline steps) := by
  induction steps with
  | nil => exact Ends.pure _
  | cons step rest ih =>
    obtain ⟨hstep, hrest⟩ := List.forall_mem_cons.mp hbody
    refine (runStep_ends h ws base job hstep deadline).bind fun r => ?_
    split
    · exact Ends.pure _
    · exact (ih hrest).bind fun _ => Ends.pure _

/-- Jobs end as the bodies of their steps end. -/
lemma runJobs_ends {jobs : List Job} (hbody : ∀ job ∈ jobs, ∀ step ∈ job.steps, ∀ limit,
    Ends host Q (runBody c ws base job step limit)) :
    Ends host Q (runJobs c ws base jobs) := by
  induction jobs with
  | nil => exact Ends.pure _
  | cons job rest ih =>
    obtain ⟨hjob, hrest⟩ := List.forall_mem_cons.mp hbody
    have hrun : Ends host Q (runJob c ws base job) :=
      (h.jobStarted _ _).bind fun _ => Ends.bind (fun w => Chains.refl w) fun _ =>
        runSteps_ends h ws base job hjob _
    refine hrun.bind fun _ => ?_
    split
    · exact Ends.pure _
    · exact (ih hrest).bind fun _ => Ends.pure _

/-- A run ends as the bodies of its steps end. -/
theorem run_ends {wf : Workflow} {e : Event} (hbody : ∀ job ∈ wf.jobs, ∀ step ∈ job.steps,
    ∀ limit, Ends host Q (runBody c ws (runVariables wf e ws.place) job step limit)) :
    Ends host Q (run c wf e ws) :=
  (h.runStarted _ _ _).bind fun _ => (runJobs_ends h ws _ hbody).bind fun _ => Ends.pure _

end Sequence

end Runs

end CiRunner
