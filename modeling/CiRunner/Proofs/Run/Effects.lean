import CiRunner.Proofs.Run.Preservation
import CiRunner.Proofs.Run.StepLog

/-!
# How a run changes the files

A run changes no files by itself: its commands and its calls of Git do, each from the directory it
is given.  So if each of these changes keeps to a relation between file trees that is reflexive and
transitive, the whole run does, however it ends.  On the way no temporary directory is made or
removed, which is left to whoever provides the working tree.
-/

namespace CiRunner

variable {τ α β : Type}

/-- Whether an action makes or removes a temporary directory. -/
def Action.isTemporary : Action τ → Bool
  | makeTemporary _ => true
  | removeTemporary _ => true
  | _ => false

/-- Follow-ups of a process and what is told are not about temporary directories. -/
lemma Action.isTemporary_of_isTell_or_isFollowUp {a : Action τ}
    (h : a.isTell = true ∨ a.isFollowUp = true) : a.isTemporary = false := by
  cases a <;> simp_all [isTell, isFollowUp, isTemporary]

/-- The files change according to a relation, and no temporary directory is made or removed. -/
def World.Proceeds (T : FileTree → FileTree → Prop) (w w' : World τ) : Prop :=
  T w.tree w'.tree ∧ World.Adds (fun a => a.isTemporary = false) w w'

section

variable {T : FileTree → FileTree → Prop} [IsPreorder FileTree T]

instance : IsPreorder (World τ) (World.Proceeds T) where
  refl w := ⟨Std.Refl.refl _, Std.Refl.refl (r := World.Adds fun a => a.isTemporary = false) w⟩
  trans _ _ _ h h' := ⟨trans_of T h.1 h'.1, trans_of (World.Adds _) h.2 h'.2⟩

omit [IsPreorder FileTree T] in
/-- Actions that are not about temporary directories change no files. -/
lemma World.proceeds_did {log : List (Action τ)} (h : ∀ a ∈ log, a.isTemporary = false)
    {w w' : World τ} (htree : T w.tree w'.tree) (hactions : w'.actions = w.actions) :
    World.Proceeds T w (w'.did log) :=
  ⟨htree, log, by rw [World.did_actions, hactions], h⟩

namespace RunM

variable {host : Host τ}

/-- An action that is not about a temporary directory. -/
lemma act_proceeds {a : Action τ} (h : a.isTemporary = false) :
    Leads host (World.Proceeds T) (act a) :=
  fun _ => World.proceeds_did (List.forall_mem_singleton.mpr h) (Std.Refl.refl _) rfl

/-- Looking at the host. -/
lemma read_leads {R : World τ → World τ → Prop} [Std.Refl R] :
    Leads host R (read : RunM τ (Host τ)) :=
  fun w => Std.Refl.refl w

end RunM

open RunM

/-! ## One call and one command -/

/-- A call of Git changes the files as its answers do. -/
lemma Git.call_proceeds {host : Host τ} {args : List String} {directory : Option String}
    (h : ∀ n reply, host.git n args = some reply →
      ∀ t, T t (reply.changes (Git.placeOf host args directory) t)) :
    Leads host (World.Proceeds T) (Git.call args directory).run := by
  intro w
  rw [Git.call_eq]
  cases hreply : host.git w.gitCalls args with
  | none => exact World.proceeds_did (by simp [Action.isTemporary]) (Std.Refl.refl _) rfl
  | some reply =>
    exact World.proceeds_did (by simp [Action.isTemporary]) (h _ _ hreply w.tree) rfl

variable [Timeline τ]

/-- A command changes the files as programs do from its directory. -/
lemma Command.execute_proceeds {host : Host τ} {directory : Location}
    (h : ∀ n t, T t ((host.program n).changes directory t)) (c : Console) (job : Job)
    (step : Step) (env : Environment) (limit : Option τ) :
    Leads host (World.Proceeds T) (Command.execute c job step directory env limit) := by
  intro w
  cases hwords : Command.shellWords? step.shell with
  | none =>
    rw [Command.execute_unknownShell _ _ _ _ _ _ hwords]
    exact Std.Refl.refl w
  | some words =>
    cases hm : (host.program w.attempts).missing with
    | true =>
      rw [Command.execute_missing _ _ _ _ _ _ hwords hm]
      exact ⟨Std.Refl.refl _, [], by simp, by simp⟩
    | false =>
      rw [Command.execute_started _ _ _ _ _ _ hwords rfl hm]
      refine World.proceeds_did (fun a ha => ?_) (h _ w.tree) rfl
      rcases List.mem_cons.mp ha with rfl | ha
      · rfl
      · exact Action.isTemporary_of_isTell_or_isFollowUp
          (Command.isTell_or_isFollowUp_of_mem_trace ha)

/-! ## Steps, jobs and runs -/

/-- Whatever a step can do in a working tree changes the files according to a relation. -/
structure Step.KeepsTo (T : FileTree → FileTree → Prop) (host : Host τ) (ws : Workspace)
    (step : Step) : Prop where
  /-- The changes that programs make from its directory. -/
  program : step.isAction = false → ∀ directory,
    Sequence.directoryOf ws.place step.cwd = .ok directory →
      ∀ n t, T t ((host.program n).changes directory t)
  /-- The changes that the calls of Git make. -/
  git : ∀ call ∈ Checkout.calls ws step, ∀ n reply, host.git n call.1 = some reply →
    ∀ t, T t (reply.changes (Git.placeOf host call.1 call.2) t)

namespace Sequence

variable {host : Host τ} {ws : Workspace}

omit [Timeline τ] in
/-- The action of a step keeps to what the step keeps to. -/
lemma runAction_proceeds {step : Step} (h : step.KeepsTo T host ws) (job : Job) :
    Leads host (World.Proceeds T) (runAction ws job step) :=
  runAction_leads (fun _ call hcall => Git.call_proceeds (h.git call hcall))
    (fun _ => act_proceeds rfl) job

variable (c : Console) (base : Environment)

/-- The body of a step keeps to what the step keeps to. -/
lemma runBody_proceeds {step : Step} (h : step.KeepsTo T host ws) (job : Job)
    (limit : Option τ) : Leads host (World.Proceeds T) (runBody c ws base job step limit) := by
  unfold runBody
  by_cases hstep : step.isAction = true
  · rw [if_pos hstep]
    exact runAction_proceeds h job
  rw [if_neg hstep, runCommand]
  cases hd : directoryOf ws.place step.cwd with
  | error fault => exact Leads.throw _
  | ok directory =>
    refine Leads.get.bind fun w => ?_
    split
    · exact read_leads.bind fun _ => Command.execute_proceeds
        (h.program (Bool.eq_false_iff.mpr hstep) directory hd) c job step _ limit
    · refine read_leads.bind fun _ => Leads.get.bind fun _ => ?_
      split
      · exact Leads.throw _
      · exact Leads.pure _

/-- A run changes the files as its steps do, and no temporary directory is made or removed. -/
theorem run_proceeds {wf : Workflow} (h : ∀ job ∈ wf.jobs, ∀ step ∈ job.steps,
    step.KeepsTo T host ws) (e : Event) :
    Leads host (World.Proceeds T) (run c wf e ws) :=
  have hremarks : Remarks host fun _ => World.Proceeds T :=
    ⟨fun _ => Ends.tell (act_proceeds rfl), fun _ _ _ => act_proceeds rfl,
      fun _ _ => act_proceeds rfl⟩
  run_ends (hremarks.reports c) ws fun job hjob step hstep =>
    runBody_proceeds c _ (h job hjob step hstep) job

end Sequence

end

end CiRunner
