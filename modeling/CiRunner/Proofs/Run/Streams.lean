import CiRunner.Proofs.Run.Headings

/-!
# Where a run speaks

A run tells its user everything on the standard output.  Only the remarks that a console shows with
details go to the standard error, which is otherwise left to what ends the program.
-/

namespace CiRunner

open RunM

variable {τ : Type}

/-- An action tells nothing on the standard error but a remark. -/
def Action.IsUsual (c : Console) : Action τ → Prop
  | tell m => m.stream = .out ∨ ∃ text, m = c.remark text
  | _ => True

variable {c : Console}

/-- Actions other than messages tell nothing. -/
lemma Action.isUsual_of_isTell {a : Action τ} (h : a.isTell = false) : a.IsUsual c := by
  cases a with
  | tell => cases h
  | _ => trivial

/-- How a step ended is told on the standard output. -/
lemma Console.stream_stepFinished (c : Console) (r : StepResult) :
    (c.stepFinished r).stream = .out := by
  unfold stepFinished
  split <;> rfl

section Runs

variable [Timeline τ] (host : Host τ) (c : Console)

omit [Timeline τ] in
/-- What a run says of itself is told on the standard output. -/
lemma Sequence.reports_isUsual : Reports host (fun _ => World.Adds (Action.IsUsual c)) c where
  runStarted _ _ _ := tell_adds (Or.inl rfl)
  jobStarted _ _ := tell_adds (Or.inl rfl)
  stepStarted _ _ := tell_adds (Or.inl rfl)
  stepFinished r := tell_adds (Or.inl (c.stream_stepFinished r))
  beginStep _ _ _ := act_adds trivial
  endStep _ _ := act_adds trivial

/-- So is the output of its programs. -/
lemma Sequence.run_isUsual (ws : Workspace) (wf : Workflow) (e : Event) :
    Leads host (World.Adds (Action.IsUsual c)) (run c wf e ws) :=
  run_ends (reports_isUsual host c) ws fun job _ step _ =>
    runBody_adds (fun _ => Action.isUsual_of_isTell) (fun _ _ => Or.inl rfl)
      (fun _ _ _ => Or.inl rfl) ws _ job step

omit [Timeline τ] in
/-- Around a run there are remarks as well. -/
lemma Trigger.encloses_isUsual :
    Encloses c host fun _ => World.Adds (Action.IsUsual c) where
  broken _ w := Std.Refl.refl (r := World.Adds _) w
  git args directory w := (Git.call_adds_git host args directory w).mono fun _ ha =>
    Action.isUsual_of_isTell (Action.kinds_of_isGit ha).1
  note _ := tell_adds (Or.inl rfl)
  remark text := tell_adds (Or.inr ⟨text, rfl⟩)
  opened _ _ _ :=
    ⟨[.makeTemporary _], World.did_actions .., List.forall_mem_singleton.mpr trivial⟩
  closed place h := trans_of (World.Adds _) h
    ⟨[.removeTemporary place], World.did_actions .., List.forall_mem_singleton.mpr trivial⟩

/-- A trigger tells nothing on the standard error but remarks. -/
theorem Trigger.trigger_isUsual (wf : Workflow) (e : Event) (o : RunOptions) :
    Leads host (World.Adds (Action.IsUsual c)) (trigger c wf e o) := by
  have hstart : Leads host (World.Adds (Action.IsUsual c)) (start c wf e o) := by
    have hstage : Leads host (World.Adds (Action.IsUsual c)) (stage c wf e o) :=
      (encloses_isUsual host c).stage_ends (fun ws => Sequence.run_isUsual host c ws wf e) o
    rw [start_eq]
    exact hstage.bind fun r =>
      Leads.bind (tell_adds (Or.inl rfl) : Leads host _ (tell (Console.results r))) fun _ =>
        Leads.pure r
  intro w
  rcases trigger_cases c wf e host o w with ⟨fault, -, heq⟩ | ⟨-, -, heq⟩ | ⟨-, heq⟩
  all_goals rw [heq]
  · exact Std.Refl.refl (r := World.Adds _) w
  · exact World.adds_did (Or.inl rfl) w
  · exact hstart w

end Runs

end CiRunner
