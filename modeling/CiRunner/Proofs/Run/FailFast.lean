import CiRunner.Proofs.Run.StepLog

/-!
# Runs stop at the first failure

A run goes through the steps of its workflow in their order.  As long as they succeed the next one
is begun; the first one that fails is the last one that is begun, and all steps after it are
recorded as skipped.  `FailFast` states this of the results and the deeds together: the deeds come
in parts, one for each step that was begun, so that a skipped step has no part.

The relation is proved of the steps of a job, of the jobs and of the run by following the recursion,
and everything else is read off it.  Here it is the order in which things are done; what the results
look like is left to the next file.
-/

namespace CiRunner

variable {τ : Type}

/-! ## Steps, results and deeds -/

/-- The results of steps that are not started. -/
def skipAll (steps : List (Job × Step)) : List StepResult :=
  steps.map fun p => Sequence.skipped p.1 p.2

/-- The results of running steps one after another, and the deeds of each step that was begun. -/
inductive FailFast (host : Host τ) (ws : Workspace) :
    List (Job × Step) → Except Fault (List StepResult) → List (List (Action τ)) → Prop
  /-- There is no step left. -/
  | finished : FailFast host ws [] (.ok []) []
  /-- A step succeeds and the others follow. -/
  | success {job : Job} {step : Step} {r : StepResult} {part : List (Action τ)}
      {rest : List (Job × Step)} {result : Except Fault (List StepResult)}
      {parts : List (List (Action τ))} (hstep : StepLog host ws job step (some r) part)
      (hr : r.status = .success) (hrest : FailFast host ws rest result parts) :
      FailFast host ws ((job, step) :: rest) (result.map (r :: ·)) (part :: parts)
  /-- A step fails and the others are skipped. -/
  | failure {job : Job} {step : Step} {r : StepResult} {part : List (Action τ)}
      {rest : List (Job × Step)} (hstep : StepLog host ws job step (some r) part)
      (hr : r.status = .failure) :
      FailFast host ws ((job, step) :: rest) (.ok (r :: skipAll rest)) [part]
  /-- A step is broken off by a fault, which ends the run. -/
  | fault {job : Job} {step : Step} {part : List (Action τ)} {rest : List (Job × Step)} {e : Fault}
      (hstep : StepLog host ws job step none part) :
      FailFast host ws ((job, step) :: rest) (.error e) [part]

namespace FailFast

variable {host : Host τ} {ws : Workspace} {steps more : List (Job × Step)}
variable {parts : List (List (Action τ))}

/-! ### More steps

Steps that are put after others are run if none of those fails, skipped if one fails, and left alone
if a fault ends the run. -/

/-- Steps after steps that succeed are run. -/
lemma append_of_success {results : List StepResult} {result : Except Fault (List StepResult)}
    {others : List (List (Action τ))} (h : FailFast host ws steps (.ok results) parts)
    (hnone : ∀ r ∈ results, r.status ≠ .failure) (hmore : FailFast host ws more result others) :
    FailFast host ws (steps ++ more) (result.map (results ++ ·)) (parts ++ others) := by
  generalize hok : Except.ok results = ended at h
  induction h generalizing results with
  | finished =>
    cases hok
    have hid : result.map ([] ++ ·) = result := by cases result <;> rfl
    rw [hid]
    exact hmore
  | @success job step r part rest result' parts hstep hr hrest ih =>
    cases result' with
    | error e => cases hok
    | ok tail =>
      cases hok
      have hrec := ih (fun x hx => hnone x (List.mem_cons_of_mem _ hx)) rfl
      have hmap : (result.map (tail ++ ·)).map (r :: ·) = result.map ((r :: tail) ++ ·) := by
        cases result <;> rfl
      rw [← hmap]
      exact .success hstep hr hrec
  | failure hstep hr =>
    cases hok
    exact absurd hr (hnone _ List.mem_cons_self)
  | fault hstep => cases hok

/-- Steps after a step that fails are skipped. -/
lemma append_of_failure {results : List StepResult} (h : FailFast host ws steps (.ok results) parts)
    (hsome : ∃ r ∈ results, r.status = .failure) (more : List (Job × Step)) :
    FailFast host ws (steps ++ more) (.ok (results ++ skipAll more)) parts := by
  generalize hok : Except.ok results = ended at h
  induction h generalizing results with
  | finished =>
    cases hok
    obtain ⟨r, hr, -⟩ := hsome
    cases hr
  | @success job step r part rest result parts hstep hr hrest ih =>
    cases result with
    | error e => cases hok
    | ok tail =>
      cases hok
      have htail : ∃ x ∈ tail, x.status = .failure := by
        obtain ⟨x, hx, hfailure⟩ := hsome
        rcases List.mem_cons.mp hx with rfl | hx
        · rw [hr] at hfailure
          cases hfailure
        · exact ⟨x, hx, hfailure⟩
      exact .success hstep hr (ih htail rfl)
  | @failure job step r part rest hstep hr =>
    cases hok
    have hskip : (r :: skipAll rest) ++ skipAll more = r :: skipAll (rest ++ more) := by
      simp [skipAll]
    rw [hskip]
    exact .failure hstep hr
  | fault hstep => cases hok

/-- Steps after a fault are left alone. -/
lemma append_of_fault {e : Fault} (h : FailFast host ws steps (.error e) parts)
    (more : List (Job × Step)) : FailFast host ws (steps ++ more) (.error e) parts := by
  generalize herr : Except.error e = ended at h
  induction h with
  | finished => cases herr
  | @success job step r part rest result parts hstep hr hrest ih =>
    cases result with
    | error e' =>
      cases herr
      exact .success hstep hr (ih rfl)
    | ok tail => cases herr
  | failure hstep hr => cases herr
  | fault hstep =>
    cases herr
    exact .fault hstep

end FailFast

/-! ## Runs are fail-fast -/

/-- A computation runs steps up to the first that fails, whatever happened before. -/
def RunM.FailsFast (host : Host τ) (ws : Workspace) (steps : List (Job × Step))
    (m : RunM τ (List StepResult)) : Prop :=
  ∀ w, ∃ log parts, (m host w).2.actions.toList = w.actions.toList ++ log ∧
    deeds log = parts.flatten ∧ FailFast host ws steps (m host w).1 parts

namespace Sequence

variable [Timeline τ] (c : Console) (host : Host τ) (ws : Workspace) (base : Environment)

/-- The steps of a job are run up to the first that fails. -/
theorem runSteps_failsFast (job : Job) (deadline : Option τ) (steps : List Step) :
    RunM.FailsFast host ws (steps.map fun s => (job, s))
      (runSteps c ws base job deadline steps) := by
  induction steps with
  | nil => exact fun w => ⟨[], [], by simp [runSteps], rfl, .finished⟩
  | cons step rest ih =>
    intro w
    obtain ⟨log, hlog, hstep⟩ := runStep_log c ws base job deadline step host w
    rw [runSteps_cons]
    rcases hrun : runStep c ws base job deadline step host w with ⟨e | r, w'⟩
    all_goals
      rw [hrun] at hlog hstep
      dsimp only [Except.toOption] at hlog hstep ⊢
    · exact ⟨log, [deeds log], hlog, by simp, .fault hstep⟩
    rcases hstep.status_eq with hr | hr
    · have hgo : ¬isFailure r = true := by simp [isFailure, hr]
      rw [if_neg hgo]
      obtain ⟨others, parts, hothers, hparts, hrest⟩ := ih w'
      refine ⟨log ++ others, deeds log :: parts, ?_, by simp [hparts], .success hstep hr hrest⟩
      rw [hothers, hlog, List.append_assoc]
    · have hstop : isFailure r = true := by simp [isFailure, hr]
      have hskip : rest.map (skipped job) = skipAll (rest.map fun s => (job, s)) := by
        simp [skipAll, Function.comp_def]
      rw [if_pos hstop, hskip]
      exact ⟨log, [deeds log], hlog, by simp, .failure hstep hr⟩

/-- A job is run up to the first step that fails. -/
lemma runJob_failsFast (job : Job) :
    RunM.FailsFast host ws (job.steps.map fun s => (job, s)) (runJob c ws base job) := by
  intro w
  rw [runJob_eq]
  obtain ⟨log, parts, hlog, hparts, hsteps⟩ := runSteps_failsFast c host ws base job
    (job.timeoutMinutes.map fun m => Timeline.plus w.clock (Timeline.ofMinutes m)) job.steps
    (w.did [.tell (Console.jobStarted job.name job.runsOn)])
  rw [World.did_actions, List.append_assoc] at hlog
  exact ⟨_, parts, hlog, hparts, hsteps⟩

/-- Jobs are run up to the first step that fails, in whichever job it is. -/
theorem runJobs_failsFast (jobs : List Job) :
    RunM.FailsFast host ws (jobs.flatMap fun j => j.steps.map fun s => (j, s))
      (runJobs c ws base jobs) := by
  induction jobs with
  | nil => exact fun w => ⟨[], [], by simp [runJobs], rfl, .finished⟩
  | cons job rest ih =>
    intro w
    obtain ⟨log, parts, hlog, hparts, hjob⟩ := runJob_failsFast c host ws base job w
    rw [runJobs_cons, List.flatMap_cons]
    rcases hrun : runJob c ws base job host w with ⟨e | rs, w'⟩
    all_goals
      rw [hrun] at hlog hjob
      dsimp only at hlog hjob ⊢
    · exact ⟨log, parts, hlog, hparts, hjob.append_of_fault _⟩
    by_cases hfailure : rs.any isFailure = true
    · have hskip : (rest.flatMap fun j => j.steps.map (skipped j)) =
          skipAll (rest.flatMap fun j => j.steps.map fun s => (j, s)) := by
        simp [skipAll, List.map_flatMap, Function.comp_def]
      rw [if_pos hfailure, hskip]
      exact ⟨log, parts, hlog, hparts, hjob.append_of_failure (any_isFailure_iff.mp hfailure) _⟩
    · rw [if_neg hfailure]
      obtain ⟨more, others, hmore, hothers, hrest⟩ := ih w'
      have hnone : ∀ r ∈ rs, r.status ≠ .failure := fun r hr hstatus =>
        hfailure (any_isFailure_iff.mpr ⟨r, hr, hstatus⟩)
      refine ⟨log ++ more, parts ++ others, ?_, by simp [hparts, hothers],
        hjob.append_of_success hnone hrest⟩
      rw [hmore, hlog, List.append_assoc]

/-- A run stops at the first step that fails. -/
theorem run_failFast (wf : Workflow) (e : Event) (w : World τ) :
    ∃ log parts, (run c wf e ws host w).2.actions.toList = w.actions.toList ++ log ∧
      deeds log = parts.flatten ∧
      FailFast host ws wf.steps ((run c wf e ws host w).1.map RunResult.steps) parts := by
  rw [run_eq]
  obtain ⟨log, parts, hlog, hparts, hjobs⟩ := runJobs_failsFast c host ws
    (runVariables wf e ws.place) wf.jobs
    (w.did [.tell (Console.runStarted wf.name e wf.steps.length)])
  rw [World.did_actions, List.append_assoc] at hlog
  refine ⟨_, parts, hlog, hparts, ?_⟩
  generalize (runJobs c ws (runVariables wf e ws.place) wf.jobs host
    (w.did [.tell (Console.runStarted wf.name e wf.steps.length)])).1 = result at hjobs ⊢
  cases result with
  | error fault => exact hjobs
  | ok results => exact hjobs

end Sequence

/-! ## The order of the deeds -/

namespace FailFast

variable {host : Host τ} {ws : Workspace} {steps : List (Job × Step)}
variable {parts : List (List (Action τ))}

/-- When a step is begun, the steps before it have succeeded, each with its part of the deeds. -/
lemma begun_after_success {result : Except Fault (List StepResult)}
    (h : FailFast host ws steps result parts) {before after : List (List (Action τ))}
    {part : List (Action τ)} (hparts : parts = before ++ part :: after) :
    ∃ done job step rest r, steps = done ++ (job, step) :: rest ∧
      StepLog host ws job step r part ∧
      List.Forall₂ (fun p earlier => ∃ r, StepLog host ws p.1 p.2 (some r) earlier ∧
        r.status = .success) done before := by
  induction h generalizing before with
  | finished => simp at hparts
  | @success job step r first rest result parts hstep hr hrest ih =>
    rcases before with _ | ⟨earlier, before⟩
    · obtain ⟨rfl, -⟩ := List.cons_eq_cons.mp hparts
      exact ⟨[], job, step, rest, some r, rfl, hstep, .nil⟩
    · obtain ⟨rfl, htail⟩ := List.cons_eq_cons.mp hparts
      obtain ⟨done, job', step', rest', r', rfl, hpart, hdone⟩ := ih htail
      exact ⟨(job, step) :: done, job', step', rest', r', rfl, hpart, .cons ⟨r, hstep, hr⟩ hdone⟩
  | @failure job step r only rest hstep hr =>
    obtain ⟨rfl, hpart⟩ | ⟨-, hpart⟩ := List.singleton_eq_append_iff.mp hparts <;> cases hpart
    exact ⟨[], job, step, rest, some r, rfl, hstep, .nil⟩
  | @fault job step only rest e hstep =>
    obtain ⟨rfl, hpart⟩ | ⟨-, hpart⟩ := List.singleton_eq_append_iff.mp hparts <;> cases hpart
    exact ⟨[], job, step, rest, none, rfl, hstep, .nil⟩

/-- The steps that are skipped are those that have no part of the deeds. -/
lemma status_eq_skipped_iff {results : List StepResult}
    (h : FailFast host ws steps (.ok results) parts) {k : ℕ} {r : StepResult}
    (hk : results[k]? = some r) : r.status = .skipped ↔ parts.length ≤ k := by
  generalize hok : Except.ok results = ended at h
  induction h generalizing results k with
  | finished =>
    cases hok
    simp at hk
  | @success job step first part rest result parts hstep hr hrest ih =>
    cases result with
    | error e => cases hok
    | ok tail =>
      cases hok
      cases k with
      | zero =>
        cases hk
        simp [hr]
      | succ k =>
        rw [List.length_cons, Nat.succ_le_succ_iff]
        exact ih hk rfl
  | @failure job step first part rest hstep hr =>
    cases hok
    cases k with
    | zero =>
      cases hk
      simp [hr]
    | succ k =>
      have hmem : r ∈ skipAll rest := List.mem_of_getElem? (i := k) hk
      obtain ⟨p, -, rfl⟩ := List.mem_map.mp hmem
      simp [Sequence.skipped]
  | fault hstep => cases hok

/-- If no step fails, all steps succeed, each with its part of the deeds. -/
lemma all_succeed {results : List StepResult} (h : FailFast host ws steps (.ok results) parts)
    (hnone : ∀ r ∈ results, r.status ≠ .failure) :
    (∀ r ∈ results, r.status = .success) ∧
      List.Forall₂ (fun p part => ∃ r, StepLog host ws p.1 p.2 (some r) part ∧
        r.status = .success) steps parts := by
  generalize hok : Except.ok results = ended at h
  induction h generalizing results with
  | finished =>
    cases hok
    exact ⟨List.forall_mem_nil _, .nil⟩
  | @success job step r part rest result parts hstep hr hrest ih =>
    cases result with
    | error e => cases hok
    | ok tail =>
      cases hok
      obtain ⟨-, htail⟩ := List.forall_mem_cons.mp hnone
      obtain ⟨hall, hparts⟩ := ih htail rfl
      exact ⟨List.forall_mem_cons.mpr ⟨hr, hall⟩, .cons ⟨r, hstep, hr⟩ hparts⟩
  | failure hstep hr =>
    cases hok
    exact absurd hr (hnone _ List.mem_cons_self)
  | fault hstep => cases hok

end FailFast

/-- Steps are begun in order and only after success.  The deeds of a run come in parts, one for each
step that was begun: whenever a part comes up, the steps before that of the part have succeeded,
with the parts before it as the evidence, and a step is recorded as skipped exactly if it has no
part. -/
theorem run_begun_after_success [Timeline τ] (c : Console) (wf : Workflow) (e : Event)
    (ws : Workspace) (host : Host τ) (w : World τ) :
    ∃ log parts, (Sequence.run c wf e ws host w).2.actions.toList = w.actions.toList ++ log ∧
      deeds log = parts.flatten ∧
      (∀ before part after, parts = before ++ part :: after →
        ∃ done job step rest r, wf.steps = done ++ (job, step) :: rest ∧
          StepLog host ws job step r part ∧
          List.Forall₂ (fun p earlier => ∃ r, StepLog host ws p.1 p.2 (some r) earlier ∧
            r.status = .success) done before) ∧
      ∀ result, (Sequence.run c wf e ws host w).1 = .ok result → ∀ (k : ℕ) (r : StepResult),
        result.steps[k]? = some r → (r.status = .skipped ↔ parts.length ≤ k) := by
  obtain ⟨log, parts, hlog, hparts, hrun⟩ := Sequence.run_failFast c host ws wf e w
  refine ⟨log, parts, hlog, hparts, fun before part after => hrun.begun_after_success, ?_⟩
  intro result hresult k r hk
  rw [hresult] at hrun
  exact hrun.status_eq_skipped_iff hk

end CiRunner
