import CiRunner.Proofs.Run.FailFast

/-!
# What the results of a run look like

A run that comes to its end has one result for each step of the workflow: successes first, then at
most one failure, then only skipped steps.  The other things a result of a run is asked for, its
status, the step that failed and the steps that were started, follow from this shape.
-/

namespace CiRunner

variable {τ : Type}

/-! ## The shape of the results -/

/-- Results that go with steps: successes, at most one failure, and skipped steps after it. -/
structure Stops (steps : List (Job × Step)) (done : List StepResult) (failed : Option StepResult)
    (left : List (Job × Step)) (results : List StepResult) : Prop where
  /-- The results in their order. -/
  results_eq : results = done ++ (failed.toList ++ skipAll left)
  /-- The names are those of the steps. -/
  names : results.map (fun s => (s.job, s.name)) = steps.map fun p => (p.1.name, p.2.name)
  /-- The first steps succeed. -/
  done_success : ∀ s ∈ done, s.status = .success
  /-- The step that fails. -/
  failed_failure : ∀ s, failed = some s → s.status = .failure
  /-- No step is skipped but after a failure. -/
  left_nil : failed = none → left = []

/-- The names of steps that are skipped are kept. -/
@[simp] lemma skipAll_names (steps : List (Job × Step)) :
    (skipAll steps).map (fun s => (s.job, s.name)) = steps.map fun p => (p.1.name, p.2.name) := by
  simp [skipAll, Sequence.skipped, Function.comp_def]

/-- A result of a step that is not started is that of one of the steps. -/
lemma mem_skipAll {steps : List (Job × Step)} {s : StepResult} (h : s ∈ skipAll steps) :
    ∃ job step, s = Sequence.skipped job step := by
  obtain ⟨p, -, rfl⟩ := List.mem_map.mp h
  exact ⟨p.1, p.2, rfl⟩

/-- A step that came to an end is recorded under its own name. -/
lemma StepLog.names {host : Host τ} {ws : Workspace} {job : Job} {step : Step} {r : StepResult}
    {part : List (Action τ)} (h : StepLog host ws job step (some r) part) :
    (r.job, r.name) = (job.name, step.name) := by
  cases h with
  | succeeded hbody hevidence hjob hname hstatus => rw [hjob, hname]
  | failed hbody hjob hname hstatus => rw [hjob, hname]

/-- Results of steps that are run up to the first failure stop there. -/
lemma FailFast.stops {host : Host τ} {ws : Workspace} {steps : List (Job × Step)}
    {results : List StepResult} {parts : List (List (Action τ))}
    (h : FailFast host ws steps (.ok results) parts) :
    ∃ done failed left, Stops steps done failed left results := by
  generalize hok : Except.ok results = ended at h
  induction h generalizing results with
  | finished =>
    cases hok
    exact ⟨[], none, [], rfl, rfl, by simp, by simp, fun _ => rfl⟩
  | @success job step r part rest result parts hstep hr hrest ih =>
    cases result with
    | error e => cases hok
    | ok tail =>
      cases hok
      obtain ⟨done, failed, left, h⟩ := ih rfl
      refine ⟨r :: done, failed, left, ?_, ?_, ?_, h.failed_failure, h.left_nil⟩
      · rw [h.results_eq, List.cons_append]
      · rw [List.map_cons, List.map_cons, h.names, hstep.names]
      · exact List.forall_mem_cons.mpr ⟨hr, h.done_success⟩
  | @failure job step r part rest hstep hr =>
    cases hok
    refine ⟨[], some r, rest, rfl, ?_, by simp, ?_, by simp⟩
    · rw [List.map_cons, List.map_cons, skipAll_names, hstep.names]
    · rintro s ⟨⟩
      exact hr
  | fault hstep => cases hok

/-! ## What follows from the shape -/

namespace Stops

variable {steps left : List (Job × Step)} {done : List StepResult} {failed : Option StepResult}

/-- The statuses are successes, and maybe a failure and skipped steps. -/
lemma statuses {results : List StepResult} (h : Stops steps done failed left results) :
    results.map StepResult.status = .replicate done.length .success ∨
      results.map StepResult.status =
        .replicate done.length .success ++ .failure :: .replicate left.length .skipped := by
  have hdone : done.map StepResult.status = .replicate done.length .success :=
    List.map_eq_replicate_iff.mpr h.done_success
  have hskip : (skipAll left).map StepResult.status = .replicate left.length .skipped := by
    simp [skipAll, Sequence.skipped, Function.comp_def]
  cases failed with
  | none =>
    left
    simp [h.results_eq, h.left_nil rfl, hdone, skipAll]
  | some s =>
    right
    simp [h.results_eq, hdone, hskip, h.failed_failure s rfl]

variable {r : RunResult}

/-- The step that failed is found. -/
lemma failedStep?_eq (h : Stops steps done failed left r.steps) : r.failedStep? = failed := by
  have hdone : done.find? (fun s => s.status == .failure) = none := by
    refine List.find?_eq_none.mpr fun s hs => ?_
    simp [h.done_success s hs]
  rw [RunResult.failedStep?, h.results_eq, List.find?_append, hdone, Option.none_or]
  cases failed with
  | none => simp [h.left_nil rfl, skipAll]
  | some s => simp [h.failed_failure s rfl]

/-- The steps that were started are those up to the failure. -/
lemma executed_eq (h : Stops steps done failed left r.steps) :
    r.executed = done ++ failed.toList := by
  have hdone : done.filter (fun s => s.status != .skipped) = done := by
    refine List.filter_eq_self.mpr fun s hs => ?_
    simp [h.done_success s hs]
  have hfailed : failed.toList.filter (fun s => s.status != .skipped) = failed.toList := by
    refine List.filter_eq_self.mpr fun s hs => ?_
    simp [h.failed_failure s (by simpa using hs)]
  have hskip : (skipAll left).filter (fun s => s.status != .skipped) = [] := by
    refine List.filter_eq_nil_iff.mpr fun s hs => ?_
    obtain ⟨job, step, rfl⟩ := mem_skipAll hs
    simp [Sequence.skipped]
  rw [RunResult.executed, h.results_eq, List.filter_append, List.filter_append, hdone, hfailed,
    hskip, List.append_nil]

/-- A run fails exactly if one of its steps does. -/
lemma status_eq_failure_iff (r : RunResult) :
    r.status = .failure ↔ ∃ s ∈ r.steps, s.status = .failure := by
  unfold RunResult.status
  split
  · rename_i hany
    exact ⟨fun _ => by simpa using hany, fun _ => rfl⟩
  · rename_i hany
    exact ⟨fun h => by simp at h, fun h => absurd (by simpa using h) hany⟩

/-- Outside the failure no step fails. -/
lemma failedStep?_eq_some_iff (h : Stops steps done failed left r.steps) (s : StepResult) :
    r.failedStep? = some s ↔ ∃ before after, r.steps = before ++ s :: after ∧
      s.status = .failure ∧ ∀ x ∈ before ++ after, x.status ≠ .failure := by
  constructor
  · intro hs
    have hfailed : failed = some s := h.failedStep?_eq.symm.trans hs
    refine ⟨done, skipAll left, ?_, h.failed_failure s hfailed, fun x hx => ?_⟩
    · rw [h.results_eq, hfailed, Option.toList_some, List.singleton_append]
    · rcases List.mem_append.mp hx with hx | hx
      · simp [h.done_success x hx]
      · obtain ⟨job, step, rfl⟩ := mem_skipAll hx
        simp [Sequence.skipped]
  · rintro ⟨before, after, hsteps, hs, hothers⟩
    have hbefore : before.find? (fun s => s.status == .failure) = none := by
      refine List.find?_eq_none.mpr fun x hx => ?_
      simpa using hothers x (List.mem_append_left _ hx)
    rw [RunResult.failedStep?, hsteps, List.find?_append, hbefore, Option.none_or]
    simp [hs]

/-- The step that failed was the last that was started. -/
lemma executed_getLast? (h : Stops steps done failed left r.steps) {s : StepResult}
    (hs : r.failedStep? = some s) : r.executed.getLast? = some s := by
  rw [h.executed_eq, h.failedStep?_eq.symm.trans hs]
  simp

/-- A step that is skipped has no outcome. -/
lemma skipped_fields {results : List StepResult} (h : Stops steps done failed left results)
    {s : StepResult} (hs : s ∈ results) (hstatus : s.status = .skipped) :
    s.exitCode = none ∧ s.outputTail = "" ∧ s.error = none ∧ s.hint = none := by
  rw [h.results_eq, List.mem_append, List.mem_append] at hs
  rcases hs with hs | hs | hs
  · simp [h.done_success s hs] at hstatus
  · simp [h.failed_failure s (by simpa using hs)] at hstatus
  · obtain ⟨job, step, rfl⟩ := mem_skipAll hs
    exact ⟨rfl, rfl, rfl, rfl⟩

end Stops

/-! ## The results of a run -/

/-- The results of a run that came to its end: one for each step of the workflow, in order and under
its names; successes, then nothing or one failure and only skipped steps.  So the run fails exactly
if a step does, the step that failed is the only such, the steps that were started come first and
end with it, and skipped steps have no outcome. -/
theorem run_results [Timeline τ] {c : Console} {wf : Workflow} {e : Event} {ws : Workspace}
    {host : Host τ} {w : World τ} {r : RunResult} (h : (Sequence.run c wf e ws host w).1 = .ok r) :
    r.steps.map (fun s => (s.job, s.name)) = wf.steps.map (fun p => (p.1.name, p.2.name)) ∧
    (∃ n m, r.steps.map StepResult.status = .replicate n .success ∨
      r.steps.map StepResult.status =
        .replicate n .success ++ .failure :: .replicate m .skipped) ∧
    (r.status = .failure ↔ ∃ s ∈ r.steps, s.status = .failure) ∧
    (∀ s, r.failedStep? = some s ↔ ∃ before after, r.steps = before ++ s :: after ∧
      s.status = .failure ∧ ∀ x ∈ before ++ after, x.status ≠ .failure) ∧
    r.executed <+: r.steps ∧
    (∀ s, r.failedStep? = some s → r.executed.getLast? = some s) ∧
    ∀ s ∈ r.steps, s.status = .skipped →
      s.exitCode = none ∧ s.outputTail = "" ∧ s.error = none ∧ s.hint = none := by
  obtain ⟨log, parts, -, -, hrun⟩ := Sequence.run_failFast c host ws wf e w
  rw [h] at hrun
  obtain ⟨done, failed, left, hstops⟩ := hrun.stops
  have hprefix : r.executed <+: r.steps := by
    rw [hstops.executed_eq, hstops.results_eq, ← List.append_assoc]
    exact List.prefix_append ..
  exact ⟨hstops.names, ⟨_, _, hstops.statuses⟩, Stops.status_eq_failure_iff r,
    hstops.failedStep?_eq_some_iff, hprefix, fun _ => hstops.executed_getLast?,
    fun _ => hstops.skipped_fields⟩

/-- What comes of building and packing when the tests fail. -/
def failingTest : Except Fault RunResult :=
  (Sequence.run {} buildAndPack { kind := "push", branch := .text "main" }
    (Workspace.inPlace [] "/" "")
    (Host.scripted [{ duration := 1.0 }, { exitCode := 2, duration := 3.0 }]) World.initial).1

/-- When the tests fail, the run still has a result for the step that packs. -/
theorem run_results_of_failing_test :
    ∃ r, failingTest = .ok r ∧ r.steps.map (fun s => (s.job, s.name)) =
      [("check", "Build"), ("check", "Test"), ("pack", "Pack")] ∧ r.executed <+: r.steps := by
  cases hrun : failingTest with
  | error fault =>
    have hok : failingTest.isOk = true := by decide +kernel
    rw [hrun] at hok
    cases hok
  | ok r =>
    obtain ⟨hnames, -, -, -, hprefix, -⟩ := run_results hrun
    exact ⟨r, rfl, hnames, hprefix⟩

end CiRunner
