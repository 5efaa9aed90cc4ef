import CiRunner.Proofs.Run.Results
import CiRunner.Proofs.Workflow.Reading
import CiRunner.Workflow.Files

/-!
# What jobs depend on

A run looks only at the order of the jobs, never at what they depend on.  It does not have to: a
workflow that is loaded has been checked, so a job comes after all those it depends on, and a step
that is started comes after successes only.
-/

namespace CiRunner

open Success

variable {τ : Type}

/-! ## Workflows that are loaded -/

/-- A document that is accepted has well-ordered jobs. -/
lemma Workflow.wellOrdered_of_ofText {source : Option String} {text : String} {wf : Workflow}
    (h : Workflow.ofText source text = .ok wf) : WellOrdered wf.jobs := by
  obtain ⟨doc, -, hvalue⟩ := Workflow.ofText_eq_ok_iff.mp h
  obtain ⟨_, _, _, -, -, hcheck, -, -⟩ := Workflow.ofValue_eq_ok hvalue
  exact (checkJobs_eq_ok_iff _).mp hcheck

/-- The workflow of a script has well-ordered jobs. -/
lemma Script.wellOrdered_of_workflow {s : Script} {place : Location} {wf : Workflow}
    (h : s.workflow place = .ok wf) : WellOrdered wf.jobs := by
  obtain ⟨value, -, h⟩ := bind_eq_ok_iff.mp h
  cases value with
  | none => cases h
  | some w =>
    dsimp only at h
    split at h
    · cases h
    · rename_i hcheck
      cases h
      exact (checkJobs_eq_ok_iff _).mp hcheck

/-- Wherever it is loaded from, a workflow has well-ordered jobs. -/
lemma WorkflowFiles.wellOrdered_of_load {fs : WorkflowFiles} {path : Path} {wf : Workflow}
    (h : fs.load path = .ok wf) : WellOrdered wf.jobs := by
  obtain ⟨place, -, h⟩ := bind_eq_ok_iff.mp h
  dsimp only at h
  split_ifs at h
  · unfold loadDocument at h
    split at h
    · cases h
    · rename_i text _
      cases hread : Workflow.ofText (some place.text) text with
      | error reason =>
        rw [hread] at h
        cases h
      | ok w =>
        rw [hread] at h
        cases h
        exact Workflow.wellOrdered_of_ofText hread
  · unfold loadScript at h
    split_ifs at h
    exact Script.wellOrdered_of_workflow h

/-! ## Results and the jobs before -/

/-- The steps of a job are recorded one after another, and each of them succeeded. -/
def Job.SucceededIn (job : Job) (results : List StepResult) : Prop :=
  ∃ before part after, results = before ++ part ++ after ∧
    part.map (fun s => (s.job, s.name)) = job.steps.map (fun step => (job.name, step.name)) ∧
    ∀ s ∈ part, s.status = .success

/-- Before a step that was started there are only successes. -/
lemma Stops.success_of_started {steps left : List (Job × Step)} {done : List StepResult}
    {failed : Option StepResult} {results earlier later : List StepResult} {s : StepResult}
    (h : Stops steps done failed left results) (heq : results = earlier ++ s :: later)
    (hs : s.status ≠ .skipped) : ∀ x ∈ earlier, x.status = .success := by
  rw [h.results_eq] at heq
  rcases List.append_eq_append_iff.mp heq with ⟨more, rfl, htail⟩ | ⟨more, rfl, -⟩
  · -- nothing stands between the successes and the step: what follows a failure is skipped
    have hmore : more = [] := by
      by_contra hne
      obtain ⟨x, more, rfl⟩ := List.exists_cons_of_ne_nil hne
      cases failed with
      | none =>
        rw [h.left_nil rfl] at htail
        cases htail
      | some f =>
        have hskipped : skipAll left = more ++ s :: later := (List.cons_eq_cons.mp htail).2
        have hmem : s ∈ skipAll left := by
          rw [hskipped]
          exact List.mem_append_right _ List.mem_cons_self
        obtain ⟨job, step, rfl⟩ := mem_skipAll hmem
        exact hs rfl
    rw [hmore, List.append_nil]
    exact h.done_success
  · exact fun x hx => h.done_success x (List.mem_append_left _ hx)

section Positions

variable {jobs before after : List Job} {job need : Job}
variable {results earlier later : List StepResult} {s : StepResult}

/-- The names under which the steps of jobs are recorded. -/
def recordNames (jobs : List Job) : List (String × String) :=
  jobs.flatMap fun job => job.steps.map fun step => (job.name, step.name)

lemma recordNames_append (before after : List Job) :
    recordNames (before ++ after) = recordNames before ++ recordNames after :=
  List.flatMap_append

lemma map_steps_eq_recordNames (wf : Workflow) :
    wf.steps.map (fun p => (p.1.name, p.2.name)) = recordNames wf.jobs := by
  simp [Workflow.steps, recordNames, List.map_flatMap, Function.comp_def]

lemma mem_names_of_mem_recordNames {name : String × String} (h : name ∈ recordNames jobs) :
    name.1 ∈ jobs.map (·.name) := by
  obtain ⟨job, hjob, hname⟩ := List.mem_flatMap.mp h
  obtain ⟨step, -, rfl⟩ := List.mem_map.mp hname
  exact List.mem_map_of_mem hjob

/-- Whatever is recorded of a job, the results of the jobs declared before it stand before. -/
lemma exists_results_before
    (hnames : results.map (fun s => (s.job, s.name)) = recordNames (before ++ job :: after))
    (hfresh : job.name ∉ before.map (·.name)) (heq : results = earlier ++ s :: later)
    (hs : s.job = job.name) :
    ∃ first rest, earlier = first ++ rest ∧
      first.map (fun s => (s.job, s.name)) = recordNames before := by
  rw [recordNames_append] at hnames
  obtain ⟨first, others, hsplit, hfirst, -⟩ := List.map_eq_append_iff.mp hnames
  rw [heq] at hsplit
  rcases List.append_eq_append_iff.mp hsplit with ⟨more, rfl, htail⟩ | ⟨more, rfl, -⟩
  · cases more with
    | nil => exact ⟨earlier, [], by simp, by simpa using hfirst⟩
    | cons x more =>
      -- the step would be one of a job before
      obtain ⟨rfl, -⟩ := List.cons_eq_cons.mp htail
      have hmem : (s.job, s.name) ∈ recordNames before := by
        rw [← hfirst]
        exact List.mem_map_of_mem (by simp)
      exact absurd (hs ▸ mem_names_of_mem_recordNames hmem) hfresh
  · exact ⟨first, more, rfl, hfirst⟩

/-- The results of a job are among those of several jobs. -/
lemma exists_part_of_mem (hneed : need ∈ jobs)
    (hnames : results.map (fun s => (s.job, s.name)) = recordNames jobs) :
    ∃ first part rest, results = first ++ part ++ rest ∧
      part.map (fun s => (s.job, s.name)) =
        need.steps.map (fun step => (need.name, step.name)) := by
  obtain ⟨before, after, rfl⟩ := List.append_of_mem hneed
  rw [recordNames_append] at hnames
  obtain ⟨first, others, rfl, -, hothers⟩ := List.map_eq_append_iff.mp hnames
  obtain ⟨part, rest, rfl, hpart, -⟩ := List.map_eq_append_iff.mp hothers
  exact ⟨first, part, rest, by rw [List.append_assoc], hpart⟩

end Positions

/-! ## Runs of workflows that are loaded -/

/-- A step that was started comes after the successes of all jobs that its job depends on. -/
def RespectsNeeds (jobs : List Job) (results : List StepResult) : Prop :=
  ∀ job ∈ jobs, ∀ earlier s later, results = earlier ++ s :: later → s.job = job.name →
    s.status ≠ .skipped → ∀ need ∈ jobs, need.name ∈ job.needs → need.SucceededIn earlier

/-- A job on which another one depends stands before it. -/
lemma WellOrdered.mem_before {before after : List Job} {job need : Job}
    (h : WellOrdered (before ++ job :: after)) (hneed : need ∈ before ++ job :: after)
    (hname : need.name ∈ job.needs) : need ∈ before := by
  obtain ⟨other, hother, heq⟩ := List.mem_map.mp (h.needs before job after rfl need.name hname)
  have hsame : other = need :=
    List.inj_on_of_nodup_map h.distinct (List.mem_append_left _ hother) hneed heq
  exact hsame ▸ hother

/-- Well-ordered jobs wait for those they depend on, though the run does not look at these. -/
lemma WellOrdered.respectsNeeds [Timeline τ] {c : Console} {wf : Workflow} {e : Event}
    {ws : Workspace} {host : Host τ} {w : World τ} {r : RunResult} (h : WellOrdered wf.jobs)
    (hrun : (Sequence.run c wf e ws host w).1 = .ok r) : RespectsNeeds wf.jobs r.steps := by
  intro job hjob earlier s later heq hs hstarted need hneed hname
  obtain ⟨log, parts, -, -, hlog⟩ := Sequence.run_failFast c host ws wf e w
  rw [hrun] at hlog
  obtain ⟨done, failed, left, hstops⟩ := hlog.stops
  have hsuccess : ∀ x ∈ earlier, x.status = .success := hstops.success_of_started heq hstarted
  have hnames : r.steps.map (fun s => (s.job, s.name)) = recordNames wf.jobs :=
    hstops.names.trans (map_steps_eq_recordNames wf)
  obtain ⟨before, after, hjobs⟩ := List.append_of_mem hjob
  rw [hjobs] at h hnames hneed
  have hfresh : job.name ∉ before.map (·.name) := by
    have hdistinct := h.distinct
    rw [List.map_append, List.nodup_append] at hdistinct
    exact fun hmem => hdistinct.2.2 _ hmem _ List.mem_cons_self rfl
  obtain ⟨first, rest, rfl, hfirst⟩ := exists_results_before hnames hfresh heq hs
  obtain ⟨start, part, stop, rfl, hpart⟩ := exists_part_of_mem (h.mem_before hneed hname) hfirst
  refine ⟨start, part, stop ++ rest, ?_, hpart, fun x hx => hsuccess x ?_⟩
  · rw [List.append_assoc]
  · exact List.mem_append_left _ (List.mem_append_left _ (List.mem_append_right _ hx))

/-- The check of a list of jobs accepts exactly the well-ordered ones.  So the jobs of a workflow
that is loaded, from a document or from a script, are well ordered, and in each of its runs that
comes to an end they wait for those they depend on. -/
theorem loaded_jobs_wait_for_needs [Timeline τ] :
    (∀ jobs, checkJobs jobs = .ok () ↔ WellOrdered jobs) ∧
      ∀ (fs : WorkflowFiles) (path : Path) (wf : Workflow), fs.load path = .ok wf →
        WellOrdered wf.jobs ∧
          ∀ (c : Console) (e : Event) (ws : Workspace) (host : Host τ) (w : World τ) r,
            (Sequence.run c wf e ws host w).1 = .ok r → RespectsNeeds wf.jobs r.steps := by
  refine ⟨checkJobs_eq_ok_iff, fun fs path wf hload => ?_⟩
  have hwf : WellOrdered wf.jobs := WorkflowFiles.wellOrdered_of_load hload
  exact ⟨hwf, fun c e ws host w r hrun => hwf.respectsNeeds hrun⟩

/-- Jobs of which the last depends on both others. -/
def buildLintTest : Workflow where
  name := "release"
  jobs := [
    { name := "build", steps := [{ name := "Make", run := some "make" }] },
    { name := "lint", steps := [{ name := "Lint", run := some "make lint" }] },
    { name := "test", needs := ["lint", "build"]
      steps := [{ name := "Unit", run := some "make test" }] }]

/-- Files with a script that defines these jobs. -/
def scriptFiles : WorkflowFiles where
  tree := ⟨[(["ci_workflow.py"], .file [])]⟩
  script _ := [("WORKFLOW", .constant (some buildLintTest))]
  directory := []
  home := none

/-- What comes of a workflow when the third program fails. -/
def thirdFails (wf : Workflow) : Except Fault RunResult :=
  (Sequence.run {} wf { kind := "push", branch := .text "main" } (Workspace.inPlace [] "/" "")
    (Host.scripted [{ duration := 1.0 }, { duration := 1.0 }, { exitCode := 2, duration := 1.0 }])
    World.initial).1

/-- The tests fail, and before them the jobs they depend on have succeeded. -/
theorem loaded_jobs_wait_for_needs_of_failing_test :
    ∃ wf r, scriptFiles.load (Path.ofText "ci_workflow.py") = .ok wf ∧ thirdFails wf = .ok r ∧
      r.steps.map (fun s => (s.job, s.status)) =
        [("build", .success), ("lint", .success), ("test", .failure)] ∧
      RespectsNeeds wf.jobs r.steps := by
  have hload : scriptFiles.load (Path.ofText "ci_workflow.py") =
      .ok { buildLintTest with source := some "/ci_workflow.py" } := rfl
  have hstatuses : (thirdFails { buildLintTest with source := some "/ci_workflow.py" }).toOption.map
      (fun r => r.steps.map fun s => (s.job, s.status)) =
        some [("build", .success), ("lint", .success), ("test", .failure)] := by decide +kernel
  cases hrun : thirdFails { buildLintTest with source := some "/ci_workflow.py" } with
  | error fault =>
    rw [hrun] at hstatuses
    cases hstatuses
  | ok r =>
    rw [hrun] at hstatuses
    have hneeds := (loaded_jobs_wait_for_needs.2 _ _ _ hload).2 _ _ _ _ _ r hrun
    exact ⟨_, r, hload, hrun, Option.some.inj hstatuses, hneeds⟩

end CiRunner
