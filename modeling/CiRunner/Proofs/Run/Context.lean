import CiRunner.Proofs.Run.Variables

/-!
# What a step is told of its event

A step is told the kind of the event, its branch and its commit, under reserved names.  These
variables lie over those of the host.  So a runner that is itself started by a step of another run
does not hand on what that step was told, as long as it writes the same names.

The kind and the branch are written for every event, and the commit only if there is one.  An event
without a commit lets the one that the host was told of show through
(`step_told_event_unless_inherited`).
-/

namespace CiRunner

variable {τ : Type}

/-! ## Reserved names -/

/-- A name is one of those that tell of runs. -/
def Environment.IsReserved (name : String) : Prop := "BRANCHCI_".toList <+: name.toList

instance (name : String) : Decidable (Environment.IsReserved name) :=
  inferInstanceAs (Decidable ("BRANCHCI_".toList <+: name.toList))

/-- A variable that an environment names has a value there. -/
lemma Environment.exists_value?_of_mem {env : Environment} {name : String} (h : name ∈ env.names) :
    ∃ value, env.value? name = some value := by
  obtain ⟨setting, hmem, rfl⟩ := List.mem_map.mp h
  rw [← Option.isSome_iff_exists, value?, Option.isSome_map, List.find?_isSome]
  exact ⟨setting, hmem, beq_self_eq_true _⟩

/-- No level of a workflow sets a reserved name for a step. -/
structure Workflow.LeavesReserved (wf : Workflow) (job : Job) (step : Step) : Prop where
  /-- The workflow does not. -/
  workflow : ∀ name ∈ wf.env.names, ¬Environment.IsReserved name
  /-- The job does not. -/
  job : ∀ name ∈ job.env.names, ¬Environment.IsReserved name
  /-- The step does not. -/
  step : ∀ name ∈ step.env.names, ¬Environment.IsReserved name

/-- The commit of an event is written if it is a text that is not empty. -/
lemma value?_contextVariables_sha {e : Event} {sha : Option String} (h : e.sha = .ofText? sha)
    (wf : Workflow) (place : Location) :
    (contextVariables wf e place).value? "BRANCHCI_SHA" = sha.filter (· ≠ "") := by
  cases sha with
  | none => simp [contextVariables, h, Value.ofText?, Value.truthy, Environment.value?]
  | some commit =>
    by_cases hempty : commit = "" <;>
      simp [contextVariables, h, Value.ofText?, Value.truthy, Environment.value?, hempty,
        Option.filter]

/-! ## Steps -/

variable [Timeline τ] {c : Console} {ws : Workspace} {host : Host τ} {wf : Workflow} {e : Event}
variable {w : World τ} {i j : ℕ} {env : Environment} {job : Job} {step : Step}

/-- A reserved name that is not set has the value that the run writes, else that of the host. -/
lemma StartsWith.value?_of_isReserved (h : StartsWith c ws host wf e w i j env)
    (hjob : wf.jobs[i]? = some job) (hstep : job.steps[j]? = some step)
    (hleaves : wf.LeavesReserved job step) {name : String} (hname : Environment.IsReserved name) :
    env.value? name =
      ((contextVariables wf e ws.place).value? name).or (host.environment.value? name) := by
  obtain ⟨job', step', hjob', hstep', rfl⟩ := h.eq_stepVariables
  obtain rfl : job = job' := Option.some.inj (hjob.symm.trans hjob')
  obtain rfl : step = step' := Option.some.inj (hstep.symm.trans hstep')
  have hnone : ∀ {settings : Environment}, (∀ n ∈ settings.names, ¬Environment.IsReserved n) →
      (Environment.ofList settings).value? name = none := fun hsettings =>
    Environment.value?_ofList_eq_none fun hmem => hsettings name hmem hname
  rw [value?_stepVariables, layersOf]
  simp only [List.findSome?_cons, hnone hleaves.step, hnone hleaves.job, hnone hleaves.workflow]
  cases (contextVariables wf e ws.place).value? name <;> cases host.environment.value? name <;> rfl

/-- Steps whose workflow, job and own variables leave the reserved names alone are told of their
event: of its kind and its branch always, and of its commit if there is one.  Whatever the variables
of the host are, a name that the run writes has the value of this run, so two runs of the step on
hosts with different variables agree on it.  Any other reserved name has the value of the host.  So
a step sees the commit exactly as the event has it, unless the event has none and the host has a
variable of that name. -/
theorem step_told_event_unless_inherited (h : StartsWith c ws host wf e w i j env)
    (hjob : wf.jobs[i]? = some job) (hstep : job.steps[j]? = some step)
    (hleaves : wf.LeavesReserved job step) {branch : String} (hbranch : e.branch = .text branch)
    {sha : Option String} (hsha : e.sha = .ofText? sha) :
    env.value? "BRANCHCI_EVENT" = some e.kind ∧
    env.value? "BRANCHCI_BRANCH" = some branch ∧
    (env.value? "BRANCHCI_SHA" = sha.filter (· ≠ "") ↔
      sha.filter (· ≠ "") ≠ none ∨ host.environment.value? "BRANCHCI_SHA" = none) ∧
    (∀ name, Environment.IsReserved name → env.value? name =
      ((contextVariables wf e ws.place).value? name).or (host.environment.value? name)) ∧
    ∀ (c' : Console) (host' : Host τ) w' env', StartsWith c' ws host' wf e w' i j env' →
      ∀ name ∈ (contextVariables wf e ws.place).names, Environment.IsReserved name →
        env'.value? name = env.value? name := by
  have hvalue : ∀ name, Environment.IsReserved name → env.value? name =
      ((contextVariables wf e ws.place).value? name).or (host.environment.value? name) :=
    fun name => h.value?_of_isReserved hjob hstep hleaves
  refine ⟨?_, ?_, ?_, hvalue, fun c' host' w' env' h' name hmem hname => ?_⟩
  · rw [hvalue _ (by decide)]
    rfl
  · rw [hvalue _ (by decide)]
    simp [contextVariables, Environment.value?, hbranch]
  · rw [hvalue _ (by decide), value?_contextVariables_sha hsha]
    cases sha.filter (· ≠ "") <;> simp
  · obtain ⟨value, hwritten⟩ := Environment.exists_value?_of_mem hmem
    rw [hvalue name hname, h'.value?_of_isReserved hjob hstep hleaves hname, hwritten]
    rfl

/-- A host on which a step of another run has started the runner. -/
def hostOfOuterRun : Host Float :=
  { Host.scripted [] with
    environment := [("PATH", "/bin"), ("BRANCHCI_EVENT", "pull_request"),
      ("BRANCHCI_BRANCH", "outer"), ("BRANCHCI_SHA", "c0ffee")] }

/-- What a step of the inner run is started with, for a push to the main branch. -/
def innerVariables (sha : Option String) : Environment :=
  stepVariables hostOfOuterRun.environment
    (runVariables layeredBuild { kind := "push", branch := .text "main", sha := .ofText? sha }
      (Workspace.inPlace [] "/" "").place)
    layeredBuild.jobs[0] layeredBuild.jobs[0].steps[1]

/-- A push of a commit: the step is told of it, and of nothing that the outer run was told. -/
theorem step_told_event_unless_inherited_of_commit :
    let e : Event := { kind := "push", branch := .text "main", sha := .text "decade" }
    StartsWith {} (Workspace.inPlace [] "/" "") hostOfOuterRun layeredBuild e .initial 0 1
        (innerVariables (some "decade")) ∧
      (innerVariables (some "decade")).value? "BRANCHCI_EVENT" = some "push" ∧
      (innerVariables (some "decade")).value? "BRANCHCI_BRANCH" = some "main" ∧
      (innerVariables (some "decade")).value? "BRANCHCI_SHA" = some "decade" := by
  intro e
  have hstarts : StartsWith {} (Workspace.inPlace [] "/" "") hostOfOuterRun layeredBuild e .initial
      0 1 (innerVariables (some "decade")) := .of_filterMap rfl (by decide) (by decide +kernel)
  have hleaves : layeredBuild.LeavesReserved layeredBuild.jobs[0]
      layeredBuild.jobs[0].steps[1] := ⟨by decide, by decide, by decide⟩
  have hbranch : e.branch = .text "main" := rfl
  have hsha : e.sha = .ofText? (some "decade") := rfl
  obtain ⟨hkind, hbranch, hcommit, -⟩ :=
    step_told_event_unless_inherited hstarts rfl rfl hleaves hbranch hsha
  exact ⟨hstarts, hkind, hbranch, hcommit.mpr (Or.inl (by decide))⟩

/-- A push without a commit: the step is told of the commit of the outer run. -/
theorem inherited_commit_shows_through :
    let e : Event := { kind := "push", branch := .text "main", sha := .null }
    layeredBuild.LeavesReserved layeredBuild.jobs[0] layeredBuild.jobs[0].steps[1] ∧
      StartsWith {} (Workspace.inPlace [] "/" "") hostOfOuterRun layeredBuild e .initial 0 1
        (innerVariables none) ∧
      (innerVariables none).value? "BRANCHCI_SHA" = some "c0ffee" :=
  ⟨⟨by decide, by decide, by decide⟩, .of_filterMap rfl (by decide) (by decide +kernel),
    by decide +kernel⟩

end CiRunner
