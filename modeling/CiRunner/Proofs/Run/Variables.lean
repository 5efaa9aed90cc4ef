import CiRunner.Proofs.Run.Course
import CiRunner.Proofs.Workflow.Environments

/-!
# The variables of steps

The process of a step is started with variables from five layers: those of the step, of its job, of
the workflow, of the run and of the host itself.  Each variable has its value from the first of
these layers that has it.  The layers of the workflow, the run and the host are the same for all
steps, and what one step or one job sets reaches no other one.
-/

namespace CiRunner

variable {τ : Type}

/-! ## The layers of a step -/

/-- The names of the variables that tell a step about its run. -/
lemma names_contextVariables (wf : Workflow) (e : Event) (place : Location) :
    (contextVariables wf e place).names =
      ["CI", "BRANCHCI", "BRANCHCI_WORKFLOW", "BRANCHCI_EVENT", "BRANCHCI_BRANCH",
        "BRANCHCI_WORKSPACE"] ++ if e.sha.truthy then ["BRANCHCI_SHA"] else [] := by
  unfold contextVariables
  split <;> rfl

/-- The layers of the variables of a step, from the first one that counts to the last one. -/
def layersOf (environment : Environment) (wf : Workflow) (e : Event) (place : Location) (job : Job)
    (step : Step) : List Environment :=
  [.ofList step.env, .ofList job.env, .ofList wf.env, contextVariables wf e place, environment]

/-- A variable of a step has its value from the first layer that has it. -/
lemma value?_stepVariables (environment : Environment) (wf : Workflow) (e : Event)
    (place : Location) (job : Job) (step : Step) (name : String) :
    (stepVariables environment (runVariables wf e place) job step).value? name =
      (layersOf environment wf e place job step).findSome? (·.value? name) := by
  have hcontext : (contextVariables wf e place).names.Nodup := by
    rw [names_contextVariables]
    split <;> decide
  have hbase : (Environment.ofList (runVariables wf e place)).value? name =
      (runVariables wf e place).value? name :=
    Environment.value?_ofList (Environment.nodup_names_update hcontext wf.env) name
  have hfirst : ∀ (env : Environment) (others : List Environment),
      (env :: others).findSome? (·.value? name) =
        (env.value? name).or (others.findSome? (·.value? name)) := by
    intro env others
    rw [List.findSome?_cons]
    cases env.value? name <;> rfl
  rw [stepVariables, Environment.value?_update, Environment.value?_update,
    Environment.value?_update, hbase, runVariables, Environment.value?_update]
  simp only [layersOf, hfirst, List.findSome?_nil, Option.or_assoc, Option.or_none]

/-! ## The processes of steps -/

/-- The variables that a process is started with. -/
def Action.variables? : Action τ → Option Environment
  | spawn _ _ _ env => some env
  | _ => none

/-- Only a process that is started has variables. -/
lemma Action.variables?_eq_none {a : Action τ} (h : a.isSpawn = false) : a.variables? = none := by
  cases a with
  | spawn => cases h
  | _ => rfl

section Runs

variable [Timeline τ] (c : Console) (ws : Workspace) (host : Host τ)

/-- The process of a step has the variables of the step. -/
lemma Visit.variables_part (base : Environment) (v : Visit τ) {a : Action τ} {env : Environment}
    (ha : a ∈ v.part c ws base host) (henv : a.variables? = some env) :
    env = stepVariables host.environment base v.job v.step := by
  have hspawn : a.isSpawn = true := by
    by_contra h
    simp [Action.variables?_eq_none (Bool.eq_false_iff.mpr h)] at henv
  have hbody : a ∈ v.bodyDeeds c ws base host := by
    rcases List.mem_cons.mp ha with rfl | ha
    · cases henv
    rcases List.mem_append.mp ha with ha | ha
    · exact ha
    · obtain ⟨r, -, rfl⟩ := v.mem_closing c ws base host ha
      cases henv
  rcases v.starts_or_quiet c ws base host with ⟨p, hstarts⟩ | hquiet
  · obtain ⟨words, directory, hdeeds⟩ := hstarts.bodyDeeds
    rw [hdeeds] at hbody
    rcases List.mem_cons.mp hbody with rfl | hbody
    · exact (Option.some.inj henv).symm
    · have hkinds := Action.kinds_of_isFollowUp (isFollowUp_of_mem_deeds_trace hbody)
      simp [hkinds.2.1] at hspawn
  · have hkinds := Action.kinds_of_isGit (hquiet.bodyDeeds a hbody)
    simp [hkinds.2.2] at hspawn

variable (wf : Workflow) (e : Event) (w : World τ)

/-- A step, given by the place of its job and its own place in the job, starts a process with some
variables in a run. -/
def StartsWith (i j : ℕ) (env : Environment) : Prop :=
  ∃ job part a, wf.jobs[i]? = some job ∧ j < job.steps.length ∧
    (partsOf (Sequence.runDeeds c ws host wf e w))[stepNumber wf.jobs i j]? = some part ∧
      a ∈ part ∧ a.variables? = some env

variable {c ws host wf e w}

/-- A step starts its process with its own variables. -/
lemma StartsWith.eq_stepVariables {i j : ℕ} {env : Environment}
    (h : StartsWith c ws host wf e w i j env) :
    ∃ job step, wf.jobs[i]? = some job ∧ job.steps[j]? = some step ∧
      env = stepVariables host.environment (runVariables wf e ws.place) job step := by
  obtain ⟨job, part, a, hjob, hlt, hpart, ha, henv⟩ := h
  have hstep : job.steps[j]? = some job.steps[j] := List.getElem?_eq_getElem hlt
  obtain ⟨visits, -, hjobs, -, hparts⟩ := Sequence.run_visits c ws host wf e w
  rw [hparts, List.getElem?_map] at hpart
  obtain ⟨v, hv, rfl⟩ := Option.map_eq_some_iff.mp hpart
  obtain ⟨hvjob, hvstep, -⟩ := hjobs.visit hjob hstep hv
  have hvariables := v.variables_part c ws host _ ha henv
  rw [hvjob, hvstep] at hvariables
  exact ⟨job, job.steps[j], hjob, hstep, hvariables⟩

/-- Every process of a run is started by a step. -/
lemma exists_startsWith {a : Action τ} (hadded : a ∈ w.added (Sequence.run c wf e ws host w).2)
    {env : Environment} (henv : a.variables? = some env) :
    ∃ i j, StartsWith c ws host wf e w i j env := by
  obtain ⟨visits, -, hjobs, hdeeds, hparts⟩ := Sequence.run_visits c ws host wf e w
  have ha : a ∈ Sequence.runDeeds c ws host wf e w := by
    refine List.mem_filter.mpr ⟨hadded, ?_⟩
    cases a with
    | tell => cases henv
    | _ => rfl
  rw [hdeeds] at ha
  obtain ⟨part, hpart, ha⟩ := List.mem_flatten.mp ha
  obtain ⟨v, hv, rfl⟩ := List.mem_map.mp hpart
  obtain ⟨k, hk⟩ := List.mem_iff_getElem?.mp hv
  obtain ⟨i, j, rfl, hjob, hplace⟩ := exists_stepNumber (hjobs.getElem? hk)
  refine ⟨i, j, v.job, _, a, hjob, (List.getElem?_eq_some_iff.mp hplace).1, ?_, ha, henv⟩
  rw [hparts, List.getElem?_map, hk, Option.map_some]

/-- A step starts a process if its part of the log has one. -/
lemma StartsWith.of_filterMap {i j : ℕ} {job : Job} {env : Environment}
    (hjob : wf.jobs[i]? = some job) (hlt : j < job.steps.length)
    (h : (partsOf (Sequence.runDeeds c ws host wf e w))[stepNumber wf.jobs i j]?.map
      (·.filterMap Action.variables?) = some [env]) : StartsWith c ws host wf e w i j env := by
  obtain ⟨part, hpart, hvariables⟩ := Option.map_eq_some_iff.mp h
  have hmem : env ∈ part.filterMap Action.variables? := hvariables ▸ List.mem_singleton_self env
  obtain ⟨a, ha, henv⟩ := List.mem_filterMap.mp hmem
  exact ⟨job, part, a, hjob, hlt, hpart, ha, henv⟩

end Runs

/-! ## Changed workflows -/

namespace Workflow

/-- A workflow in which the variables of one job are others. -/
def withJobEnv (wf : Workflow) (i : ℕ) (env : Environment) : Workflow :=
  { wf with jobs := wf.jobs.modify i fun job => { job with env } }

/-- A workflow in which the variables of one step are others. -/
def withStepEnv (wf : Workflow) (i j : ℕ) (env : Environment) : Workflow :=
  { wf with jobs := wf.jobs.modify i fun job =>
      { job with steps := job.steps.modify j fun step => { step with env } } }

variable {wf : Workflow} {changed : Environment} {i j : ℕ} {job : Job}

/-- Other jobs stay as they are when the variables of a job change. -/
lemma getElem?_withJobEnv {i' : ℕ} (hne : i ≠ i') :
    (wf.withJobEnv i' changed).jobs[i]? = wf.jobs[i]? :=
  List.getElem?_modify_ne _ _ (Ne.symm hne)

/-- Other steps stay as they are when the variables of a step change, and so do the variables of
their jobs. -/
lemma getElem?_withStepEnv {i' j' : ℕ} (hne : (i, j) ≠ (i', j'))
    (hjob : (wf.withStepEnv i' j' changed).jobs[i]? = some job) :
    ∃ job', wf.jobs[i]? = some job' ∧ job.env = job'.env ∧ job.steps[j]? = job'.steps[j]? := by
  by_cases hi : i = i'
  · subst hi
    have hj : j ≠ j' := fun hj => hne (by rw [hj])
    obtain ⟨job', hjob', rfl⟩ :=
      Option.map_eq_some_iff.mp ((List.getElem?_modify_eq _ _ _).symm.trans hjob)
    exact ⟨job', hjob', rfl, List.getElem?_modify_ne _ _ (Ne.symm hj)⟩
  · exact ⟨job, (List.getElem?_modify_ne _ _ (Ne.symm hi)).symm.trans hjob, rfl, rfl⟩

end Workflow

section Processes

variable [Timeline τ] {c : Console} {ws : Workspace} {host : Host τ} {wf : Workflow} {e : Event}
variable {w : World τ} {i j : ℕ} {env : Environment}

/-- A variable that the job and the step do not set comes from the workflow, the run or the host. -/
lemma StartsWith.value?_of_unset (h : StartsWith c ws host wf e w i j env) {name : String}
    (hunset : ∀ job ∈ wf.jobs, name ∉ job.env.names ∧ ∀ step ∈ job.steps, name ∉ step.env.names) :
    env.value? name = ([.ofList wf.env, contextVariables wf e ws.place, host.environment] :
      List Environment).findSome? (·.value? name) := by
  obtain ⟨job, step, hjob, hstep, rfl⟩ := h.eq_stepVariables
  obtain ⟨hunjob, hunstep⟩ := hunset job (List.mem_of_getElem? hjob)
  rw [value?_stepVariables, layersOf, List.findSome?_cons,
    Environment.value?_ofList_eq_none (hunstep step (List.mem_of_getElem? hstep))]
  dsimp only
  rw [List.findSome?_cons, Environment.value?_ofList_eq_none hunjob]

variable {c' : Console} {host' : Host τ} {w' : World τ} {changed env' : Environment} {i' j' : ℕ}

/-- What a job sets does not reach the steps of other jobs. -/
lemma StartsWith.eq_of_withJobEnv (h : StartsWith c ws host wf e w i j env)
    (henvironment : host'.environment = host.environment)
    (h' : StartsWith c' ws host' (wf.withJobEnv i' changed) e w' i j env') (hne : i ≠ i') :
    env' = env := by
  obtain ⟨job, step, hjob, hstep, rfl⟩ := h.eq_stepVariables
  obtain ⟨job', step', hjob', hstep', rfl⟩ := h'.eq_stepVariables
  rw [Workflow.getElem?_withJobEnv hne] at hjob'
  obtain rfl : job = job' := Option.some.inj (hjob.symm.trans hjob')
  obtain rfl : step = step' := Option.some.inj (hstep.symm.trans hstep')
  rw [henvironment]
  rfl

/-- What a step sets does not reach other steps. -/
lemma StartsWith.eq_of_withStepEnv (h : StartsWith c ws host wf e w i j env)
    (henvironment : host'.environment = host.environment)
    (h' : StartsWith c' ws host' (wf.withStepEnv i' j' changed) e w' i j env')
    (hne : (i, j) ≠ (i', j')) : env' = env := by
  obtain ⟨job, step, hjob, hstep, rfl⟩ := h.eq_stepVariables
  obtain ⟨job', step', hjob', hstep', rfl⟩ := h'.eq_stepVariables
  obtain ⟨same, hsame, henv, hsteps⟩ := Workflow.getElem?_withStepEnv hne hjob'
  obtain rfl : job = same := Option.some.inj (hjob.symm.trans hsame)
  rw [hsteps] at hstep'
  obtain rfl : step = step' := Option.some.inj (hstep.symm.trans hstep')
  rw [stepVariables, henvironment, henv]
  rfl

end Processes

/-- Every process of a run is started by a step, with variables from five layers: each variable has
its value from the first of them that has it, and is absent if none has it.  Variables that no job
and no step sets have the same values for all steps.  What a job sets reaches only its own steps,
and what a step sets only itself: in a run with other variables of that job or step, on any host
with the same variables, the other steps start their processes with the variables they had. -/
theorem run_variables [Timeline τ] (c : Console) (ws : Workspace) (host : Host τ) (wf : Workflow)
    (e : Event) (w : World τ) :
    (∀ a ∈ w.added (Sequence.run c wf e ws host w).2, ∀ env, a.variables? = some env →
      ∃ i j, StartsWith c ws host wf e w i j env) ∧
    (∀ i j env, StartsWith c ws host wf e w i j env →
      (host.environment.names.Nodup → env.names.Nodup) ∧
      ∃ job step, wf.jobs[i]? = some job ∧ job.steps[j]? = some step ∧ ∀ name,
        env.value? name =
          (layersOf host.environment wf e ws.place job step).findSome? (·.value? name)) ∧
    (contextVariables wf e ws.place).names =
      ["CI", "BRANCHCI", "BRANCHCI_WORKFLOW", "BRANCHCI_EVENT", "BRANCHCI_BRANCH",
        "BRANCHCI_WORKSPACE"] ++ (if e.sha.truthy then ["BRANCHCI_SHA"] else []) ∧
    (∀ i j env i' j' env', StartsWith c ws host wf e w i j env →
      StartsWith c ws host wf e w i' j' env' → ∀ name,
        (∀ job ∈ wf.jobs, name ∉ job.env.names ∧ ∀ step ∈ job.steps, name ∉ step.env.names) →
          env.value? name = env'.value? name) ∧
    ∀ (c' : Console) (host' : Host τ) (w' : World τ), host'.environment = host.environment →
      ∀ i j env env', StartsWith c ws host wf e w i j env →
        (∀ i' changed, StartsWith c' ws host' (wf.withJobEnv i' changed) e w' i j env' →
          i ≠ i' → env' = env) ∧
        ∀ i' j' changed, StartsWith c' ws host' (wf.withStepEnv i' j' changed) e w' i j env' →
          (i, j) ≠ (i', j') → env' = env := by
  refine ⟨fun a ha env henv => exists_startsWith ha henv, fun i j env h => ?_,
    names_contextVariables .., fun i j env i' j' env' h h' name hunset => ?_,
    fun c' host' w' henvironment i j env env' h =>
      ⟨fun i' changed h' hne => h.eq_of_withJobEnv henvironment h' hne,
        fun i' j' changed h' hne => h.eq_of_withStepEnv henvironment h' hne⟩⟩
  · obtain ⟨job, step, hjob, hstep, rfl⟩ := h.eq_stepVariables
    refine ⟨fun hnames => ?_, job, step, hjob, hstep,
      value?_stepVariables host.environment wf e ws.place job step⟩
    exact Environment.nodup_names_update (Environment.nodup_names_update
      (Environment.nodup_names_update hnames _) _) _
  · rw [h.value?_of_unset hunset, h'.value?_of_unset hunset]

/-- A workflow that sets the same variable on all levels. -/
def layeredBuild : Workflow where
  name := "ci"
  env := [("MODE", "workflow"), ("CI", "yes")]
  jobs := [
    { name := "check", env := [("MODE", "job")]
      steps := [{ name := "Build", run := some "make", env := [("MODE", "step")] },
        { name := "Test", run := some "make test" }] }]

/-- The second step has the mode of its job, whatever the first one sets. -/
theorem run_variables_of_layeredBuild :
    let host := { Host.scripted [] with environment := [("PATH", "/bin"), ("CI", "no")] }
    let e : Event := { kind := "push", branch := .text "main" }
    ∃ env, StartsWith {} (Workspace.inPlace [] "/" "") host layeredBuild e World.initial 0 1 env ∧
      StartsWith {} (Workspace.inPlace [] "/" "") host
        (layeredBuild.withStepEnv 0 0 [("MODE", "fast"), ("PATH", "")]) e World.initial 0 1 env ∧
      env.value? "MODE" = some "job" ∧ env.value? "CI" = some "yes" ∧
      env.value? "BRANCHCI_EVENT" = some "push" ∧ env.value? "PATH" = some "/bin" ∧
      env.value? "BRANCHCI_SHA" = none := by
  intro host e
  set ws := Workspace.inPlace [] "/" ""
  set changed := layeredBuild.withStepEnv 0 0 [("MODE", "fast"), ("PATH", "")]
  have hjob : StartsWith {} ws host layeredBuild e World.initial 0 1
      (stepVariables host.environment (runVariables layeredBuild e ws.place)
        layeredBuild.jobs[0] layeredBuild.jobs[0].steps[1]) :=
    .of_filterMap rfl (by decide) (by decide +kernel)
  have hchanged : StartsWith {} ws host changed e World.initial 0 1
      (stepVariables host.environment (runVariables changed e ws.place)
        changed.jobs[0] changed.jobs[0].steps[1]) :=
    .of_filterMap rfl (by decide) (by decide +kernel)
  have hlaws := run_variables {} ws host layeredBuild e World.initial
  have hsame := (hlaws.2.2.2.2 {} host World.initial rfl 0 1 _ _ hjob).2 0 0 _ hchanged (by decide)
  obtain ⟨-, job, step, hget, hstep, hvalue⟩ := hlaws.2.1 0 1 _ hjob
  cases hget
  cases hstep
  refine ⟨_, hjob, hsame ▸ hchanged, ?_⟩
  simp only [hvalue]
  decide

end CiRunner
