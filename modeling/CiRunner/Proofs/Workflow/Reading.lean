import CiRunner.Proofs.Success
import CiRunner.Proofs.Workflow.Order
import CiRunner.Workflow.Document
import Mathlib.Data.List.Forall2
import Mathlib.Data.List.TakeWhile

/-!
# What is read from a document

A document that is accepted tells the workflow: its jobs are those of the document in their order,
the steps of each job are those the document lists for it, and each part is as it has to be.  Every
reader checks the part it reads, so what is known of the whole is put together from what each reader
tells of its part.
-/

namespace CiRunner

open Success Text

/-! ## What a document says of steps and jobs -/

/-- A step is the one that a value describes, and it is as steps have to be. -/
structure Step.ReadFrom (spec : Value) (step : Step) : Prop where
  /-- The command is the one that is given. -/
  run : Value.ofText? step.run = spec.field "run"
  /-- The action is the one that is given. -/
  uses : Value.ofText? step.uses = spec.field "uses"
  /-- There is either a command or an action. -/
  task : step.run.isSome ≠ step.uses.isSome
  /-- The command is not blank. -/
  notBlank : ∀ command, step.run = some command → ∃ c ∈ command.toList, isBlank c = false
  /-- The name is the text of the one that is given. -/
  name : spec.field "name" ≠ .null → step.name = (spec.field "name").display
  /-- The shell is one of two. -/
  shell : step.shell = "bash" ∨ step.shell = "sh"
  /-- No variable is given twice. -/
  env : step.env.names.Nodup
  /-- No input is given twice. -/
  inputs : step.inputs.names.Nodup

/-- A job is the one that an entry of a mapping describes. -/
structure Job.ReadFrom (entry : Value × Value) (job : Job) : Prop where
  /-- The name is the text of the key. -/
  name : job.name = entry.1.display
  /-- The steps are those that are listed, in their order, and there is one. -/
  steps : ∃ specs, specs ≠ [] ∧ entry.2.field "steps" = .list specs ∧
    List.Forall₂ Step.ReadFrom specs job.steps
  /-- No variable is given twice. -/
  env : job.env.names.Nodup

/-- A workflow is the one that a document describes, and it is as workflows have to be. -/
structure Workflow.ReadFrom (doc : Value) (w : Workflow) : Prop where
  /-- There is a job. -/
  nonempty : w.jobs ≠ []
  /-- The jobs are those of the document, in their order. -/
  jobs : ∃ entries, doc.field "jobs" = .map entries ∧ List.Forall₂ Job.ReadFrom entries w.jobs
  /-- Their names are distinct, each has a step, and each depends on earlier ones only. -/
  ordered : WellOrdered w.jobs
  /-- No variable is given twice. -/
  env : w.env.names.Nodup
  /-- The rules are for pushes and pull requests. -/
  kinds : ∀ r ∈ w.triggers, r.event = "push" ∨ r.event = "pull_request"
  /-- No rule has both kinds of branch filters. -/
  filters : ∀ r ∈ w.triggers, r.branches = none ∨ r.branchesIgnore = none

namespace Workflow

variable {place : String} {spec : Value}

/-- What is refused comes to nothing. -/
@[simp] lemma refuse_ne_ok {α : Type} (reason : WorkflowError) (a : α) : refuse reason ≠ .ok a := by
  rintro ⟨⟩

lemma refuse_bind_ne_ok {α β : Type} (reason : WorkflowError) (f : α → Except DefinitionError β)
    (b : β) : refuse reason >>= f ≠ .ok b := by
  rintro ⟨⟩

/-! ## Variables -/

lemma readVariables_nodup {entries : List (Value × Value)} {env env' : Environment}
    (h : readVariables place env entries = .ok env') (henv : env.names.Nodup) :
    env'.names.Nodup := by
  induction entries generalizing env with
  | nil =>
    cases h
    exact henv
  | cons entry rest ih =>
    obtain ⟨key, v⟩ := entry
    rw [readVariables] at h
    split_ifs at h
    · exact absurd h (refuse_ne_ok _ _)
    · exact ih h (Environment.nodup_names_set henv _ _).1

/-- The names of variables that are read are distinct, also where keys differ only by their kind. -/
lemma readEnvironment_nodup {v : Value} {env : Environment}
    (h : readEnvironment place v = .ok env) : env.names.Nodup := by
  unfold readEnvironment at h
  split at h
  · cases h
    exact List.nodup_nil
  · exact readVariables_nodup h List.nodup_nil
  · exact absurd h (refuse_ne_ok _ _)

/-! ## Steps -/

/-- A text that is not empty after trimming is not blank. -/
lemma exists_not_isBlank_of_trim {s : String} (h : (trim s).isEmpty = false) :
    ∃ c ∈ s.toList, isBlank c = false := by
  by_contra hnone
  have hblank : ∀ c ∈ s.toList, isBlank c = true := fun c hc => by
    by_contra hc'
    exact hnone ⟨c, hc, Bool.eq_false_iff.mpr hc'⟩
  have htrim : trim s = "" := by
    rw [trim, trimChars, trimLeft, List.dropWhile_eq_nil_iff.mpr hblank]
    rfl
  rw [htrim] at h
  cases h

/-- The command and the action that are read: there is one of them, and a command is not blank. -/
lemma readTask_eq_ok {run uses : Option String} (h : readTask place spec = .ok (run, uses)) :
    Value.ofText? run = spec.field "run" ∧ Value.ofText? uses = spec.field "uses" ∧
      run.isSome ≠ uses.isSome ∧
      ∀ command, run = some command → ∃ c ∈ command.toList, isBlank c = false := by
  unfold readTask at h
  split at h
  case h_2 hrun huses =>
    cases h
    simp [Value.ofText?, hrun, huses]
  case h_4 hrun huses =>
    split_ifs at h with hblank
    · exact absurd h (refuse_ne_ok _ _)
    · cases h
      have hsome := exists_not_isBlank_of_trim (Bool.eq_false_iff.mpr hblank)
      simpa [Value.ofText?, hrun, huses] using hsome
  all_goals exact absurd h (refuse_ne_ok _ _)

lemma readShell_eq_ok {shell : String} (h : readShell place spec = .ok shell) :
    shell = "bash" ∨ shell = "sh" := by
  unfold readShell at h
  split at h
  · cases h
    exact Or.inl rfl
  · split_ifs at h with hknown
    · cases h
      simpa [knownShells] using hknown
    · exact absurd h (refuse_ne_ok _ _)
  · exact absurd h (refuse_ne_ok _ _)

lemma stepName_of_ne_null {run uses : Option String} (h : spec.field "name" ≠ .null) :
    stepName spec run uses = (spec.field "name").display := by
  unfold stepName
  split
  · rename_i hnull
    exact absurd hnull h
  · rfl

/-- A step that is read is as the value says. -/
lemma readStep_eq_ok {step : Step} (h : readStep place spec = .ok step) : step.ReadFrom spec := by
  unfold readStep at h
  split_ifs at h
  · simp only [bind_eq_ok_iff, pure_eq_ok_iff] at h
    obtain ⟨⟨run, uses⟩, htask, shell, hshell, inputs, hinputs, env, henv, limit, -, rfl⟩ := h
    obtain ⟨hrun, huses, hone, hblank⟩ := readTask_eq_ok htask
    exact ⟨hrun, huses, hone, hblank, stepName_of_ne_null, readShell_eq_ok hshell,
      readEnvironment_nodup henv, readEnvironment_nodup hinputs⟩
  · exact absurd h (refuse_bind_ne_ok _ _ _)

/-- The steps that are read are those that are listed, one by one. -/
lemma readSteps_eq_ok {specs : List Value} {index : Nat} {steps : List Step}
    (h : readSteps place index specs = .ok steps) : List.Forall₂ Step.ReadFrom specs steps := by
  induction specs generalizing index steps with
  | nil =>
    cases h
    exact .nil
  | cons spec rest ih =>
    simp only [readSteps, bind_eq_ok_iff, pure_eq_ok_iff] at h
    obtain ⟨step, hstep, others, hothers, rfl⟩ := h
    exact .cons (readStep_eq_ok hstep) (ih hothers)

/-! ## Jobs -/

/-- A job that is read is as its entry says. -/
lemma readJob_eq_ok {key : Value} {job : Job} (h : readJob key.display spec = .ok job) :
    job.ReadFrom (key, spec) := by
  unfold readJob at h
  split_ifs at h
  · split at h
    · rename_i first rest hspecs
      simp only [bind_eq_ok_iff, pure_eq_ok_iff] at h
      obtain ⟨steps, hsteps, env, henv, needs, -, limit, -, rfl⟩ := h
      exact ⟨rfl, ⟨first :: rest, by simp, hspecs, readSteps_eq_ok hsteps⟩,
        readEnvironment_nodup henv⟩
    · exact absurd h (refuse_ne_ok _ _)
  · exact absurd h (refuse_bind_ne_ok _ _ _)

/-- The jobs that are read are those of the mapping, one by one. -/
lemma readJobs_eq_ok {entries : List (Value × Value)} {jobs : List Job}
    (h : readJobs entries = .ok jobs) : List.Forall₂ Job.ReadFrom entries jobs := by
  induction entries generalizing jobs with
  | nil =>
    cases h
    exact .nil
  | cons entry rest ih =>
    simp only [readJobs, bind_eq_ok_iff, pure_eq_ok_iff] at h
    obtain ⟨job, hjob, others, hothers, rfl⟩ := h
    exact .cons (readJob_eq_ok hjob) (ih hothers)

/-! ## Rules -/

/-- A rule for a kind of event that is supported, with at most one kind of branch filters. -/
structure Supported (r : TriggerRule) : Prop where
  /-- The kind is supported. -/
  kind : r.event = "push" ∨ r.event = "pull_request"
  /-- A kind of branch filters is left out. -/
  filters : r.branches = none ∨ r.branchesIgnore = none

lemma kind_of_supportedKind? {v : Value} {kind : String} (h : supportedKind? v = some kind) :
    kind = "push" ∨ kind = "pull_request" := by
  unfold supportedKind? at h
  split at h
  · split_ifs at h with hkind
    cases h
    simpa [eventKinds, pushKind, pullRequestKind] using hkind
  · cases h

/-- A rule without filters is supported if its kind is. -/
lemma supported_of_kind {kind : String} (h : kind = "push" ∨ kind = "pull_request") :
    Supported { event := kind } := ⟨h, Or.inl rfl⟩

lemma readRule_eq_ok {kind : String} {r : TriggerRule}
    (hkind : kind = "push" ∨ kind = "pull_request") (h : readRule kind spec = .ok r) :
    Supported r := by
  unfold readRule at h
  split at h
  · cases h
    exact supported_of_kind hkind
  · simp only [bind_eq_ok_iff] at h
    obtain ⟨branches, -, ignore, -, h⟩ := h
    split_ifs at h with hboth
    · exact absurd h (refuse_ne_ok _ _)
    · obtain ⟨types, -, h⟩ := bind_eq_ok_iff.mp h
      rw [pure_eq_ok_iff] at h
      subst h
      refine ⟨hkind, ?_⟩
      cases branches with
      | none => exact Or.inl rfl
      | some entries => exact Or.inr (by simpa using hboth)
  · exact absurd h (refuse_ne_ok _ _)

lemma readRules_eq_ok {entries : List (Value × Value)} {rules : List TriggerRule}
    (h : readRules entries = .ok rules) : ∀ r ∈ rules, Supported r := by
  induction entries generalizing rules with
  | nil =>
    cases h
    simp
  | cons entry rest ih =>
    obtain ⟨key, spec⟩ := entry
    rw [readRules] at h
    split at h
    · exact ih h
    · rename_i kind hkind
      simp only [bind_eq_ok_iff, pure_eq_ok_iff] at h
      obtain ⟨rule, hrule, others, hothers, rfl⟩ := h
      exact List.forall_mem_cons.mpr
        ⟨readRule_eq_ok (kind_of_supportedKind? hkind) hrule, ih hothers⟩

/-- Whether the events are given as one kind, as a list or as a mapping, the rules are supported. -/
lemma readTriggers_eq_ok {v : Value} {rules : List TriggerRule} (h : readTriggers v = .ok rules) :
    ∀ r ∈ rules, Supported r := by
  unfold readTriggers at h
  split at h
  · cases h
    intro r hr
    obtain ⟨kind, hkind, rfl⟩ := List.mem_map.mp hr
    exact supported_of_kind (kind_of_supportedKind? (Option.mem_toList.mp hkind))
  · cases h
    intro r hr
    obtain ⟨kind, hkind, rfl⟩ := List.mem_map.mp hr
    obtain ⟨item, -, hitem⟩ := List.mem_filterMap.mp hkind
    exact supported_of_kind (kind_of_supportedKind? hitem)
  · exact readRules_eq_ok h
  · exact absurd h (refuse_ne_ok _ _)

/-! ## Workflows -/

/-- What is read from a document that is accepted, part by part. -/
lemma ofValue_eq_ok {source : Option String} {doc : Value} {w : Workflow}
    (h : ofValue source doc = .ok w) :
    ∃ events entry rest, doc.field "jobs" = .map (entry :: rest) ∧
      readJobs (entry :: rest) = .ok w.jobs ∧ checkJobs w.jobs = .ok () ∧
      readTriggers events = .ok w.triggers ∧
      readEnvironment "env" (doc.field "env") = .ok w.env ∧ events? doc = some events := by
  unfold ofValue at h
  split_ifs at h
  · obtain ⟨name, -, h⟩ := bind_eq_ok_iff.mp h
    split at h
    · exact absurd h (refuse_ne_ok _ _)
    · rename_i events hevents
      split at h
      · rename_i entry rest hentries
        obtain ⟨jobs, hjobs, h⟩ := bind_eq_ok_iff.mp h
        split at h
        · exact absurd h (refuse_ne_ok _ _)
        · rename_i hcheck
          simp only [bind_eq_ok_iff, pure_eq_ok_iff] at h
          obtain ⟨triggers, htriggers, env, henv, rfl⟩ := h
          exact ⟨events, entry, rest, hentries, hjobs, hcheck, htriggers, henv, hevents⟩
      · exact absurd h (refuse_ne_ok _ _)
  all_goals exact absurd h (refuse_bind_ne_ok _ _ _)

/-- A workflow that is read from a text is read from the document that the text holds. -/
lemma ofText_eq_ok_iff {source : Option String} {text : String} {w : Workflow} :
    ofText source text = .ok w ↔
      ∃ doc, Yaml.load text = .ok doc ∧ ofValue source doc = .ok w := by
  rw [ofText]
  cases Yaml.load text <;> simp [ofAnswer]

/-- A workflow that is read, from the value of a document or from its text, is the one that the
document describes: its jobs and their steps are those of the document, one by one, and every part
is as it has to be. -/
theorem accepted_readFrom (source : Option String) :
    (∀ (doc : Value) (w : Workflow), ofValue source doc = .ok w → w.ReadFrom doc) ∧
      ∀ (text : String) (w : Workflow), ofText source text = .ok w →
        ∃ doc, Yaml.load text = .ok doc ∧ w.ReadFrom doc := by
  have hvalue : ∀ (doc : Value) (w : Workflow), ofValue source doc = .ok w → w.ReadFrom doc := by
    intro doc w h
    obtain ⟨events, entry, rest, hentries, hjobs, hcheck, hrules, henv, -⟩ := ofValue_eq_ok h
    have hread := readJobs_eq_ok hjobs
    have hnonempty : w.jobs ≠ [] := by
      intro hnil
      rw [hnil] at hread
      cases hread
    have hsupported := readTriggers_eq_ok hrules
    exact ⟨hnonempty, ⟨_, hentries, hread⟩, (checkJobs_eq_ok_iff _).mp hcheck,
      readEnvironment_nodup henv, fun r hr => (hsupported r hr).kind,
      fun r hr => (hsupported r hr).filters⟩
  refine ⟨hvalue, fun text w h => ?_⟩
  obtain ⟨doc, hload, hread⟩ := ofText_eq_ok_iff.mp h
  exact ⟨doc, hload, hvalue doc w hread⟩

/-- A document with a bare `on`, a number for the name of a job, and a variable that is given under
a number and under the text of the number. -/
def numberedDocument : Value :=
  .map [
    (.bool true, .map [(.text "push", .map [(.text "branches", .text "main")]), (.int 7, .null)]),
    (.text "jobs", .map [
      (.int 1, .map [(.text "steps", .list [
        .map [(.text "uses", .text "actions/checkout@v4")],
        .map [(.text "run", .text " make\n"), (.text "shell", .text "sh"),
          (.text "env", .map [(.int 1, .bool true), (.text "1", .text "two")])]])]),
      (.text "test", .map [(.text "needs", .list [.int 1]), (.text "steps", .list [
        .map [(.text "name", .int 2), (.text "run", .text "make test")]])])])]

/-- The document is accepted, and its variable is one. -/
theorem accepted_readFrom_numberedDocument :
    ∃ w, ofValue none numberedDocument = .ok w ∧ w.ReadFrom numberedDocument ∧
      w.jobs.map (fun job => (job.name, job.needs, job.steps.map Step.name)) =
        [("1", [], ["Run actions/checkout@v4", "Run make"]), ("test", ["1"], ["2"])] ∧
      w.steps.map (fun p => p.2.env) = [[], [("1", "two")], []] := by
  have hjobs : (ofValue none numberedDocument).toOption.map
      (fun w => w.jobs.map fun job => (job.name, job.needs, job.steps.map Step.name)) =
        some [("1", [], ["Run actions/checkout@v4", "Run make"]), ("test", ["1"], ["2"])] := by
    decide +kernel
  have hsteps : (ofValue none numberedDocument).toOption.map
      (fun w => w.steps.map fun p => p.2.env) = some [[], [("1", "two")], []] := by
    decide +kernel
  cases hread : ofValue none numberedDocument with
  | error reason =>
    rw [hread] at hjobs
    cases hjobs
  | ok w =>
    rw [hread] at hjobs hsteps
    exact ⟨w, rfl, (accepted_readFrom none).1 _ w hread, Option.some.inj hjobs,
      Option.some.inj hsteps⟩

end Workflow

end CiRunner
