import CiRunner.Proofs.Decimal.Doubles
import CiRunner.Proofs.Success
import CiRunner.Proofs.Workflow.Order
import CiRunner.Workflow.Document
import Mathlib.Data.List.TakeWhile
import Mathlib.Tactic.FinCases

/-!
# Workflows as documents

A workflow is written as a document: a mapping with its name, its events, its variables and its
jobs, in which what is absent is left out.  Reading the document gives back the workflow, whichever
way its choices are written: an empty list or mapping may stand there or be left out, and the events
may stand under `on` or under the truth value that a bare `on` is.

Every reader reads back what the writer of its part writes.  The fields of a mapping are looked up
one by one (`get?_ofFields_cons`), so the order in which they are written does not matter to the
readers.
-/

namespace CiRunner

open Success Text

/-! ## The writer -/

/-- The choices that are left to the writer of a document. -/
structure WritingStyle where
  /-- Whether lists and mappings without entries are left out. -/
  brief : Bool := true
  /-- Whether the events stand under a truth value, as those under a bare `on` do. -/
  bareOn : Bool := false

namespace Value

/-- The mapping with some fields, of which those without a value are left out. -/
def ofFields (fields : List (Value × Option Value)) : Value :=
  map (fields.filterMap fun f => f.2.map (f.1, ·))

/-- Texts as a list. -/
def ofTexts (texts : List String) : Value := list (texts.map text)

/-- Variables as a mapping. -/
def ofVariables (env : Environment) : Value := map (env.map fun e => (text e.1, text e.2))

/-- A value, unless there is none. -/
def given? : Value → Option Value
  | null => none
  | v => some v

end Value

/-- A list or a mapping, unless it is left out. -/
def WritingStyle.entries? (style : WritingStyle) (v : Value) : Option Value :=
  if style.brief && !v.truthy then none else some v

/-- The key of the events. -/
def WritingStyle.eventsKey (style : WritingStyle) : Value :=
  if style.bareOn then .bool true else .text "on"

/-- The filters of a rule as a mapping. -/
def TriggerRule.filters (r : TriggerRule) : Value :=
  .ofFields [
    (.text "branches", r.branches.map .ofTexts),
    (.text "branches-ignore", r.branchesIgnore.map .ofTexts),
    (.text "types", r.types.map .ofTexts)]

/-- A rule as the value at its kind of event. -/
def TriggerRule.toValue (style : WritingStyle) (r : TriggerRule) : Value :=
  (style.entries? r.filters).getD .null

/-- A step as a mapping. -/
def Step.toValue (style : WritingStyle) (s : Step) : Value :=
  .ofFields [
    (.text "name", some (.text s.name)),
    (.text "run", s.run.map .text),
    (.text "uses", s.uses.map .text),
    (.text "with", style.entries? (.ofVariables s.inputs)),
    (.text "env", style.entries? (.ofVariables s.env)),
    (.text "working-directory", s.cwd.given?),
    (.text "shell", some (.text s.shell)),
    (.text "timeout-minutes", s.timeoutMinutes.map .float)]

/-- A job as a mapping. -/
def Job.toValue (style : WritingStyle) (j : Job) : Value :=
  .ofFields [
    (.text "runs-on", j.runsOn.map .text),
    (.text "needs", style.entries? (.ofTexts j.needs)),
    (.text "env", style.entries? (.ofVariables j.env)),
    (.text "timeout-minutes", j.timeoutMinutes.map .float),
    (.text "steps", some (.list (j.steps.map (Step.toValue style))))]

/-- A workflow as a document. -/
def Workflow.toValue (style : WritingStyle) (w : Workflow) : Value :=
  .ofFields [
    (.text "name", some (.text w.name)),
    (style.eventsKey,
      some (.map (w.triggers.map fun r => (.text r.event, r.toValue style)))),
    (.text "env", style.entries? (.ofVariables w.env)),
    (.text "jobs", some (.map (w.jobs.map fun j => (.text j.name, j.toValue style))))]

/-! ## What can be written -/

/-- A time limit is absent or positive. -/
def IsLimit (limit : Option Float) : Prop := ∀ x, limit = some x → 0.0 < x

/-- A step that can be written. -/
structure Step.IsWritable (s : Step) : Prop where
  /-- There is either a command, which is not blank, or an action. -/
  task : (∃ command, s.run = some command ∧ s.uses = none ∧
      ∃ c ∈ command.toList, isBlank c = false) ∨ ∃ action, s.run = none ∧ s.uses = some action
  /-- The shell is one of two. -/
  shell : s.shell = "bash" ∨ s.shell = "sh"
  /-- No variable is given twice. -/
  env : s.env.names.Nodup
  /-- No input is given twice. -/
  inputs : s.inputs.names.Nodup
  /-- The time limit is positive. -/
  limit : IsLimit s.timeoutMinutes

/-- A job that can be written. -/
structure Job.IsWritable (j : Job) : Prop where
  /-- The steps can be written. -/
  steps : ∀ s ∈ j.steps, s.IsWritable
  /-- No variable is given twice. -/
  env : j.env.names.Nodup
  /-- The time limit is positive. -/
  limit : IsLimit j.timeoutMinutes

/-- A workflow that can be written. -/
structure Workflow.IsWritable (w : Workflow) : Prop where
  /-- There is a name. -/
  name : w.name ≠ ""
  /-- There is a job. -/
  nonempty : w.jobs ≠ []
  /-- The names of the jobs are distinct, each has a step, and each depends on earlier ones only. -/
  ordered : WellOrdered w.jobs
  /-- The jobs can be written. -/
  jobs : ∀ j ∈ w.jobs, j.IsWritable
  /-- The rules are for pushes and pull requests. -/
  kinds : ∀ r ∈ w.triggers, r.event = "push" ∨ r.event = "pull_request"
  /-- There is one rule for a kind of event. -/
  distinct : (w.triggers.map TriggerRule.event).Nodup
  /-- No rule has both kinds of branch filters. -/
  filters : ∀ r ∈ w.triggers, r.branches = none ∨ r.branchesIgnore = none
  /-- No variable is given twice. -/
  env : w.env.names.Nodup

/-! ## Fields -/

namespace Value

@[simp] lemma get?_ofFields_nil (name : String) : (ofFields []).get? name = none := rfl

/-- A field is looked up among the fields one by one. -/
@[simp] lemma get?_ofFields_cons (key : Value) (v : Option Value)
    (rest : List (Value × Option Value)) (name : String) :
    (ofFields ((key, v) :: rest)).get? name =
      if key.same (text name) then v.or ((ofFields rest).get? name)
      else (ofFields rest).get? name := by
  cases v with
  | none => simp [ofFields]
  | some v =>
    simp only [ofFields, get?, lookup, List.filterMap_cons, Option.map_some, List.find?_cons]
    split <;> simp_all

/-- A value that is given is read as itself. -/
@[simp] lemma getD_given? (v : Value) : v.given?.getD null = v := by
  cases v <;> rfl

end Value

/-- The key of the events is no other one. -/
@[simp] lemma WritingStyle.same_eventsKey (style : WritingStyle) {name : String}
    (h : name ≠ "on") : style.eventsKey.same (.text name) = false := by
  unfold eventsKey
  split_ifs
  · rfl
  · simpa using h.symm

/-- A list or a mapping that is left out has no entries. -/
lemma WritingStyle.getD_entries? (style : WritingStyle) (v : Value) :
    (style.entries? v).getD .null = v ∨
      (style.entries? v).getD .null = .null ∧ v.truthy = false := by
  unfold entries?
  split_ifs with hempty
  · exact Or.inr ⟨rfl, by simpa using (Bool.and_eq_true_iff.mp hempty).2⟩
  · exact Or.inl rfl

/-! ## Reading back -/

namespace Workflow

variable {style : WritingStyle} (place : String)

/-- A variable that is new comes last. -/
lemma set_of_notMem {env : Environment} {name : String} (h : name ∉ env.names) (value : String) :
    env.set name value = env ++ [(name, value)] := by
  induction env with
  | nil => rfl
  | cons e rest ih =>
    rw [Environment.names, List.map_cons, List.mem_cons, not_or] at h
    rw [Environment.set, if_neg (Ne.symm h.1), ih h.2, List.cons_append]

/-- Variables are read in their order after those read before. -/
lemma readVariables_ofVariables {env more : Environment} (h : (env ++ more).names.Nodup) :
    readVariables place env (more.map fun e => (Value.text e.1, Value.text e.2)) =
      .ok (env ++ more) := by
  induction more generalizing env with
  | nil => rw [List.append_nil, List.map_nil, readVariables]
  | cons e rest ih =>
    have hnew : e.1 ∉ env.names := by
      rw [Environment.names, List.map_append, List.nodup_append] at h
      exact fun hmem => h.2.2 _ hmem _ List.mem_cons_self rfl
    have hset : env.set e.1 e.2 = env ++ [e] := set_of_notMem hnew e.2
    calc readVariables place env ((e :: rest).map fun e => (Value.text e.1, Value.text e.2))
        = readVariables place (env.set e.1 e.2)
            (rest.map fun e => (Value.text e.1, Value.text e.2)) := rfl
      _ = .ok (env.set e.1 e.2 ++ rest) := ih (by rwa [hset, ← List.append_cons])
      _ = .ok (env ++ e :: rest) := by rw [hset, ← List.append_cons]

/-- Variables are read back. -/
@[simp] lemma readEnvironment_entries? {env : Environment} (h : env.names.Nodup) :
    readEnvironment place ((style.entries? (.ofVariables env)).getD .null) = .ok env := by
  rcases style.getD_entries? (.ofVariables env) with hentries | ⟨hentries, hempty⟩
  · rw [hentries]
    exact readVariables_ofVariables place (by simpa using h)
  · rw [hentries]
    have hnil : env = [] := by simpa [Value.ofVariables, Value.truthy] using hempty
    rw [hnil]
    rfl

/-- A time limit is read back. -/
@[simp] lemma readLimit_float {limit : Option Float} (h : IsLimit limit) :
    readLimit place ((limit.map .float).getD .null) = .ok limit := by
  cases limit with
  | none => rfl
  | some x => exact if_neg (Decimal.not_le_zero_of_pos (h x rfl))

/-- What reads a text as itself reads back a list of texts. -/
lemma mapM_text {f : Value → Option String} (hf : ∀ s, f (.text s) = some s)
    (texts : List String) : (texts.map Value.text).mapM f = some texts := by
  induction texts with
  | nil => rfl
  | cons s rest ih => simp [hf, ih]

/-- Patterns are read back. -/
@[simp] lemma readPatterns_ofTexts (patterns : Option (List String)) :
    readPatterns place ((patterns.map .ofTexts).getD .null) = .ok patterns := by
  cases patterns with
  | none => rfl
  | some patterns =>
    rw [Option.map_some, Option.getD_some, Value.ofTexts, readPatterns,
      mapM_text (fun _ => rfl) patterns]

/-- The filters of a mapping are read one by one. -/
lemma readRule_of_isMap (kind : String) {spec : Value} (h : spec.isMap = true) :
    readRule kind spec = (do
      let branches ← readPatterns ("on." ++ kind ++ ".branches") (spec.field "branches")
      let ignore ← readPatterns ("on." ++ kind ++ ".branches-ignore")
        (spec.field "branches-ignore")
      if branches.isSome && ignore.isSome then refuse (.bothFilters kind)
      else
        let types ← readPatterns ("on." ++ kind ++ ".types") (spec.field "types")
        pure { event := kind, branches, branchesIgnore := ignore, types }) := by
  cases spec with
  | map entries => rfl
  | _ => cases h

/-- The filters of a rule are read back, unless there are both kinds of branch filters. -/
lemma readRule_filters (kind : String) (r : TriggerRule) :
    readRule kind r.filters =
      if r.branches.isSome && r.branchesIgnore.isSome then refuse (.bothFilters kind)
      else .ok { r with event := kind } := by
  have hbranches : r.filters.field "branches" = (r.branches.map .ofTexts).getD .null := by
    simp [TriggerRule.filters, Value.field]
  have hignore : r.filters.field "branches-ignore" =
      (r.branchesIgnore.map .ofTexts).getD .null := by simp [TriggerRule.filters, Value.field]
  have htypes : r.filters.field "types" = (r.types.map .ofTexts).getD .null := by
    simp [TriggerRule.filters, Value.field]
  rw [readRule_of_isMap _ rfl, hbranches, hignore, htypes]
  simp only [readPatterns_ofTexts, bind, Except.bind]
  rfl

/-- A rule is read back. -/
lemma readRule_toValue {r : TriggerRule} (h : r.branches = none ∨ r.branchesIgnore = none) :
    readRule r.event (r.toValue style) = .ok r := by
  rw [TriggerRule.toValue]
  rcases style.getD_entries? r.filters with hfilters | ⟨hfilters, hempty⟩
  · have hone : ¬(r.branches.isSome && r.branchesIgnore.isSome) = true := by
      rcases h with h | h <;> simp [h]
    rw [hfilters, readRule_filters, if_neg hone]
  · -- a rule without filters is written as nothing
    obtain ⟨event, branches, branchesIgnore, types⟩ := r
    have hnone : branches = none ∧ branchesIgnore = none ∧ types = none := by
      simpa [TriggerRule.filters, Value.ofFields, Value.truthy] using hempty
    obtain ⟨rfl, rfl, rfl⟩ := hnone
    rw [hfilters]
    rfl

/-- The text of a supported kind names it. -/
lemma supportedKind?_of_mem {kind : String} (h : kind ∈ eventKinds) :
    supportedKind? (.text kind) = some kind :=
  if_pos (List.contains_iff_mem.mpr h)

/-- Rules are read back in their order. -/
lemma readRules_toValue {rules : List TriggerRule}
    (hkinds : ∀ r ∈ rules, r.event = "push" ∨ r.event = "pull_request")
    (hfilters : ∀ r ∈ rules, r.branches = none ∨ r.branchesIgnore = none) :
    readRules (rules.map fun r => (.text r.event, r.toValue style)) = .ok rules := by
  induction rules with
  | nil => rfl
  | cons r rest ih =>
    rw [List.forall_mem_cons] at hkinds hfilters
    have hkind : r.event ∈ eventKinds := List.mem_pair.mpr hkinds.1
    rw [List.map_cons, readRules, supportedKind?_of_mem hkind]
    simp only [readRule_toValue hfilters.1, ih hkinds.2 hfilters.2]
    rfl

/-! ### Steps and jobs -/

/-- A text with a character that is not blank is not empty after trimming. -/
lemma trim_ne_empty {s : String} (h : ∃ c ∈ s.toList, isBlank c = false) : trim s ≠ "" := by
  intro hempty
  have hright : ∀ c ∈ trimLeft s.toList, isBlank c = true := by
    simpa [trim, trimChars, trimRight] using hempty
  have hleft : trimLeft s.toList = [] := by
    by_contra hne
    have hhead : isBlank ((trimLeft s.toList).head hne) = false :=
      List.head_dropWhile_not isBlank hne
    rw [hright _ (List.head_mem hne)] at hhead
    cases hhead
  obtain ⟨c, hc, hblank⟩ := h
  rw [List.dropWhile_eq_nil_iff.mp hleft c hc] at hblank
  cases hblank

/-- The task of a step is read back. -/
lemma readTask_toValue {s : Step} (h : s.IsWritable) :
    readTask place (s.toValue style) = .ok (s.run, s.uses) := by
  have hrun : (s.toValue style).field "run" = (s.run.map .text).getD .null := by
    simp [Step.toValue, Value.field]
  have huses : (s.toValue style).field "uses" = (s.uses.map .text).getD .null := by
    simp [Step.toValue, Value.field]
  rw [readTask, hrun, huses]
  rcases h.task with ⟨command, hcommand, hnone, hblank⟩ | ⟨action, hnone, haction⟩
  · simp [hcommand, hnone, trim_ne_empty hblank]
  · simp [haction, hnone]

/-- The shell of a step is read back. -/
lemma readShell_toValue {s : Step} (h : s.IsWritable) :
    readShell place (s.toValue style) = .ok s.shell := by
  have hshell : (s.toValue style).get? "shell" = some (.text s.shell) := by simp [Step.toValue]
  rw [readShell, hshell]
  rcases h.shell with hs | hs <;> rw [hs] <;> rfl

/-- The name of a step is read back, also if it is the one that would be made up. -/
lemma stepName_toValue (s : Step) : stepName (s.toValue style) s.run s.uses = s.name := by
  simp [stepName, Step.toValue, Value.field]

/-- A step is read back. -/
lemma readStep_toValue {s : Step} (h : s.IsWritable) :
    readStep place (s.toValue style) = .ok s := by
  have hinputs : (s.toValue style).field "with" =
      (style.entries? (.ofVariables s.inputs)).getD .null := by simp [Step.toValue, Value.field]
  have henv : (s.toValue style).field "env" =
      (style.entries? (.ofVariables s.env)).getD .null := by simp [Step.toValue, Value.field]
  have hlimit : (s.toValue style).field "timeout-minutes" =
      (s.timeoutMinutes.map .float).getD .null := by simp [Step.toValue, Value.field]
  have hcwd : (s.toValue style).field "working-directory" = s.cwd := by
    simp [Step.toValue, Value.field]
  have hmap : (s.toValue style).isMap = true := rfl
  rw [readStep, hinputs, henv, hlimit, hcwd, hmap, readTask_toValue place h,
    readShell_toValue place h, readEnvironment_entries? _ h.inputs,
    readEnvironment_entries? _ h.env, readLimit_float _ h.limit]
  exact congrArg (fun name => Except.ok { s with name }) (stepName_toValue s)

/-- Steps are read back in their order. -/
lemma readSteps_toValue (index : ℕ) {steps : List Step} (h : ∀ s ∈ steps, s.IsWritable) :
    readSteps place index (steps.map (Step.toValue style)) = .ok steps := by
  induction steps generalizing index with
  | nil => rfl
  | cons s rest ih =>
    rw [List.forall_mem_cons] at h
    rw [List.map_cons, readSteps, readStep_toValue _ h.1, ih (index + 1) h.2]
    rfl

/-- The names of the jobs that a job depends on are read back. -/
lemma readNeeds_entries? (needs : List String) :
    readNeeds ((style.entries? (.ofTexts needs)).getD .null) = .ok needs := by
  rcases style.getD_entries? (.ofTexts needs) with hentries | ⟨hentries, hempty⟩
  · rw [hentries]
    cases needs with
    | nil => rfl
    | cons need rest => simp [readNeeds, Value.ofTexts, Value.truthy, Function.comp_def]
  · have hnil : needs = [] := by simpa [Value.ofTexts, Value.truthy] using hempty
    rw [hentries, hnil]
    rfl

/-- The label of a machine is read back. -/
lemma readLabel_text (label : Option String) :
    readLabel ((label.map .text).getD .null) = label := by
  cases label <;> rfl

/-- A job is read back. -/
lemma readJob_toValue {j : Job} (h : j.IsWritable) (hsteps : j.steps ≠ []) :
    readJob j.name (j.toValue style) = .ok j := by
  have hlisted : (j.toValue style).field "steps" = .list (j.steps.map (Step.toValue style)) := by
    simp [Job.toValue, Value.field]
  have henv : (j.toValue style).field "env" =
      (style.entries? (.ofVariables j.env)).getD .null := by simp [Job.toValue, Value.field]
  have hneeds : (j.toValue style).field "needs" =
      (style.entries? (.ofTexts j.needs)).getD .null := by simp [Job.toValue, Value.field]
  have hlimit : (j.toValue style).field "timeout-minutes" =
      (j.timeoutMinutes.map .float).getD .null := by simp [Job.toValue, Value.field]
  have hlabel : (j.toValue style).field "runs-on" = (j.runsOn.map .text).getD .null := by
    simp [Job.toValue, Value.field]
  have hmap : (j.toValue style).isMap = true := rfl
  have hread : readSteps ("jobs." ++ j.name) 0 (j.steps.map (Step.toValue style)) = .ok j.steps :=
    readSteps_toValue _ 0 h.steps
  obtain ⟨first, rest, hcons⟩ := List.exists_cons_of_ne_nil hsteps
  rw [hcons, List.map_cons] at hlisted hread
  rw [readJob, hlisted, henv, hneeds, hlimit, hlabel, hmap]
  simp only [hread, readEnvironment_entries? _ h.env, readNeeds_entries?,
    readLimit_float _ h.limit, readLabel_text, ← hcons]
  rfl

/-- Jobs are read back in their order. -/
lemma readJobs_toValue {jobs : List Job} (h : ∀ j ∈ jobs, j.IsWritable)
    (hsteps : ∀ j ∈ jobs, j.steps ≠ []) :
    readJobs (jobs.map fun j => (.text j.name, j.toValue style)) = .ok jobs := by
  induction jobs with
  | nil => rfl
  | cons j rest ih =>
    rw [List.forall_mem_cons] at h hsteps
    rw [List.map_cons, readJobs, Value.display_text, readJob_toValue h.1 hsteps.1,
      ih h.2 hsteps.2]
    rfl

/-! ### The workflow -/

/-- The events of a workflow stand where they are looked up. -/
lemma events?_toValue (w : Workflow) :
    events? (w.toValue style) =
      some (.map (w.triggers.map fun r => (.text r.event, r.toValue style))) := by
  rw [toValue, WritingStyle.eventsKey, Value.ofFields, events?]
  cases style.bareOn with
  | false => rfl
  | true => cases style.entries? (.ofVariables w.env) <;> rfl

/-- The name of a workflow is read back. -/
lemma readName_toValue (source : Option String) {w : Workflow} (h : w.name ≠ "") :
    readName source (w.toValue style) = .ok w.name := by
  have hname : (w.toValue style).field "name" = .text w.name := by
    simp [toValue, Value.field]
  simp [readName, hname, Value.truthy, h]

/-- Writing a workflow as a document and reading the document gives back the workflow, with its
rules, jobs, steps, patterns and variables in their order, also when the document is given as a
text. -/
theorem ofValue_toValue (style : WritingStyle) {w : Workflow} (h : w.IsWritable) :
    ofValue w.source (w.toValue style) = .ok w ∧
      ∀ text, Yaml.load text = .ok (w.toValue style) → ofText w.source text = .ok w := by
  have hvalue : ofValue w.source (w.toValue style) = .ok w := by
    have hjobs : (w.toValue style).field "jobs" =
        .map (w.jobs.map fun j => (.text j.name, j.toValue style)) := by
      simp [toValue, Value.field]
    have henv : (w.toValue style).field "env" =
        (style.entries? (.ofVariables w.env)).getD .null := by simp [toValue, Value.field]
    have hread : readJobs (w.jobs.map fun j => (.text j.name, j.toValue style)) = .ok w.jobs :=
      readJobs_toValue h.jobs h.ordered.steps
    obtain ⟨first, rest, hcons⟩ := List.exists_cons_of_ne_nil h.nonempty
    rw [hcons, List.map_cons] at hjobs hread
    have htruthy : (w.toValue style).truthy = true := rfl
    have hmap : (w.toValue style).isMap = true := rfl
    rw [ofValue, readName_toValue _ h.name, events?_toValue, hjobs, henv, htruthy, hmap]
    simp only [hread, ← hcons, readEnvironment_entries? _ h.env, readTriggers,
      readRules_toValue h.kinds h.filters, bind, Except.bind, (checkJobs_eq_ok_iff _).mpr h.ordered]
    rfl
  refine ⟨hvalue, fun text hload => ?_⟩
  rw [ofText, hload]
  exact hvalue

/-- A workflow with a filter that lets no branch through, an empty variable, an empty label and a
time limit. -/
def variedWorkflow : Workflow where
  name := "ci"
  triggers := [{ event := "pull_request" }, { event := "push", branches := some [] }]
  env := [("B", ""), ("A", "b")]
  jobs := [
    { name := "check"
      runsOn := some ""
      steps := [
        { name := "", uses := some "actions/checkout@v4", inputs := [("ref", "dev")] },
        { name := "Run make", run := some " make\n", shell := "sh", timeoutMinutes := some 2.5 }] },
    { name := "pack", needs := ["check"], steps := [{ name := "Pack", run := some "make dist" }] }]

/-- The workflow is read back, with or without its empty parts. -/
theorem ofValue_toValue_variedWorkflow :
    variedWorkflow.IsWritable ∧
      ofValue none (variedWorkflow.toValue {}) = .ok variedWorkflow ∧
      ofValue none (variedWorkflow.toValue { brief := false, bareOn := true }) =
        .ok variedWorkflow := by
  have hwritable : variedWorkflow.IsWritable := by
    refine ⟨by decide, by decide, (checkJobs_eq_ok_iff _).mp rfl, ?_, by decide, by decide,
      by decide, by decide⟩
    have hlimit : IsLimit (some 2.5) := by
      rintro x ⟨⟩
      decide +kernel
    intro j hj
    fin_cases hj <;> refine ⟨fun s hs => ?_, by decide, nofun⟩ <;> fin_cases hs
    · exact ⟨Or.inr ⟨_, rfl, rfl⟩, Or.inl rfl, by decide, by decide, nofun⟩
    · exact ⟨Or.inl ⟨_, rfl, rfl, 'm', by decide, by decide⟩, Or.inr rfl, by decide, by decide,
        hlimit⟩
    · exact ⟨Or.inl ⟨_, rfl, rfl, 'm', by decide, by decide⟩, Or.inl rfl, by decide, by decide,
        nofun⟩
  exact ⟨hwritable, (ofValue_toValue {} hwritable).1,
    (ofValue_toValue { brief := false, bareOn := true } hwritable).1⟩

end Workflow

end CiRunner
