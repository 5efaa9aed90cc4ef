import CiRunner.Proofs.Decimal.Doubles
import CiRunner.Proofs.Plain
import CiRunner.Proofs.Search
import CiRunner.Proofs.Workflow.Reading
import CiRunner.Proofs.Workflow.Writing

/-!
# Errors without a message

A definition is read, or it is refused with a message that names the part that is wrong.  Three
kinds of errors escape without one: those that the reader of documents raises itself, such as that a
scalar is not what its form or its tag says, a single value where the names of jobs are asked for,
and a time limit beyond every double.

The parts of a definition are described as they have to be (`Value.IsStep`, `Value.IsJob`).  A
reader comes to a value exactly if its part is so, and it raises an error without a message exactly
in the cases that are listed (`Value.JobRaises`, `Value.DocumentRaises`).  The parts are read one
after the other, so an error of a part is raised only if nothing before it is refused.
-/

namespace CiRunner

open Decimal Success Text

/-- An error has no message. -/
def DefinitionError.IsUntold : DefinitionError → Prop
  | .refused _ => False
  | _ => True

/-! ## Parts as they have to be -/

namespace Value

/-- Variables are absent or a mapping, and none of them is a list or a mapping. -/
def IsVariables : Value → Prop
  | null => True
  | map entries => ∀ e ∈ entries, Workflow.isCollection e.2 = false
  | _ => False

/-- An integer is at least half a unit of the last place beyond the greatest double. -/
def IsBeyond : Value → Prop
  | int n => ((twoTo 1024 - twoTo 970 : ℕ) : ℤ) ≤ n
  | _ => False

/-- A time limit is absent, a positive integer that is not beyond every double, or a double that is
not at most zero. -/
def IsTimeLimit : Value → Prop
  | null => True
  | int n => 0 < n ∧ ¬(int n).IsBeyond
  | float x => ¬x ≤ 0.0
  | _ => False

/-- A single value that does not count as absent and is no text: a truth value, a number or a time.
It cannot be gone through like a list. -/
def IsLone : Value → Prop
  | bool b => b = true
  | int n => n ≠ 0
  | float x => (x == 0.0) = false
  | date _ | moment _ => True
  | _ => False

/-- A step has either a command, which is not blank, or an action. -/
def IsTask (spec : Value) : Prop :=
  (∃ command, spec.field "run" = text command ∧ spec.field "uses" = null ∧
      ∃ c ∈ command.toList, isBlank c = false) ∨
    ∃ action, spec.field "run" = null ∧ spec.field "uses" = text action

/-- The shell of a step is left out or one of two. -/
def IsShell (spec : Value) : Prop :=
  spec.get? "shell" = none ∨ spec.get? "shell" = some (text "bash") ∨
    spec.get? "shell" = some (text "sh")

/-- A step is as it has to be, its time limit apart. -/
structure IsStepButLimit (spec : Value) : Prop where
  /-- There is either a command or an action. -/
  task : spec.IsTask
  /-- The shell is known. -/
  shell : spec.IsShell
  /-- The inputs can be read. -/
  inputs : (spec.field "with").IsVariables
  /-- The variables can be read. -/
  env : (spec.field "env").IsVariables

/-- A step is as it has to be. -/
def IsStep (spec : Value) : Prop :=
  spec.IsStepButLimit ∧ (spec.field "timeout-minutes").IsTimeLimit

/-- A step is as it has to be, but its time limit is beyond every double. -/
def StepRaises (spec : Value) : Prop :=
  spec.IsStepButLimit ∧ (spec.field "timeout-minutes").IsBeyond

/-- A job is as it has to be up to what it depends on: it lists steps, and its variables can be
read. -/
structure IsJobToNeeds (spec : Value) : Prop where
  /-- There are steps, and all are as they have to be. -/
  steps : ∃ specs, spec.field "steps" = list specs ∧ specs ≠ [] ∧ ∀ s ∈ specs, s.IsStep
  /-- The variables can be read. -/
  env : (spec.field "env").IsVariables

/-- A job is as it has to be. -/
def IsJob (spec : Value) : Prop :=
  spec.IsJobToNeeds ∧ ¬(spec.field "needs").IsLone ∧ (spec.field "timeout-minutes").IsTimeLimit

/-- A job raises an error without a message. -/
inductive JobRaises (spec : Value) : DefinitionError → Prop
  /-- The time limit of a step is beyond every double. -/
  | step {specs : List Value} {s : Value} (hspecs : spec.field "steps" = list specs)
      (hs : Reaches (¬·.IsStep) specs s) (h : s.StepRaises) : JobRaises spec .tooLarge
  /-- A single value stands where the names of jobs are asked for. -/
  | needs (h : spec.IsJobToNeeds) (hlone : (spec.field "needs").IsLone) :
      JobRaises spec .notIterable
  /-- The time limit of the job is beyond every double. -/
  | limit (h : spec.IsJobToNeeds) (hneeds : ¬(spec.field "needs").IsLone)
      (hbeyond : (spec.field "timeout-minutes").IsBeyond) : JobRaises spec .tooLarge

/-- A document raises an error without a message: one of its jobs does, nothing before the jobs is
wrong, and the jobs before that one are as they have to be. -/
structure DocumentRaises (doc : Value) (fault : DefinitionError) : Prop where
  /-- The name counts as absent or is a text. -/
  name : (doc.field "name").truthy = true → ∃ s, doc.field "name" = text s
  /-- There are events, whatever they are. -/
  events : ∃ v, Workflow.events? doc = some v
  /-- A job raises the error. -/
  job : ∃ entries, doc.field "jobs" = map entries ∧
    ∃ e, Reaches (fun e => ¬e.2.IsJob) entries e ∧ e.2.JobRaises fault

end Value

namespace Workflow

open Value

variable {α β : Type} {place : String} {spec v : Value} {fault : DefinitionError}

/-! ## Answers -/

/-- A definition is answered: it is read, or refused with a message. -/
def IsAnswered (answer : Except DefinitionError α) : Prop :=
  (∃ a, answer = .ok a) ∨ ∃ reason, answer = .error (.refused reason)

lemma isAnswered_ok (a : α) : IsAnswered (.ok a) := Or.inl ⟨a, rfl⟩

lemma isAnswered_refuse (reason : WorkflowError) :
    IsAnswered (refuse reason : Except DefinitionError α) := Or.inr ⟨reason, rfl⟩

lemma isAnswered_refuse_bind (reason : WorkflowError) (f : α → Except DefinitionError β) :
    IsAnswered (refuse reason >>= f) := Or.inr ⟨reason, rfl⟩

/-- A chain is answered if its parts are. -/
lemma IsAnswered.bind {m : Except DefinitionError α} {f : α → Except DefinitionError β}
    (hm : IsAnswered m) (hf : ∀ a, IsAnswered (f a)) : IsAnswered (m >>= f) := by
  obtain ⟨a, rfl⟩ | ⟨reason, rfl⟩ := hm
  · exact hf a
  · exact isAnswered_refuse_bind reason f

/-- What is answered fails with no error without a message. -/
lemma IsAnswered.ne_error {m : Except DefinitionError α} (hm : IsAnswered m)
    (h : fault.IsUntold) : m ≠ .error fault := by
  obtain ⟨a, rfl⟩ | ⟨reason, rfl⟩ := hm
  · rintro ⟨⟩
  · rintro ⟨⟩
    exact h

/-! ## What the readers come to -/

/-! ### Variables and limits -/

lemma isAnswered_readVariables {env : Environment} {entries : List (Value × Value)} :
    IsAnswered (readVariables place env entries) := by
  induction entries generalizing env with
  | nil => exact isAnswered_ok env
  | cons e rest ih =>
    rw [readVariables]
    split_ifs
    · exact isAnswered_refuse _
    · exact ih

lemma isAnswered_readEnvironment : IsAnswered (readEnvironment place v) := by
  unfold readEnvironment
  split
  · exact isAnswered_ok _
  · exact isAnswered_readVariables
  · exact isAnswered_refuse _

lemma exists_readVariables_eq_ok_iff {env : Environment} {entries : List (Value × Value)} :
    (∃ env', readVariables place env entries = .ok env') ↔
      ∀ e ∈ entries, isCollection e.2 = false := by
  induction entries generalizing env with
  | nil => simp [readVariables]
  | cons e rest ih =>
    rw [readVariables, List.forall_mem_cons]
    cases hcollection : isCollection e.2 with
    | true => simp
    | false => simpa using ih

lemma exists_readEnvironment_eq_ok_iff :
    (∃ env, readEnvironment place v = .ok env) ↔ v.IsVariables := by
  cases v <;> simp [readEnvironment, IsVariables, exists_readVariables_eq_ok_iff]

lemma ofInt?_eq_none_iff_isBeyond {n : ℤ} (h : 0 < n) :
    Binary.ofInt? n = none ↔ (int n).IsBeyond := by
  rw [Binary.ofInt?_eq_none_iff, IsBeyond]
  omega

lemma not_isBeyond_of_nonpos {n : ℤ} (h : n ≤ 0) : ¬(int n).IsBeyond := by
  have hpos := Binary.beyond_pos
  rw [IsBeyond]
  omega

lemma exists_readLimit_eq_ok_iff : (∃ limit, readLimit place v = .ok limit) ↔ v.IsTimeLimit := by
  cases v with
  | int n =>
    rw [readLimit, IsTimeLimit]
    by_cases hpos : 0 < n
    · rw [if_neg (not_le.mpr hpos), ← ofInt?_eq_none_iff_isBeyond hpos]
      cases Binary.ofInt? n <;> simp [hpos]
    · simp [not_lt.mp hpos, hpos]
  | float x => by_cases hx : x ≤ 0.0 <;> simp [readLimit, IsTimeLimit, hx]
  | _ => simp [readLimit, IsTimeLimit]

lemma readLimit_eq_error_iff (h : fault.IsUntold) :
    readLimit place v = .error fault ↔ fault = .tooLarge ∧ v.IsBeyond := by
  cases v with
  | int n =>
    rw [readLimit]
    by_cases hpos : 0 < n
    · rw [if_neg (not_le.mpr hpos), ← ofInt?_eq_none_iff_isBeyond hpos]
      cases Binary.ofInt? n <;> simp [eq_comm]
    · simp [not_lt.mp hpos, (isAnswered_refuse _).ne_error h, not_isBeyond_of_nonpos]
  | float x =>
    by_cases hx : x ≤ 0.0 <;> simp [readLimit, IsBeyond, hx, (isAnswered_refuse _).ne_error h]
  | _ => simp [readLimit, IsBeyond, (isAnswered_refuse _).ne_error h]

/-! ### Needs -/

/-- What a job depends on is read, unless it is a single value. -/
lemma readNeeds_cases (v : Value) :
    (v.IsLone ∧ readNeeds v = .error .notIterable) ∨
      ¬v.IsLone ∧ ∃ needs, readNeeds v = .ok needs := by
  by_cases htruthy : v.truthy = false
  · -- what counts as absent stands for no names, whatever it is
    refine Or.inr ⟨?_, [], if_pos htruthy⟩
    cases v <;> simp_all [IsLone, truthy]
  · cases v <;> simp_all [readNeeds, IsLone, truthy]

lemma exists_readNeeds_eq_ok_iff : (∃ needs, readNeeds v = .ok needs) ↔ ¬v.IsLone := by
  rcases readNeeds_cases v with ⟨hlone, hread⟩ | ⟨hlone, needs, hread⟩ <;> simp [hlone, hread]

lemma readNeeds_eq_error_iff :
    readNeeds v = .error fault ↔ fault = .notIterable ∧ v.IsLone := by
  rcases readNeeds_cases v with ⟨hlone, hread⟩ | ⟨hlone, needs, hread⟩ <;>
    simp [hlone, hread, eq_comm]

/-! ### Steps -/

lemma isAnswered_readTask : IsAnswered (readTask place spec) := by
  unfold readTask
  split
  case h_2 => exact isAnswered_ok _
  case h_4 =>
    split_ifs
    · exact isAnswered_refuse _
    · exact isAnswered_ok _
  all_goals exact isAnswered_refuse _

lemma exists_readTask_eq_ok_iff : (∃ task, readTask place spec = .ok task) ↔ spec.IsTask := by
  constructor
  · rintro ⟨⟨run, uses⟩, h⟩
    obtain ⟨hrun, huses, hone, hblank⟩ := readTask_eq_ok h
    cases run with
    | some command =>
      cases uses with
      | some action => simp at hone
      | none => exact Or.inl ⟨command, hrun.symm, huses.symm, hblank command rfl⟩
    | none =>
      cases uses with
      | some action => exact Or.inr ⟨action, hrun.symm, huses.symm⟩
      | none => simp at hone
  · rintro (⟨command, hrun, huses, hblank⟩ | ⟨action, hrun, huses⟩)
    · simp [readTask, hrun, huses, trim_ne_empty hblank]
    · simp [readTask, hrun, huses]

lemma isAnswered_readShell : IsAnswered (readShell place spec) := by
  unfold readShell
  split
  · exact isAnswered_ok _
  · split_ifs
    · exact isAnswered_ok _
    · exact isAnswered_refuse _
  · exact isAnswered_refuse _

lemma exists_readShell_eq_ok_iff : (∃ shell, readShell place spec = .ok shell) ↔ spec.IsShell := by
  unfold readShell IsShell
  cases spec.get? "shell" with
  | none => simp
  | some v =>
    cases v with
    | text s => by_cases hs : s = "bash" ∨ s = "sh" <;> simp [knownShells, hs]
    | _ => simp

/-- What has a field that is not empty is a mapping. -/
lemma isMap_of_field_ne_null {name : String} (h : spec.field name ≠ .null) : spec.isMap = true := by
  cases spec with
  | map entries => rfl
  | _ => exact absurd rfl h

lemma isMap_of_isTask (h : spec.IsTask) : spec.isMap = true := by
  obtain ⟨command, hrun, -⟩ | ⟨action, -, huses⟩ := h
  · exact isMap_of_field_ne_null (by rw [hrun]; nofun)
  · exact isMap_of_field_ne_null (by rw [huses]; nofun)

lemma isStepButLimit_iff :
    spec.IsStepButLimit ↔ spec.IsTask ∧ spec.IsShell ∧ (spec.field "with").IsVariables ∧
      (spec.field "env").IsVariables :=
  ⟨fun ⟨htask, hshell, hinputs, henv⟩ => ⟨htask, hshell, hinputs, henv⟩,
    fun ⟨htask, hshell, hinputs, henv⟩ => ⟨htask, hshell, hinputs, henv⟩⟩

lemma exists_readStep_eq_ok_iff : (∃ step, readStep place spec = .ok step) ↔ spec.IsStep := by
  rw [IsStep, isStepButLimit_iff]
  by_cases hmap : spec.isMap = true
  · simp only [readStep, if_pos hmap, exists_bind_eq_ok_iff, pure_eq_ok_iff, exists_eq', and_true,
      exists_and_right, exists_readTask_eq_ok_iff, exists_readShell_eq_ok_iff,
      exists_readEnvironment_eq_ok_iff, exists_readLimit_eq_ok_iff, and_assoc]
  · simp only [readStep, if_neg hmap]
    refine iff_of_false ?_ fun h => hmap (isMap_of_isTask h.1.1)
    rintro ⟨step, h⟩
    exact refuse_bind_ne_ok _ _ _ h

lemma readStep_eq_error_iff (h : fault.IsUntold) :
    readStep place spec = .error fault ↔ fault = .tooLarge ∧ spec.StepRaises := by
  rw [StepRaises, isStepButLimit_iff]
  by_cases hmap : spec.isMap = true
  · simp only [readStep, if_pos hmap, bind_eq_error_iff, pure_ne_error,
      isAnswered_readTask.ne_error h, isAnswered_readShell.ne_error h,
      isAnswered_readEnvironment.ne_error h, readLimit_eq_error_iff h, false_or, and_false,
      exists_false, or_false, exists_and_right, exists_readTask_eq_ok_iff,
      exists_readShell_eq_ok_iff, exists_readEnvironment_eq_ok_iff]
    tauto
  · simp only [readStep, if_neg hmap]
    exact iff_of_false ((isAnswered_refuse_bind _ _).ne_error h)
      fun h => hmap (isMap_of_isTask h.2.1.1)

lemma exists_readSteps_eq_ok_iff {specs : List Value} {index : ℕ} :
    (∃ steps, readSteps place index specs = .ok steps) ↔ ∀ s ∈ specs, s.IsStep := by
  induction specs generalizing index with
  | nil => simp [readSteps]
  | cons s rest ih =>
    rw [List.forall_mem_cons, readSteps]
    simp only [exists_bind_eq_ok_iff, pure_eq_ok_iff, exists_eq', and_true, exists_and_right,
      exists_readStep_eq_ok_iff, ih]

/-- Steps are read one by one, so a step raises an error only if those before it are as they have to
be. -/
lemma readSteps_eq_error_iff (h : fault.IsUntold) {specs : List Value} {index : ℕ} :
    readSteps place index specs = .error fault ↔
      fault = .tooLarge ∧ ∃ s, Reaches (¬·.IsStep) specs s ∧ s.StepRaises := by
  induction specs generalizing index with
  | nil => simp [readSteps, not_reaches_nil]
  | cons s rest ih =>
    rw [exists_reaches_cons, readSteps]
    simp only [bind_eq_error_iff, pure_ne_error, and_false, exists_false, or_false,
      exists_and_right, readStep_eq_error_iff h, exists_readStep_eq_ok_iff, ih, not_not]
    tauto

/-! ### Jobs -/

/-- A job without steps is refused. -/
lemma exists_readJob_eq_refuse (name : String)
    (h : ∀ first rest, spec.field "steps" ≠ .list (first :: rest)) :
    ∃ reason, readJob name spec = refuse reason := by
  unfold readJob
  split_ifs
  · split
    · rename_i hsteps
      exact absurd hsteps (h _ _)
    · exact ⟨_, rfl⟩
  · exact ⟨_, rfl⟩

section Steps

variable {first : Value} {rest : List Value}

/-- A job with steps is read part by part. -/
lemma readJob_of_steps (name : String) (h : spec.field "steps" = .list (first :: rest)) :
    readJob name spec = (do
      let steps ← readSteps ("jobs." ++ name) 0 (first :: rest)
      let env ← readEnvironment ("jobs." ++ name ++ ".env") (spec.field "env")
      let needs ← readNeeds (spec.field "needs")
      let timeoutMinutes ← readLimit ("jobs." ++ name ++ ".timeout-minutes")
        (spec.field "timeout-minutes")
      pure { name, steps, env, needs, runsOn := readLabel (spec.field "runs-on"),
             timeoutMinutes }) := by
  have hmap : spec.isMap = true := isMap_of_field_ne_null (by rw [h]; nofun)
  simp only [readJob, if_pos hmap, h]

lemma isJobToNeeds_iff (h : spec.field "steps" = .list (first :: rest)) :
    spec.IsJobToNeeds ↔ (∀ s ∈ first :: rest, s.IsStep) ∧ (spec.field "env").IsVariables := by
  constructor
  · rintro ⟨⟨specs, hspecs, -, hsteps⟩, henv⟩
    obtain rfl : specs = first :: rest := by simpa [h] using hspecs.symm
    exact ⟨hsteps, henv⟩
  · rintro ⟨hsteps, henv⟩
    exact ⟨⟨_, h, by simp, hsteps⟩, henv⟩

end Steps

lemma exists_steps_of_isJobToNeeds (h : spec.IsJobToNeeds) :
    ∃ first rest, spec.field "steps" = .list (first :: rest) := by
  obtain ⟨specs, hspecs, hne, -⟩ := h.steps
  obtain ⟨first, rest, rfl⟩ := List.exists_cons_of_ne_nil hne
  exact ⟨first, rest, hspecs⟩

lemma exists_readJob_eq_ok_iff {name : String} :
    (∃ job, readJob name spec = .ok job) ↔ spec.IsJob := by
  by_cases hsteps : ∃ first rest, spec.field "steps" = .list (first :: rest)
  · obtain ⟨first, rest, hspecs⟩ := hsteps
    rw [readJob_of_steps name hspecs, IsJob, isJobToNeeds_iff hspecs]
    simp only [exists_bind_eq_ok_iff, pure_eq_ok_iff, exists_eq', and_true, exists_and_right,
      exists_readSteps_eq_ok_iff, exists_readEnvironment_eq_ok_iff, exists_readNeeds_eq_ok_iff,
      exists_readLimit_eq_ok_iff, and_assoc]
  · obtain ⟨reason, hread⟩ := exists_readJob_eq_refuse name fun first rest h => hsteps ⟨_, _, h⟩
    rw [hread]
    refine iff_of_false ?_ fun h => hsteps (exists_steps_of_isJobToNeeds h.1)
    rintro ⟨job, h⟩
    exact refuse_ne_ok _ _ h

/-- An error of a job comes from its steps, or else from what is read after them. -/
lemma jobRaises_iff :
    spec.JobRaises fault ↔
      (fault = .tooLarge ∧ ∃ specs, spec.field "steps" = .list specs ∧
        ∃ s, Reaches (¬·.IsStep) specs s ∧ s.StepRaises) ∨
      spec.IsJobToNeeds ∧ (fault = .notIterable ∧ (spec.field "needs").IsLone ∨
        ¬(spec.field "needs").IsLone ∧ fault = .tooLarge ∧
          (spec.field "timeout-minutes").IsBeyond) := by
  constructor
  · rintro (⟨hspecs, hs, h⟩ | ⟨h, hlone⟩ | ⟨h, hneeds, hbeyond⟩)
    · exact Or.inl ⟨rfl, _, hspecs, _, hs, h⟩
    · exact Or.inr ⟨h, Or.inl ⟨rfl, hlone⟩⟩
    · exact Or.inr ⟨h, Or.inr ⟨hneeds, rfl, hbeyond⟩⟩
  · rintro (⟨rfl, specs, hspecs, s, hs, h⟩ | ⟨h, ⟨rfl, hlone⟩ | ⟨hneeds, rfl, hbeyond⟩⟩)
    · exact .step hspecs hs h
    · exact .needs h hlone
    · exact .limit h hneeds hbeyond

lemma readJob_eq_error_iff (h : fault.IsUntold) {name : String} :
    readJob name spec = .error fault ↔ spec.JobRaises fault := by
  rw [jobRaises_iff]
  by_cases hsteps : ∃ first rest, spec.field "steps" = .list (first :: rest)
  · obtain ⟨first, rest, hspecs⟩ := hsteps
    rw [readJob_of_steps name hspecs, isJobToNeeds_iff hspecs, hspecs]
    simp only [bind_eq_error_iff, pure_ne_error, and_false, exists_false, or_false,
      exists_and_right, readSteps_eq_error_iff h, exists_readSteps_eq_ok_iff,
      isAnswered_readEnvironment.ne_error h, false_or, exists_readEnvironment_eq_ok_iff,
      readNeeds_eq_error_iff, exists_readNeeds_eq_ok_iff, readLimit_eq_error_iff h,
      list.injEq, exists_eq_left', and_assoc]
  · obtain ⟨reason, hread⟩ := exists_readJob_eq_refuse name fun first rest h => hsteps ⟨_, _, h⟩
    rw [hread]
    refine iff_of_false ((isAnswered_refuse _).ne_error h) ?_
    rintro (⟨-, specs, hspecs, s, hs, -⟩ | ⟨hjob, -⟩)
    · cases specs with
      | nil => exact not_reaches_nil s hs
      | cons first rest => exact hsteps ⟨first, rest, hspecs⟩
    · exact hsteps (exists_steps_of_isJobToNeeds hjob)

/-- Jobs are read one by one, so a job raises an error only if those before it are as they have to
be. -/
lemma readJobs_eq_error_iff (h : fault.IsUntold) {entries : List (Value × Value)} :
    readJobs entries = .error fault ↔
      ∃ e, Reaches (fun e => ¬e.2.IsJob) entries e ∧ e.2.JobRaises fault := by
  induction entries with
  | nil => simp [readJobs, not_reaches_nil]
  | cons e rest ih =>
    rw [exists_reaches_cons, readJobs]
    simp only [bind_eq_error_iff, pure_ne_error, and_false, exists_false, or_false,
      exists_and_right, readJob_eq_error_iff h, exists_readJob_eq_ok_iff, ih, not_not]

/-! ### Events -/

lemma isAnswered_readPatterns : IsAnswered (readPatterns place v) := by
  unfold readPatterns
  split
  · exact isAnswered_ok _
  · exact isAnswered_ok _
  · split
    · exact isAnswered_ok _
    · exact isAnswered_refuse _
  · exact isAnswered_refuse _

lemma isAnswered_readRule {kind : String} : IsAnswered (readRule kind v) := by
  unfold readRule
  split
  · exact isAnswered_ok _
  · refine isAnswered_readPatterns.bind fun branches =>
      isAnswered_readPatterns.bind fun ignore => ?_
    split_ifs
    · exact isAnswered_refuse _
    · exact isAnswered_readPatterns.bind fun types => isAnswered_ok _
  · exact isAnswered_refuse _

lemma isAnswered_readRules {entries : List (Value × Value)} : IsAnswered (readRules entries) := by
  induction entries with
  | nil => exact isAnswered_ok _
  | cons e rest ih =>
    rw [readRules]
    split
    · exact ih
    · exact isAnswered_readRule.bind fun rule => ih.bind fun rules => isAnswered_ok _

lemma isAnswered_readTriggers : IsAnswered (readTriggers v) := by
  unfold readTriggers
  split
  · exact isAnswered_ok _
  · exact isAnswered_ok _
  · exact isAnswered_readRules
  · exact isAnswered_refuse _

/-! ### Documents -/

lemma isAnswered_readName {source : Option String} : IsAnswered (readName source v) := by
  simp only [readName]
  split_ifs
  · split
    · exact isAnswered_ok _
    · exact isAnswered_refuse _
  · split <;> exact isAnswered_ok _

lemma exists_readName_eq_ok_iff (source : Option String) :
    (∃ name, readName source v = .ok name) ↔
      ((v.field "name").truthy = true → ∃ s, v.field "name" = .text s) := by
  by_cases htruthy : (v.field "name").truthy = true
  · simp only [readName, htruthy, if_true, true_imp_iff]
    cases v.field "name" <;> simp
  · refine iff_of_true ?_ fun h => absurd h htruthy
    simp only [readName, if_neg htruthy]
    split <;> exact ⟨_, rfl⟩

/-- What has a field that is not empty is not empty. -/
lemma truthy_of_field_ne_null {name : String} (h : spec.field name ≠ .null) :
    spec.truthy = true := by
  cases spec with
  | map entries =>
    cases entries with
    | nil => exact absurd rfl h
    | cons e rest => rfl
  | _ => exact absurd rfl h

/-- A document with jobs raises an error if its name and its events are there and one of the jobs
does. -/
lemma documentRaises_iff {doc : Value} {entries : List (Value × Value)} (h : fault.IsUntold)
    (hjobs : doc.field "jobs" = .map entries) :
    doc.DocumentRaises fault ↔
      ((doc.field "name").truthy = true → ∃ s, doc.field "name" = .text s) ∧
        (∃ v, events? doc = some v) ∧ readJobs entries = .error fault := by
  rw [readJobs_eq_error_iff h]
  constructor
  · rintro ⟨hname, hevents, entries', hjobs', hjob⟩
    obtain rfl : entries' = entries := by simpa [hjobs] using hjobs'.symm
    exact ⟨hname, hevents, hjob⟩
  · rintro ⟨hname, hevents, hjob⟩
    exact ⟨hname, hevents, _, hjobs, hjob⟩

/-- A document without jobs is refused. -/
lemma isAnswered_ofValue_of_no_jobs {source : Option String} {doc : Value}
    (hjobs : ∀ first rest, doc.field "jobs" ≠ .map (first :: rest)) :
    IsAnswered (ofValue source doc) := by
  unfold ofValue
  split_ifs
  · refine isAnswered_readName.bind fun name => ?_
    split
    · exact isAnswered_refuse _
    · split
      · rename_i hentries
        exact absurd hentries (hjobs _ _)
      · exact isAnswered_refuse _
  all_goals exact isAnswered_refuse_bind _ _

/-- A document with jobs raises the errors that its jobs raise: what is read after the jobs raises
none. -/
lemma ofValue_eq_error_iff_of_jobs (h : fault.IsUntold) {source : Option String} {doc : Value}
    {first : Value × Value} {rest : List (Value × Value)}
    (hjobs : doc.field "jobs" = .map (first :: rest)) :
    ofValue source doc = .error fault ↔ doc.DocumentRaises fault := by
  have hfield : doc.field "jobs" ≠ .null := by rw [hjobs]; nofun
  rw [documentRaises_iff h hjobs, ← exists_readName_eq_ok_iff source, ofValue,
    if_pos (truthy_of_field_ne_null hfield), if_pos (isMap_of_field_ne_null hfield)]
  simp only [hjobs, bind_eq_error_iff, isAnswered_readName.ne_error h, false_or]
  cases events? doc with
  | none => simp [(isAnswered_refuse _).ne_error h]
  | some events =>
    simp only [bind_eq_error_iff]
    constructor
    · rintro ⟨name, hname, hread | ⟨jobs, -, hread⟩⟩
      · exact ⟨⟨name, hname⟩, ⟨events, rfl⟩, hread⟩
      · split at hread
        · exact absurd hread ((isAnswered_refuse _).ne_error h)
        · simp only [bind_eq_error_iff, isAnswered_readTriggers.ne_error h,
            isAnswered_readEnvironment.ne_error h, pure_ne_error, and_false, exists_false,
            or_self] at hread
    · rintro ⟨⟨name, hname⟩, -, hread⟩
      exact ⟨name, hname, Or.inl hread⟩

lemma ofValue_eq_error_iff (h : fault.IsUntold) {source : Option String} {doc : Value} :
    ofValue source doc = .error fault ↔ doc.DocumentRaises fault := by
  by_cases hjobs : ∃ first rest, doc.field "jobs" = .map (first :: rest)
  · obtain ⟨first, rest, hentries⟩ := hjobs
    exact ofValue_eq_error_iff_of_jobs h hentries
  · have hanswered : IsAnswered (ofValue source doc) :=
      isAnswered_ofValue_of_no_jobs fun first rest hentries => hjobs ⟨first, rest, hentries⟩
    refine iff_of_false (hanswered.ne_error h) ?_
    rintro ⟨-, -, entries, hentries, e, he, -⟩
    cases entries with
    | nil => exact not_reaches_nil e he
    | cons first rest => exact hjobs ⟨first, rest, hentries⟩

/-! ### Answers of the reader -/

/-- What reading a document comes to raises an error without a message: the reader fails, but not
since the text is not well formed, or the document raises the error. -/
inductive AnswerRaises : Except Yaml.Error Value → DefinitionError → Prop
  /-- The text is well formed but has no value. -/
  | reader {e : Yaml.Error} (h : e ≠ .malformed) : AnswerRaises (.error e) (.ofYaml e)
  /-- The document raises an error. -/
  | document {doc : Value} {fault : DefinitionError} (h : doc.DocumentRaises fault) :
      AnswerRaises (.ok doc) fault

lemma isUntold_of_documentRaises {doc : Value} (h : doc.DocumentRaises fault) :
    fault.IsUntold := by
  obtain ⟨-, -, entries, -, e, -, hjob⟩ := h
  cases hjob <;> trivial

lemma isUntold_of_answerRaises {answer : Except Yaml.Error Value} (h : AnswerRaises answer fault) :
    fault.IsUntold := by
  cases h with
  | reader hne =>
    rename_i e
    cases e <;> first | exact absurd rfl hne | trivial
  | document hdoc => exact isUntold_of_documentRaises hdoc

lemma ofAnswer_eq_error_iff (h : fault.IsUntold) {source : Option String}
    {answer : Except Yaml.Error Value} :
    ofAnswer source answer = .error fault ↔ AnswerRaises answer fault := by
  cases answer with
  | error e =>
    constructor
    · rintro ⟨⟩
      refine .reader ?_
      rintro rfl
      exact h
    · rintro ⟨-⟩
      rfl
  | ok doc =>
    refine (ofValue_eq_error_iff h).trans ⟨.document, fun hraises => ?_⟩
    cases hraises with
    | document hdoc => exact hdoc

/-- A definition is answered unless it raises an error, if the errors that it raises are those
without a message that it fails with. -/
lemma isAnswered_iff {answer : Except DefinitionError α} {raises : DefinitionError → Prop}
    (huntold : ∀ fault, raises fault → fault.IsUntold)
    (hraises : ∀ fault, fault.IsUntold → (answer = .error fault ↔ raises fault)) :
    (IsAnswered answer ↔ ∀ fault, ¬raises fault) ∧
      ∀ fault, raises fault → answer = .error fault := by
  have hfails : ∀ fault, raises fault → answer = .error fault :=
    fun fault h => (hraises fault (huntold fault h)).mpr h
  refine ⟨⟨fun hanswered fault h => ?_, fun h => ?_⟩, hfails⟩
  · exact hanswered.ne_error (huntold fault h) (hfails fault h)
  · cases hanswer : answer with
    | ok a => exact Or.inl ⟨a, rfl⟩
    | error fault =>
      cases fault with
      | refused reason => exact Or.inr ⟨reason, rfl⟩
      | _ =>
        refine absurd ((hraises _ ?_).mp hanswer) (h _)
        trivial

/-- A document is read or refused with a message, unless it raises one of the errors that have no
message; then reading fails with that error.  The same holds of whatever the reader of documents
makes of a text, an error of its own or a document, and of a text that it reads.  The documents are
plain, and a text names no part of it by an anchor, so that no collection stands in itself. -/
theorem isAnswered_iff_not_raises (source : Option String) :
    (∀ doc : Value, doc.isPlain = true →
      (IsAnswered (ofValue source doc) ↔ ∀ fault, ¬doc.DocumentRaises fault) ∧
        ∀ fault, doc.DocumentRaises fault → ofValue source doc = .error fault) ∧
    (∀ answer : Except Yaml.Error Value, (∀ doc, answer = .ok doc → doc.isPlain = true) →
      (IsAnswered (ofAnswer source answer) ↔ ∀ fault, ¬AnswerRaises answer fault) ∧
        ∀ fault, AnswerRaises answer fault → ofAnswer source answer = .error fault) ∧
    ∀ content doc, '&' ∉ content.toList → Yaml.load content = .ok doc → doc.isPlain = true →
      (IsAnswered (ofText source content) ↔ ∀ fault, ¬doc.DocumentRaises fault) ∧
        ∀ fault, doc.DocumentRaises fault → ofText source content = .error fault := by
  have hvalue : ∀ doc : Value,
      (IsAnswered (ofValue source doc) ↔ ∀ fault, ¬doc.DocumentRaises fault) ∧
        ∀ fault, doc.DocumentRaises fault → ofValue source doc = .error fault := fun doc =>
    isAnswered_iff (fun _ => isUntold_of_documentRaises) fun _ hfault => ofValue_eq_error_iff hfault
  refine ⟨fun doc _ => hvalue doc, fun answer _ => ?_, fun content doc _ hload _ => ?_⟩
  · exact isAnswered_iff (fun _ => isUntold_of_answerRaises)
      fun _ hfault => ofAnswer_eq_error_iff hfault
  · rw [ofText, hload]
    exact hvalue doc

/-- A document with one job, in which something is written after `needs`. -/
def needingText (needs : String) : String :=
  "\n".intercalate ["on: push", "jobs:", "  check:", "    needs: " ++ needs,
    "    steps: [\x7brun: make\x7d]", ""]

/-- The error that a computation fails with. -/
def failure? {ε : Type} : Except ε α → Option ε
  | .error e => some e
  | .ok _ => none

lemma eq_error_of_failure? {ε : Type} {m : Except ε α} {e : ε} (h : failure? m = some e) :
    m = .error e := by
  cases m with
  | error e' => exact congrArg Except.error (Option.some.inj h)
  | ok a => cases h

/-- A job that depends on nothing raises no error.  A day that does not exist raises one, and so
does whatever else ends the reading of a document. -/
theorem isAnswered_iff_not_raises_of_needs :
    (∃ doc, Yaml.load (needingText "[]") = .ok doc ∧ ∀ fault, ¬doc.DocumentRaises fault) ∧
      ofText none (needingText "2001-02-30") = .error (.scalar .badScalar) ∧
      ofAnswer none (.error (.other "RecursionError")) =
        .error (.scalar (.other "RecursionError")) := by
  have hany : (Yaml.load (needingText "[]")).toOption.any Value.isPlain = true := by
    decide +kernel
  obtain ⟨doc, hdoc, hplain⟩ := exists_eq_ok_of_any hany
  have hread : (ofText none (needingText "[]")).toOption.any (fun _ => true) = true := by
    decide +kernel
  obtain ⟨w, hw, -⟩ := exists_eq_ok_of_any hread
  have hload : Yaml.load (needingText "2001-02-30") = .error .badScalar :=
    eq_error_of_failure? (by decide +kernel)
  obtain ⟨-, hanswers, htexts⟩ := isAnswered_iff_not_raises none
  obtain ⟨hnone, -⟩ := htexts (needingText "[]") doc (by decide +kernel) hdoc hplain
  obtain ⟨-, hday⟩ := hanswers (.error .badScalar) (by simp)
  obtain ⟨-, hdeep⟩ := hanswers (.error (.other "RecursionError")) (by simp)
  refine ⟨⟨doc, hdoc, hnone.mp (Or.inl ⟨w, hw⟩)⟩, ?_, hdeep _ (.reader (by decide))⟩
  rw [ofText, hload]
  exact hday _ (.reader (by decide))

/-- A truth value where the names of jobs are asked for is neither read nor refused. -/
theorem single_need_not_answered :
    ofText none (needingText "true") = .error .notIterable ∧
      ¬IsAnswered (ofText none (needingText "true")) := by
  have hread : ofText none (needingText "true") = .error .notIterable :=
    eq_error_of_failure? (by decide +kernel)
  refine ⟨hread, ?_⟩
  rw [hread]
  rintro (⟨w, ⟨⟩⟩ | ⟨reason, ⟨⟩⟩)

end Workflow

end CiRunner
