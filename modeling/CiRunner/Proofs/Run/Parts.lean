import CiRunner.Proofs.Run.StepLog

/-!
# The parts of a log

The mark of its begin tells where the actions of a step start in a log, and the next such mark where
they end.  So a log can be cut into its parts, one for each step that was begun.  Steps are begun in
the order of their jobs: the part of a step has the number that counts the steps before it, in its
own job and in the jobs declared earlier.
-/

namespace CiRunner

variable {τ : Type}

/-! ## Cutting a log -/

/-- Whether an action begins a step. -/
def Action.isBegin : Action τ → Bool
  | beginStep .. => true
  | _ => false

/-- A step is begun by a mark. -/
lemma Action.isBegin_eq_false_of_isMark {a : Action τ} (h : a.isMark = false) :
    a.isBegin = false := by
  cases a with
  | beginStep => cases h
  | _ => rfl

/-- The parts of a log, one for each step that was begun: the mark of its begin, and what was done
before the next such mark. -/
def partsOf : List (Action τ) → List (List (Action τ))
  | [] => []
  | a :: log =>
    if a.isBegin then (a :: log.takeWhile fun b => !b.isBegin) :: partsOf log else partsOf log

/-- A list of actions in which one step is begun, by the first of them. -/
def IsPart (part : List (Action τ)) : Prop :=
  ∃ a body, part = a :: body ∧ a.isBegin = true ∧ ∀ b ∈ body, b.isBegin = false

/-- What is done before the first mark belongs to no part. -/
lemma partsOf_append {log : List (Action τ)} (h : ∀ a ∈ log, a.isBegin = false)
    (more : List (Action τ)) : partsOf (log ++ more) = partsOf more := by
  induction log with
  | nil => rfl
  | cons a log ih =>
    obtain ⟨ha, hlog⟩ := List.forall_mem_cons.mp h
    rw [List.cons_append, partsOf, if_neg (by simp [ha]), ih hlog]

/-- What follows a part in a log made of parts begins a step. -/
lemma takeWhile_flatten {parts : List (List (Action τ))} (h : ∀ part ∈ parts, IsPart part) :
    parts.flatten.takeWhile (fun b => !b.isBegin) = [] := by
  cases parts with
  | nil => rfl
  | cons part parts =>
    obtain ⟨a, body, rfl, ha, -⟩ := h part List.mem_cons_self
    simp [ha]

/-- A log made of parts is cut into these. -/
lemma partsOf_flatten {parts : List (List (Action τ))} (h : ∀ part ∈ parts, IsPart part) :
    partsOf parts.flatten = parts := by
  induction parts with
  | nil => rfl
  | cons part parts ih =>
    obtain ⟨hpart, hparts⟩ := List.forall_mem_cons.mp h
    obtain ⟨a, body, rfl, ha, hbody⟩ := hpart
    have hall : ∀ b ∈ body, (!b.isBegin) = true := fun b hb => by simp [hbody b hb]
    rw [List.flatten_cons, List.cons_append, partsOf, if_pos ha, partsOf_append hbody, ih hparts,
      List.takeWhile_append_of_pos hall, takeWhile_flatten hparts, List.append_nil]

/-- In a log made of parts as many steps are begun as there are parts. -/
lemma countP_isBegin_flatten {parts : List (List (Action τ))} (h : ∀ part ∈ parts, IsPart part) :
    parts.flatten.countP Action.isBegin = parts.length := by
  induction parts with
  | nil => rfl
  | cons part parts ih =>
    obtain ⟨hpart, hparts⟩ := List.forall_mem_cons.mp h
    obtain ⟨a, body, rfl, ha, hbody⟩ := hpart
    have hnone : body.countP Action.isBegin = 0 :=
      List.countP_eq_zero.mpr fun b hb => by simp [hbody b hb]
    rw [List.flatten_cons, List.countP_append, List.countP_cons_of_pos ha, hnone, ih hparts,
      List.length_cons]
    omega

/-- Actions of a kind that tell nothing are deeds. -/
lemma countP_deeds {p : Action τ → Bool} (hp : ∀ m, p (.tell m) = false) (log : List (Action τ)) :
    (deeds log).countP p = log.countP p := by
  rw [deeds, List.countP_filter]
  refine List.countP_congr fun a _ => ?_
  cases a with
  | tell m => simp [hp m]
  | _ => simp [Action.isTell]

/-! ## The numbers of steps -/

/-- The number of steps that come before a step, which is given by the place of its job among the
jobs and its own place in the job. -/
def stepNumber (jobs : List Job) (i j : ℕ) : ℕ :=
  ((jobs.take i).map fun job => job.steps.length).sum + j

@[simp] lemma stepNumber_zero (jobs : List Job) (j : ℕ) : stepNumber jobs 0 j = j := by
  simp [stepNumber]

/-- Behind a job the steps of that are counted as well. -/
@[simp] lemma stepNumber_succ (job : Job) (jobs : List Job) (i j : ℕ) :
    stepNumber (job :: jobs) (i + 1) j = job.steps.length + stepNumber jobs i j := by
  simp [stepNumber, Nat.add_assoc]

/-- The steps of a job are numbered one after another. -/
lemma stepNumber_add (jobs : List Job) (i j k : ℕ) :
    stepNumber jobs i (j + k) = stepNumber jobs i j + k := by
  simp [stepNumber, Nat.add_assoc]

/-- The steps of jobs, with their jobs. -/
def stepsOf (jobs : List Job) : List (Job × Step) :=
  jobs.flatMap fun job => job.steps.map fun step => (job, step)

@[simp] lemma stepsOf_cons (job : Job) (jobs : List Job) :
    stepsOf (job :: jobs) = job.steps.map (fun step => (job, step)) ++ stepsOf jobs :=
  List.flatMap_cons

/-- Every number below the number of all steps is that of a step. -/
lemma exists_stepNumber {jobs : List Job} {k : ℕ} {p : Job × Step}
    (h : (stepsOf jobs)[k]? = some p) :
    ∃ i j, k = stepNumber jobs i j ∧ jobs[i]? = some p.1 ∧ p.1.steps[j]? = some p.2 := by
  induction jobs generalizing k with
  | nil => simp [stepsOf] at h
  | cons job rest ih =>
    rw [stepsOf_cons] at h
    by_cases hk : k < job.steps.length
    · rw [List.getElem?_append_left (by simpa using hk), List.getElem?_map] at h
      obtain ⟨step, hstep, rfl⟩ := Option.map_eq_some_iff.mp h
      exact ⟨0, k, by simp, by simp, hstep⟩
    · have hle : job.steps.length ≤ k := Nat.le_of_not_lt hk
      rw [List.getElem?_append_right (by simpa using hle), List.length_map] at h
      obtain ⟨i, j, hkj, hjob, hstep⟩ := ih h
      exact ⟨i + 1, j, by rw [stepNumber_succ]; omega, by simpa using hjob, hstep⟩

end CiRunner
