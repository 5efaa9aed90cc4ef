import CiRunner.Proofs.Decimal.Arithmetic
import CiRunner.Proofs.Run.Deadlines
import CiRunner.Proofs.Run.Evaluation
import CiRunner.Proofs.Workflow.Reading

/-!
# Limits that are accepted

A time limit in a document is refused if it is at most zero.  What is not at most zero is positive
if it is a number, but what is no number is not refused either: such a limit is accepted, and it is
not positive.

The timer of a step is for the shorter of its own limit and what is left to its job.  On the scale
of doubles a difference is positive if and only if the one is greater than the other, whatever is
lost by rounding.  So a timer is for some time exactly if the step's own limit is positive and the
deadline of the job is not over.  A deadline that is no number is over at any time.
-/

namespace CiRunner

open Decimal Success

/-- The time limits of a job and of its steps. -/
def Job.limits (job : Job) : List Float :=
  job.timeoutMinutes.toList ++ job.steps.filterMap Step.timeoutMinutes

/-- The time limits of the jobs of a workflow. -/
def Workflow.limits (wf : Workflow) : List Float := wf.jobs.flatMap Job.limits

/-! ## What is read -/

namespace Workflow

variable {place : String} {v : Value}

/-- A limit that is read is positive exactly if it is a number. -/
lemma readLimit_pos_iff {m : Float} (h : readLimit place v = .ok (some m)) :
    0.0 < m ↔ m.isNaN = false := by
  unfold readLimit at h
  split at h
  · cases h
  · split_ifs at h with hn
    · exact absurd h (refuse_ne_ok _ _)
    · split at h
      · rename_i x hx
        cases h
        have hpos := pos_of_ofInt? (not_le.mp hn) hx
        exact iff_of_true hpos (isNaN_eq_false_of_pos hpos)
      · cases h
  · split_ifs at h with hx
    · exact absurd h (refuse_ne_ok _ _)
    · cases h
      exact pos_iff_of_not_le_zero hx
  · exact absurd h (refuse_ne_ok _ _)

/-- The limit of a step that is read is. -/
lemma readStep_limit {step : Step} (h : readStep place v = .ok step) :
    ∃ place' v', readLimit place' v' = .ok step.timeoutMinutes := by
  unfold readStep at h
  split_ifs at h
  · simp only [bind_eq_ok_iff, pure_eq_ok_iff] at h
    obtain ⟨task, -, shell, -, inputs, -, env, -, limit, hlimit, rfl⟩ := h
    exact ⟨_, _, hlimit⟩
  · exact absurd h (refuse_bind_ne_ok _ _ _)

lemma readSteps_limit {specs : List Value} {index : ℕ} {steps : List Step}
    (h : readSteps place index specs = .ok steps) :
    ∀ step ∈ steps, ∃ place' v', readLimit place' v' = .ok step.timeoutMinutes := by
  induction specs generalizing index steps with
  | nil =>
    cases h
    simp
  | cons spec rest ih =>
    simp only [readSteps, bind_eq_ok_iff, pure_eq_ok_iff] at h
    obtain ⟨step, hstep, others, hothers, rfl⟩ := h
    exact List.forall_mem_cons.mpr ⟨readStep_limit hstep, ih hothers⟩

/-- The limits of a job that is read are. -/
lemma readJob_limits {name : String} {job : Job} (h : readJob name v = .ok job) :
    ∀ m ∈ job.limits, ∃ place' v', readLimit place' v' = .ok (some m) := by
  unfold readJob at h
  split_ifs at h
  · split at h
    · simp only [bind_eq_ok_iff, pure_eq_ok_iff] at h
      obtain ⟨steps, hsteps, env, -, needs, -, limit, hlimit, rfl⟩ := h
      intro m hm
      rcases List.mem_append.mp hm with hm | hm
      · obtain rfl := Option.mem_toList.mp hm
        exact ⟨_, _, hlimit⟩
      · obtain ⟨step, hstep, hm⟩ := List.mem_filterMap.mp hm
        obtain ⟨place', v', hread⟩ := readSteps_limit hsteps step hstep
        exact ⟨place', v', hm ▸ hread⟩
    · exact absurd h (refuse_ne_ok _ _)
  · exact absurd h (refuse_bind_ne_ok _ _ _)

lemma readJobs_limits {entries : List (Value × Value)} {jobs : List Job}
    (h : readJobs entries = .ok jobs) :
    ∀ m ∈ jobs.flatMap Job.limits, ∃ place' v', readLimit place' v' = .ok (some m) := by
  induction entries generalizing jobs with
  | nil =>
    cases h
    simp
  | cons entry rest ih =>
    simp only [readJobs, bind_eq_ok_iff, pure_eq_ok_iff] at h
    obtain ⟨job, hjob, others, hothers, rfl⟩ := h
    rw [List.flatMap_cons]
    exact fun m hm => (List.mem_append.mp hm).elim (readJob_limits hjob m) (ih hothers m)

/-- A limit of a workflow that is read is positive exactly if it is a number. -/
lemma limit_pos_iff_of_ofText {source : Option String} {text : String} {wf : Workflow}
    (h : ofText source text = .ok wf) : ∀ m ∈ wf.limits, 0.0 < m ↔ m.isNaN = false := by
  obtain ⟨doc, -, hvalue⟩ := ofText_eq_ok_iff.mp h
  obtain ⟨events, entry, rest, -, hjobs, -⟩ := ofValue_eq_ok hvalue
  intro m hm
  obtain ⟨place', v', hread⟩ := readJobs_limits hjobs m hm
  exact readLimit_pos_iff hread

end Workflow

/-! ## The timer of a step -/

namespace Timeline

@[simp] lemma plus_float (a b : Float) : plus a b = a + b := rfl

@[simp] lemma minus_float (a b : Float) : minus a b = a - b := rfl

@[simp] lemma ofMinutes_float (m : Float) : ofMinutes m = m * 60.0 := rfl

/-- What is not positive is clipped to zero, which is not positive either. -/
lemma clip_pos_iff {t : Float} : 0.0 < clip t ↔ 0.0 < t := by
  have hshorter : shorter zero t = decide (0.0 < t) := rfl
  by_cases ht : 0.0 < t
  · rw [clip, hshorter, decide_eq_true ht, if_pos rfl]
  · rw [clip, hshorter, decide_eq_false ht, if_neg Bool.false_ne_true]
    exact iff_of_false (show ¬(0.0 : Float) < 0.0 by decide +kernel) ht

/-- The shorter of a time and what is left is positive exactly if both are, also if the one or the
other is no number. -/
lemma least_clip_pos_iff {own t : Float} : 0.0 < least own (clip t) ↔ 0.0 < own ∧ 0.0 < t := by
  have hshorter : shorter (clip t) own = decide (clip t < own) := rfl
  rw [least, hshorter]
  by_cases hless : clip t < own
  · rw [decide_eq_true hless, if_pos rfl, clip_pos_iff]
    exact (and_iff_right_of_imp fun ht => pos_of_pos_of_lt (clip_pos_iff.mpr ht) hless).symm
  · rw [decide_eq_false hless, if_neg Bool.false_ne_true]
    refine (and_iff_left_of_imp fun hown => ?_).symm
    -- what is left is clipped to zero if it is not positive, and that is shorter
    by_contra ht
    have hzero : clip t = 0.0 := by
      have hnot : shorter zero t = decide (0.0 < t) := rfl
      rw [clip, hnot, decide_eq_false ht]
      rfl
    exact hless (hzero ▸ hown)

end Timeline

/-- A timer of a step is for some time exactly if the step's own limit is positive and the step is
begun before the deadline of the job. -/
lemma Visit.limit_pos_iff {v : Visit Float} {length : Float} (h : v.limit = some length) :
    0.0 < length ↔ (∀ m, v.step.timeoutMinutes = some m → 0.0 < m) ∧
      ∀ m, v.job.timeoutMinutes = some m → v.world.clock < v.jobStart + m * 60.0 := by
  unfold limit Sequence.stepLimit deadline at h
  cases hown : v.step.timeoutMinutes with
  | none =>
    cases hjob : v.job.timeoutMinutes with
    | none =>
      rw [hown, hjob] at h
      cases h
    | some m =>
      rw [hown, hjob] at h
      obtain rfl := Option.some.inj h
      simp [Timeline.clip_pos_iff, sub_pos_iff]
  | some own =>
    cases hjob : v.job.timeoutMinutes with
    | none =>
      rw [hown, hjob] at h
      obtain rfl := Option.some.inj h
      simp [mul_sixty_pos_iff]
    | some m =>
      rw [hown, hjob] at h
      obtain rfl := Option.some.inj h
      simp [Timeline.least_clip_pos_iff, mul_sixty_pos_iff, sub_pos_iff]

/-- A limit in a document that is accepted is positive exactly if it is a number: this is all that
keeps it from being positive.  And in every run of the workflow, a timer of a step is for some time
exactly if the step's own limit, should there be one, is a number, and the step is begun before the
deadline of its job, which is counted from the begin of the first step of the job.  Whatever is
compared with a deadline that is no number, it is not before it. -/
theorem accepted_limits_pos_iff_number {source : Option String} {text : String} {wf : Workflow}
    (h : Workflow.ofText source text = .ok wf) :
    (∀ m ∈ wf.limits, 0.0 < m ↔ m.isNaN = false) ∧
    ∀ (c : Console) (ws : Workspace) (host : Host Float) (e : Event) (w : World Float),
      let parts := partsOf (Sequence.runDeeds c ws host wf e w)
      ∀ (i j : ℕ) (job : Job) (step : Step) (part : List (Action Float)), wf.jobs[i]? = some job →
        job.steps[j]? = some step → parts[stepNumber wf.jobs i j]? = some part →
        ∃ first jobStart start, parts[stepNumber wf.jobs i 0]? = some first ∧
          startOf first = some jobStart ∧ startOf part = some start ∧
          ∀ length ∈ timersOf part, 0.0 < length ↔
            (∀ m, step.timeoutMinutes = some m → m.isNaN = false) ∧
              ∀ m, job.timeoutMinutes = some m → start < jobStart + m * 60.0 := by
  have hlimits := Workflow.limit_pos_iff_of_ofText h
  refine ⟨hlimits, fun c ws host e w => ?_⟩
  intro parts i j job step part hjob hstep hpart
  obtain ⟨visits, -, hjobs, -, hparts⟩ := Sequence.run_visits c ws host wf e w
  have hparts : parts = visits.map fun v => v.part c ws (runVariables wf e ws.place) host := hparts
  rw [hparts] at hpart ⊢
  rw [List.getElem?_map] at hpart
  obtain ⟨v, hv, rfl⟩ := Option.map_eq_some_iff.mp hpart
  obtain ⟨rfl, rfl, u, hu, hstart⟩ := hjobs.visit hjob hstep hv
  refine ⟨u.part c ws (runVariables wf e ws.place) host, v.jobStart, v.world.clock,
    by rw [List.getElem?_map, hu, Option.map_some], congrArg some hstart.symm, rfl,
    fun length hlength => ?_⟩
  rw [v.timersOf_part_eq] at hlength
  split at hlength
  · rw [Visit.limit_pos_iff (Option.mem_toList.mp hlength)]
    refine and_congr_left' (forall₂_congr fun m hm => hlimits m ?_)
    have hmem : m ∈ v.job.limits := List.mem_append_right _
      (List.mem_filterMap.mpr ⟨_, List.mem_of_getElem? hstep, hm⟩)
    exact List.mem_flatMap.mpr ⟨_, List.mem_of_getElem? hjob, hmem⟩
  · cases hlength

/-- The text of a document with a job that has a minute and whose first step has a limit. -/
def limitedDocument (limit : String) : String :=
  "\n".intercalate ["on: push", "jobs:", "  check:", "    timeout-minutes: 1.0", "    steps:",
    "      - run: make", "        timeout-minutes: " ++ limit, "      - run: make test"]

/-- The parts of a run of a workflow, in which every program takes a second. -/
def partsOfRun (wf : Workflow) : List (List (Action Float)) :=
  partsOf (Sequence.runDeeds {} (Workspace.inPlace [] "/" "") (.scripted []) wf
    { kind := "push", branch := .text "main" } .initial)

/-- The limits of the first step of a workflow and its job, and when it is begun in a run, with the
lengths of its timers. -/
def firstTimes (wf : Workflow) :
    Option ((Option Float × Option Float) × Option Float × List Float) := do
  let job ← wf.jobs[0]?
  let step ← job.steps[0]?
  let part ← (partsOfRun wf)[0]?
  pure ((job.timeoutMinutes, step.timeoutMinutes), startOf part, timersOf part)

/-- An infinite limit is accepted, and the timer is for what is left to the job. -/
theorem accepted_limits_pos_iff_number_of_infinite :
    ∃ wf part, Workflow.ofText none (limitedDocument ".inf") = .ok wf ∧
      (partsOfRun wf)[0]? = some part ∧ timersOf part = [60.0] ∧ (0.0 : Float) < 60.0 := by
  have hfirst : (Workflow.ofText none (limitedDocument ".inf")).toOption.bind firstTimes =
      some ((some 1.0, some (1.0 / 0.0)), some 0.0, [60.0]) := by decide +kernel
  have hbegun : (0.0 : Float) < 0.0 + 1.0 * 60.0 := by decide +kernel
  have hnumber : (1.0 / 0.0 : Float).isNaN = false := by decide +kernel
  cases hread : Workflow.ofText none (limitedDocument ".inf") with
  | error reason =>
    rw [hread] at hfirst
    cases hfirst
  | ok wf =>
    rw [hread] at hfirst
    change firstTimes wf = _ at hfirst
    obtain ⟨job, hjob, hfirst⟩ := Option.bind_eq_some_iff.mp hfirst
    obtain ⟨step, hstep, hfirst⟩ := Option.bind_eq_some_iff.mp hfirst
    obtain ⟨part, hpart, hfirst⟩ := Option.bind_eq_some_iff.mp hfirst
    obtain ⟨hlimits, htimes⟩ := Prod.mk.inj (Option.some.inj hfirst)
    obtain ⟨hlimit, hown⟩ := Prod.mk.inj hlimits
    obtain ⟨hstart, htimers⟩ := Prod.mk.inj htimes
    obtain ⟨first, jobStart, start, hfirst, hjobStart, hstart', hpos⟩ :=
      (accepted_limits_pos_iff_number hread).2 {} (Workspace.inPlace [] "/" "") (.scripted [])
        { kind := "push", branch := .text "main" } .initial 0 0 job step part hjob hstep hpart
    obtain rfl : part = first := Option.some.inj (hpart.symm.trans hfirst)
    obtain rfl : 0.0 = start := Option.some.inj (hstart.symm.trans hstart')
    obtain rfl : 0.0 = jobStart := Option.some.inj (hstart.symm.trans hjobStart)
    refine ⟨wf, part, rfl, hpart, htimers, (hpos 60.0 (by simp [htimers])).mpr ⟨?_, ?_⟩⟩
    · rintro m hm
      obtain rfl := Option.some.inj (hown.symm.trans hm)
      exact hnumber
    · rintro m hm
      obtain rfl := Option.some.inj (hlimit.symm.trans hm)
      exact hbegun

/-- A limit that is no number is accepted.  It is not positive, and neither is the timer for it. -/
theorem limit_not_a_number_accepted :
    ∃ wf, Workflow.ofText none (limitedDocument ".nan") = .ok wf ∧ (∃ m ∈ wf.limits, ¬0.0 < m) ∧
      ∃ part ∈ partsOfRun wf, ∃ length ∈ timersOf part, ¬0.0 < length := by
  have hnan : ((Workflow.ofText none (limitedDocument ".nan")).toOption.map fun wf =>
      (decide (∃ m ∈ wf.limits, ¬0.0 < m),
        decide (∃ part ∈ partsOfRun wf, ∃ length ∈ timersOf part, ¬0.0 < length))) =
      some (true, true) := by decide +kernel
  cases hread : Workflow.ofText none (limitedDocument ".nan") with
  | error reason =>
    rw [hread] at hnan
    cases hnan
  | ok wf =>
    rw [hread] at hnan
    obtain ⟨hlimit, htimer⟩ := Prod.mk.inj (Option.some.inj hnan)
    exact ⟨wf, rfl, of_decide_eq_true hlimit, of_decide_eq_true htimer⟩

end CiRunner
