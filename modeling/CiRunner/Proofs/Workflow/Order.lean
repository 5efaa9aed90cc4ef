import CiRunner.Workflow.Jobs
import Mathlib.Data.List.Basic

/-!
# The check of the order of jobs

The check goes through the jobs with the names of those before it at hand.  `FollowsOn` says what it
finds right about the jobs that are left: they are well ordered, if the names before count as
declared.
-/

namespace CiRunner

/-- Jobs are well ordered after jobs of given names. -/
structure FollowsOn (seen : List String) (jobs : List Job) : Prop where
  /-- No job has a name that was seen. -/
  fresh : ∀ job ∈ jobs, job.name ∉ seen
  /-- No two jobs have the same name. -/
  distinct : (jobs.map (·.name)).Nodup
  /-- Every job has a step. -/
  steps : ∀ job ∈ jobs, job.steps ≠ []
  /-- What a job depends on was seen or is declared before it. -/
  needs : ∀ before job after, jobs = before ++ job :: after →
    ∀ need ∈ job.needs, need ∈ seen ∨ need ∈ before.map (·.name)

variable {seen : List String} {jobs rest : List Job} {job : Job}

lemma followsOn_nil : FollowsOn seen [] :=
  ⟨by simp, by simp, by simp, fun before job after h => by simp at h⟩

/-- The first job comes right after the names that were seen, and the others after its name too. -/
lemma followsOn_cons :
    FollowsOn seen (job :: rest) ↔
      job.name ∉ seen ∧ job.steps ≠ [] ∧ (∀ need ∈ job.needs, need ∈ seen) ∧
        FollowsOn (job.name :: seen) rest := by
  constructor
  · rintro ⟨hfresh, hdistinct, hsteps, hneeds⟩
    obtain ⟨hjob, hrest⟩ := List.forall_mem_cons.mp hfresh
    rw [List.map_cons, List.nodup_cons] at hdistinct
    have hfirst : ∀ need ∈ job.needs, need ∈ seen := fun need hneed => by
      simpa using hneeds [] job rest rfl need hneed
    refine ⟨hjob, hsteps job List.mem_cons_self, hfirst, ?_, hdistinct.2,
      fun j hj => hsteps j (List.mem_cons_of_mem _ hj), ?_⟩
    · intro j hj hname
      rcases List.mem_cons.mp hname with hname | hname
      · exact hdistinct.1 (hname ▸ List.mem_map_of_mem hj)
      · exact hrest j hj hname
    · intro before j after heq need hneed
      have h := hneeds (job :: before) j after (by rw [heq, List.cons_append]) need hneed
      rw [List.map_cons, List.mem_cons] at h
      rw [List.mem_cons]
      tauto
  · rintro ⟨hjob, hsteps, hneeds, hrest⟩
    refine ⟨?_, ?_, List.forall_mem_cons.mpr ⟨hsteps, hrest.steps⟩, ?_⟩
    · refine List.forall_mem_cons.mpr ⟨hjob, fun j hj hname => ?_⟩
      exact hrest.fresh j hj (List.mem_cons_of_mem _ hname)
    · rw [List.map_cons, List.nodup_cons]
      refine ⟨fun hname => ?_, hrest.distinct⟩
      obtain ⟨j, hj, hname⟩ := List.mem_map.mp hname
      exact hrest.fresh j hj (hname ▸ List.mem_cons_self)
    · intro before j after heq need hneed
      cases before with
      | nil =>
        obtain ⟨rfl, -⟩ := List.cons_eq_cons.mp heq
        exact Or.inl (hneeds need hneed)
      | cons first before =>
        obtain ⟨rfl, rfl⟩ := List.cons_eq_cons.mp heq
        have h := hrest.needs before j after rfl need hneed
        rw [List.mem_cons] at h
        rw [List.map_cons, List.mem_cons]
        tauto

lemma missingNeed?_eq_none_iff {needs : List String} :
    missingNeed? seen needs = none ↔ ∀ need ∈ needs, need ∈ seen := by
  simp [missingNeed?]

/-- The check goes on exactly as long as the jobs are well ordered. -/
lemma checkJobsFrom_eq_ok_iff (seen : List String) (jobs : List Job) :
    checkJobsFrom seen jobs = .ok () ↔ FollowsOn seen jobs := by
  induction jobs generalizing seen with
  | nil => exact iff_of_true rfl followsOn_nil
  | cons job rest ih =>
    rw [followsOn_cons, ← ih, ← missingNeed?_eq_none_iff, checkJobsFrom]
    split_ifs with hname hsteps
    · have hseen : job.name ∈ seen := List.contains_iff_mem.mp hname
      simp [hseen]
    · have hempty : job.steps = [] := List.isEmpty_iff.mp hsteps
      simp [hempty]
    · have hfresh : job.name ∉ seen := fun h => hname (List.contains_iff_mem.mpr h)
      have hsome : job.steps ≠ [] := fun h => hsteps (List.isEmpty_iff.mpr h)
      cases missingNeed? seen job.needs <;> simp [hfresh, hsome]

/-- A list of jobs is accepted exactly if it is well ordered. -/
theorem checkJobs_eq_ok_iff (jobs : List Job) : checkJobs jobs = .ok () ↔ WellOrdered jobs := by
  rw [checkJobs, checkJobsFrom_eq_ok_iff]
  constructor
  · rintro ⟨-, hdistinct, hsteps, hneeds⟩
    refine ⟨hdistinct, hsteps, fun before job after heq need hneed => ?_⟩
    simpa using hneeds before job after heq need hneed
  · rintro ⟨hdistinct, hsteps, hneeds⟩
    exact ⟨by simp, hdistinct, hsteps, fun before job after heq need hneed =>
      Or.inr (hneeds before job after heq need hneed)⟩

end CiRunner
