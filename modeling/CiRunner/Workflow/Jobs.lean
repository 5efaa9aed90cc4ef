import CiRunner.Workflow.Basic
import CiRunner.Workflow.Error

/-!
# The order of jobs

Jobs run in the order of their declaration, so a job may only depend on jobs declared before it.
`WellOrdered` says so, and `checkJobs` finds the first place where a list of jobs breaks the rule.

`checkJobs` formalises `_check_jobs`.
-/

namespace CiRunner

/-- Job names are distinct, each job has a step, and a job depends on earlier jobs only. -/
structure WellOrdered (jobs : List Job) : Prop where
  /-- No two jobs have the same name. -/
  distinct : (jobs.map (·.name)).Nodup
  /-- Every job has a step. -/
  steps : ∀ j ∈ jobs, j.steps ≠ []
  /-- What a job depends on is declared before it. -/
  needs : ∀ before job after, jobs = before ++ job :: after →
    ∀ need ∈ job.needs, need ∈ before.map (·.name)

/-- The first name that is not among those declared before. -/
def missingNeed? (seen needs : List String) : Option String :=
  needs.find? fun need => !seen.contains need

/-- Looks for the first fault of a list of jobs; `seen` holds the names of the jobs before it. -/
def checkJobsFrom (seen : List String) : List Job → Except WorkflowError Unit
  | [] => .ok ()
  | job :: rest =>
    if seen.contains job.name then .error (.duplicateJob job.name)
    else if job.steps.isEmpty then .error (.jobWithoutSteps job.name)
    else
      match missingNeed? seen job.needs with
      | some need => .error (.laterNeed job.name need)
      | none => checkJobsFrom (job.name :: seen) rest

/-- Looks for the first fault of a list of jobs. -/
def checkJobs (jobs : List Job) : Except WorkflowError Unit := checkJobsFrom [] jobs

end CiRunner
