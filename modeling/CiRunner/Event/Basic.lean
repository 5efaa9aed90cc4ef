import CiRunner.Branch.Pattern
import CiRunner.Workflow.Basic

/-!
# Repository events and the rules they match

An event tells what happened in a repository: a push or a pull request.  Its fields come from
notifications that nobody has checked, so they may hold any value.

`TriggerRule.test` formalises `rule_matches`, and `matchingRule` and `shouldRun` formalise
`matching_rule` and `should_run`.
-/

namespace CiRunner

/-- The kind of a push. -/
def pushKind : String := "push"

/-- The kind of a pull request. -/
def pullRequestKind : String := "pull_request"

/-- The kinds of events that can start a run. -/
def eventKinds : List String := [pushKind, pullRequestKind]

/-- The activities of a pull request that start a run when a rule lists none. -/
def defaultActivities : List String := ["opened", "synchronize", "reopened"]

/-- Something that happened in a repository.  For a pull request the branch is the one it wants to
be merged into. -/
structure Event where
  /-- The kind of event. -/
  kind : String
  /-- The branch, or the tag. -/
  branch : Value
  /-- The commit. -/
  sha : Value := .null
  /-- Whether `branch` names a branch or a tag. -/
  refType : String := "branch"
  /-- The activity of a pull request. -/
  action : Value := .null
  /-- The branch a pull request comes from. -/
  headBranch : Value := .null
  /-- The address of the repository. -/
  repository : Value := .null
  deriving Repr, Inhabited

namespace TriggerRule

open Branch

/-- The activities a rule lists, or the usual ones. -/
def activities (r : TriggerRule) : List String :=
  match r.types with
  | some (t :: ts) => t :: ts
  | _ => defaultActivities

/-- Whether the rule filters branches at all. -/
def filtersBranches (r : TriggerRule) : Bool := r.branches.isSome || r.branchesIgnore.isSome

/-- Whether the branch filters of a rule let a branch through. -/
def admits (r : TriggerRule) (branch : Value) : Except Pattern.MatchError Bool := do
  let inside ←
    match r.branches with
    | none => pure true
    | some patterns => Pattern.included branch patterns
  if inside then
    match r.branchesIgnore with
    | none => pure true
    | some patterns => return !(← Pattern.matchesAny branch patterns)
  else pure false

/-- Whether the activity of an event starts a run by the rule; an event without one always does. -/
def admitsAction (r : TriggerRule) (e : Event) : Bool :=
  match e.action with
  | .null => true
  | action => action.isAmong r.activities

/-- Whether an event matches a rule.  A branch filter never lets a tag through. -/
def test (r : TriggerRule) (e : Event) : Except Pattern.MatchError Bool :=
  if r.event ≠ e.kind then pure false
  else if e.kind = pullRequestKind ∧ r.admitsAction e = false then pure false
  else if r.filtersBranches = false then pure true
  else if e.refType ≠ "branch" then pure false
  else r.admits e.branch

end TriggerRule

namespace Workflow

open Branch

/-- The first of the rules that an event matches. -/
def firstMatch (e : Event) : List TriggerRule → Except Pattern.MatchError (Option TriggerRule)
  | [] => pure none
  | r :: rest => do
    if ← r.test e then pure (some r) else firstMatch e rest

/-- The first rule of the workflow that an event matches. -/
def matchingRule (w : Workflow) (e : Event) : Except Pattern.MatchError (Option TriggerRule) :=
  firstMatch e w.triggers

/-- Whether an event starts a run: it does when it matches a rule. -/
def shouldRun (w : Workflow) (e : Event) : Except Pattern.MatchError Bool :=
  return (← w.matchingRule e).isSome

end Workflow

end CiRunner
