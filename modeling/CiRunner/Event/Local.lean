import CiRunner.Event.Payload
import CiRunner.Run.Git

/-!
# Events of a checkout

Without a notification an event is made from the checkout at hand: the branch and the commit that
are checked out stand for what is not given.

`Event.ofCheckout` formalises `local_event`.
-/

namespace CiRunner.Event

variable {τ : Type}

/-- The answer to a question about the checkout; nothing if Git has none. -/
def ask (question : Git.GitM τ String) : RunM τ (Option String) := do
  match ← question.run with
  | .ok answer => return some answer
  | .error _ => return none

/-- The branch that is checked out; nothing if there is none. -/
def branchHere (root : String) : RunM τ (Option String) := do
  match ← (Git.currentBranch (some root)).run with
  | .ok branch => return branch
  | .error _ => return none

/-- The event of a given kind that the checkout stands for. -/
def ofCheckout (kind : String) (branch sha : Option String) (root : String) :
    RunM τ (Except EventError Event) := do
  if eventKinds.contains kind = false then return .error (.unsupportedKind kind)
  else
    let here ← branchHere root
    match branch.or here with
    | none => return .error .unknownBranch
    | some branch =>
      let commit ←
        match sha with
        | some sha => pure (some sha)
        | none => ask (Git.headCommit (some root))
      return .ok {
        kind, branch := .text branch, sha := Value.ofText? commit
        headBranch := if kind = pullRequestKind then Value.ofText? here else .null }

end CiRunner.Event
