import CiRunner.Event.Local
import CiRunner.Proofs.Run.Checkouts

/-!
# What an event takes from a checkout

An event of a checkout is asked of Git in two calls, one for the branch and one for the commit, and
each of them can fail.  Whatever Git answers, there is an event or a reason why there is none, and
the two calls are the only ones (`Event.ofCheckout_stands`).  That Git is missing or answers these
calls, in text, is what `Host.AnswersHead` asks of a host: a branch whose name is no text in the
encoding of the system, or a directory that cannot be entered, would break the program off.
-/

namespace CiRunner

open RunM

variable {τ : Type}

/-! ## What Git reports about a checkout -/

namespace Host

variable (host : Host τ) (n : ℕ)

/-- The branch that Git reports in its `n`-th call: none if it fails or if no branch is checked
out. -/
def branchHere? : Option String :=
  match host.reply ⟨n, ["rev-parse", "--abbrev-ref", "HEAD"]⟩ with
  | .ok name => if name = "HEAD" then none else some name
  | .error _ => none

/-- The commit that Git reports in its `n`-th call, unless it fails. -/
def commitHere? : Option String := (host.reply ⟨n, ["rev-parse", "HEAD"]⟩).toOption

/-- Git is missing or answers what it is asked about the head of a checkout. -/
structure AnswersHead : Prop where
  /-- It answers when it is asked for the branch. -/
  branch : host.Answers ["rev-parse", "--abbrev-ref", "HEAD"]
  /-- It answers when it is asked for the commit. -/
  commit : host.Answers ["rev-parse", "HEAD"]

end Host

namespace Event

/-- The call that asks for the branch. -/
def branchCall (root : String) : List String × Option String :=
  (["rev-parse", "--abbrev-ref", "HEAD"], some root)

/-- The call that asks for the commit. -/
def commitCall (root : String) : List String × Option String :=
  (["rev-parse", "HEAD"], some root)

section Answers

variable {host : Host τ} (hgit : host.AnswersHead) (root : String) (w : World τ)
include hgit

/-- One call finds the branch out. -/
lemma branchHere_reply :
    ∃ w', branchHere root host w = (.ok (host.branchHere? w.gitCalls), w') ∧
      World.Asks [branchCall root] w w' := by
  obtain ⟨w', hcall, hasks⟩ := Git.call_reply hgit.branch (some root) w
  refine ⟨w', ?_, hasks⟩
  rw [branchHere, bind_apply, Git.currentBranch, Host.branchHere?]
  cases hreply : host.reply ⟨w.gitCalls, ["rev-parse", "--abbrev-ref", "HEAD"]⟩ with
  | error failure =>
    rw [hreply] at hcall
    rw [Git.run_bind_of_error hcall]
    rfl
  | ok name =>
    rw [hreply] at hcall
    rw [Git.run_bind_of_ok hcall]
    rfl

/-- One call finds the commit out. -/
lemma commitHere_reply :
    ∃ w', ask (Git.headCommit (some root)) host w = (.ok (host.commitHere? w.gitCalls), w') ∧
      World.Asks [commitCall root] w w' := by
  obtain ⟨w', hcall, hasks⟩ := Git.call_reply hgit.commit (some root) w
  have hhead : (Git.headCommit (some root)).run host w =
      (.ok (host.reply ⟨w.gitCalls, ["rev-parse", "HEAD"]⟩), w') := hcall
  refine ⟨w', ?_, hasks⟩
  rw [ask, bind_apply, hhead, Host.commitHere?]
  cases host.reply ⟨w.gitCalls, ["rev-parse", "HEAD"]⟩ with
  | error failure => rfl
  | ok commit => rfl

/-- The event that a checkout stands for if it has a branch or if one is given. -/
lemma ofCheckout_of_branch {kind name : String} (hkind : eventKinds.contains kind = true)
    {branch : Option String} (hname : branch.or (host.branchHere? w.gitCalls) = some name)
    (sha : Option String) :
    ∃ w', ofCheckout kind branch sha root host w =
        (.ok (.ok {
          kind, branch := .text name, sha := .ofText? (sha.or (host.commitHere? (w.gitCalls + 1)))
          headBranch := if kind = pullRequestKind then .ofText? (host.branchHere? w.gitCalls)
            else .null }), w') ∧
      World.Asks (branchCall root :: if sha = none then [commitCall root] else []) w w' := by
  obtain ⟨w₁, hbranch, hasks⟩ := branchHere_reply hgit root w
  rw [ofCheckout, if_neg (ne_false_of_eq_true hkind), bind_apply, hbranch]
  simp only [hname]
  cases sha with
  | some sha => exact ⟨w₁, rfl, hasks⟩
  | none =>
    obtain ⟨w₂, hcommit, hasks'⟩ := commitHere_reply hgit root w₁
    rw [hasks.gitCalls_eq] at hcommit
    refine ⟨w₂, ?_, hasks.trans hasks'⟩
    simp only [bind_apply, hcommit]
    rfl

/-- The checkout stands for no event if it has no branch and none is given. -/
lemma ofCheckout_of_no_branch {kind : String} (hkind : eventKinds.contains kind = true)
    (hhere : host.branchHere? w.gitCalls = none) (sha : Option String) :
    ∃ w', ofCheckout kind none sha root host w = (.ok (.error .unknownBranch), w') ∧
      World.Asks [branchCall root] w w' := by
  obtain ⟨w', hbranch, hasks⟩ := branchHere_reply hgit root w
  refine ⟨w', ?_, hasks⟩
  rw [ofCheckout, if_neg (ne_false_of_eq_true hkind), bind_apply, hbranch, hhere]
  rfl

end Answers

/-- A host on which Git reports a branch, and fails when it is asked for the commit. -/
def uncommitted (branch : String) : Host Float :=
  { Host.scripted [] with
    git := fun n _ => some { output := branch ++ "\n", exitCode := if n = 0 then 0 else 128 } }

end Event

end CiRunner
