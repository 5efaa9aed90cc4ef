import CiRunner.Event.Payload
import Mathlib.Tactic.Lemma

/-!
# The events that objects announce

An object announces a push or a pull request.  What is made of it depends on the kind alone once the
repository was looked up, so each of the two has an equation of its own.

A part that may be missing can be looked into unless it counts as true and is no object.
-/

namespace CiRunner

/-! ## Parts that may be missing -/

/-- A part that counts as true and is no object. -/
def Value.IsMisplaced (part : Value) : Prop := part.truthy = true ∧ part.isMap = false

/-- What is nothing or an object is in its place. -/
lemma Value.not_isMisplaced {part : Value} (h : part = .null ∨ part.isMap = true) :
    ¬part.IsMisplaced := by
  rintro ⟨htrue, hnot⟩
  rcases h with rfl | h
  · cases htrue
  · rw [h] at hnot
    cases hnot

namespace Event

/-- A part that may be missing is of the wrong kind, or it is read. -/
lemma optionalField_cases (part : Value) (key : String) :
    (part.IsMisplaced ∧ optionalField part key = .error .wrongPart) ∨
      (¬part.IsMisplaced ∧ ∃ v, optionalField part key = .ok v) := by
  unfold optionalField Value.IsMisplaced
  by_cases htrue : part.truthy = true
  · cases part with
    | map entries => exact Or.inr ⟨by simp [Value.isMap], by simp [htrue]⟩
    | _ => exact Or.inl ⟨⟨htrue, rfl⟩, if_pos htrue⟩
  · exact Or.inr ⟨fun h => htrue h.1, .null, if_neg htrue⟩

/-- A part that is nothing or an object can always be looked into. -/
lemma exists_optionalField {part : Value} (h : part = .null ∨ part.isMap = true) (key : String) :
    ∃ v, optionalField part key = .ok v := by
  rcases optionalField_cases part key with ⟨hmisplaced, -⟩ | ⟨-, hread⟩
  · exact absurd hmisplaced (Value.not_isMisplaced h)
  · exact hread

/-- What is read of a part is what it holds, or nothing. -/
lemma of_optionalField_eq_ok {part v : Value} {key : String}
    (h : optionalField part key = .ok v) : v = .null ∨ v = part.field key := by
  unfold optionalField at h
  split at h
  · split at h
    · exact Or.inr (Except.ok.inj h).symm
    · cases h
  · exact Or.inl (Except.ok.inj h).symm

/-! ## Pushes and pull requests -/

/-- The push to a repository that an object announces. -/
def pushOf (payload repository : Value) : Except EventError Event := do
  let (name, refType) ← ofRef (← require payload ["ref"])
  let head ← optionalField (payload.field "head_commit") "id"
  let sha := if head.truthy then head else payload.field "after"
  pure { kind := pushKind, branch := .text name, sha, refType, repository }

/-- The pull request in a repository that an object announces. -/
def pullRequestOf (payload repository : Value) : Except EventError Event := do
  let branch ← require payload ["pull_request", "base", "ref"]
  let sha ← require payload ["pull_request", "head", "sha"]
  let headBranch ← require payload ["pull_request", "head", "ref"]
  pure {
    kind := pullRequestKind, branch, sha, action := payload.field "action", headBranch, repository }

variable {payload : Value} (h : payload.isMap = true)
include h

/-- An object announces a push. -/
lemma ofPayload_push :
    ofPayload pushKind payload =
      optionalField (payload.field "repository") "clone_url" >>= pushOf payload := by
  simp only [ofPayload, h, if_true]
  rfl

/-- An object announces a pull request. -/
lemma ofPayload_pullRequest :
    ofPayload pullRequestKind payload =
      optionalField (payload.field "repository") "clone_url" >>= pullRequestOf payload := by
  have hkind : pullRequestKind ≠ pushKind := by decide
  simp only [ofPayload, h, if_true, if_neg hkind]
  rfl

end Event

end CiRunner
