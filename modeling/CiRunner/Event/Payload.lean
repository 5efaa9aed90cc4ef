import CiRunner.Event.Basic
import CiRunner.Value.Display

/-!
# Events from notifications

A hosting service announces an event as an object.  Nothing in it is checked beforehand: a missing
part is an error of its own, and a part of the wrong kind shows when it is used as a text or an
object.

`Event.ofPayload` formalises `event_from_payload`, and `require` its helper `_require`.
-/

namespace CiRunner

/-- Why no event can be made. -/
inductive EventError where
  /-- A part of the notification is missing. -/
  | missing (path : List String)
  /-- The reference of a push is neither a branch nor a tag. -/
  | unsupportedRef (ref : String)
  /-- The kind of event is not supported. -/
  | unsupportedKind (kind : String)
  /-- The checkout has no branch and none was given. -/
  | unknownBranch
  /-- A part that is used as a text or an object is none. -/
  | wrongPart
  deriving DecidableEq, Repr

namespace EventError

/-- The list of supported kinds as it is shown in messages. -/
def kindsShown : String := "(" ++ Text.join ", " (eventKinds.map Text.quoted) ++ ")"

/-- The message of an error; a part of the wrong kind has none. -/
def message : EventError → String
  | missing path => "Webhook payload missing '" ++ Text.join "." path ++ "'"
  | unsupportedRef ref => "Unsupported ref in push payload: " ++ ref
  | unsupportedKind kind =>
    "Unsupported event kind: " ++ Text.quoted kind ++ " (expected one of " ++ kindsShown ++ ")"
  | unknownBranch =>
    "Could not determine the branch (not a git checkout, or detached HEAD). " ++
      "Pass --branch explicitly."
  | wrongPart => ""

end EventError

namespace Event

/-- The value at a path of keys, every one of which has to be there. -/
def require (payload : Value) (path : List String) : Except EventError Value :=
  match path.foldlM (fun v key => v.get? key) payload with
  | some v => .ok v
  | none => .error (.missing path)

/-- The value at a key of a part that may be missing; a part that counts as true has to be an
object. -/
def optionalField (part : Value) (key : String) : Except EventError Value :=
  if part.truthy then
    match part with
    | .map _ => .ok (part.field key)
    | _ => .error .wrongPart
  else .ok .null

/-- A text without its beginning, if it begins so. -/
def dropStart? (start s : String) : Option String :=
  if start.toList.isPrefixOf s.toList then some (String.ofList (s.toList.drop start.length))
  else none

/-- The name and the type of a pushed reference. -/
def ofRef (ref : Value) : Except EventError (String × String) :=
  match ref with
  | .text s =>
    match dropStart? "refs/heads/" s, dropStart? "refs/tags/" s with
    | some name, _ => .ok (name, "branch")
    | none, some name => .ok (name, "tag")
    | none, none => .error (.unsupportedRef s)
  | _ => .error .wrongPart

/-- The event that a notification announces. -/
def ofPayload (kind : String) (payload : Value) : Except EventError Event := do
  unless payload.isMap do
    throw .wrongPart
  let repository ← optionalField (payload.field "repository") "clone_url"
  if kind = pushKind then
    let (name, refType) ← ofRef (← require payload ["ref"])
    let head ← optionalField (payload.field "head_commit") "id"
    let sha := if head.truthy then head else payload.field "after"
    pure { kind, branch := .text name, sha, refType, repository }
  else if kind = pullRequestKind then
    let branch ← require payload ["pull_request", "base", "ref"]
    let sha ← require payload ["pull_request", "head", "sha"]
    let headBranch ← require payload ["pull_request", "head", "ref"]
    pure { kind, branch, sha, action := payload.field "action", headBranch, repository }
  else .error (.unsupportedKind kind)

end Event

end CiRunner
