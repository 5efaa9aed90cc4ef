import CiRunner.Run.Workspace

/-!
# The checkout action

The only action a run knows is the checkout.  In place it looks at the directory that is there; in
an isolated working tree it clones the source and checks out a reference without a branch.

`isCheckout`, `pin` and `perform` formalise `is_checkout`, `action_pin` and `run_checkout`.
-/

namespace CiRunner.Checkout

open CiRunner.Text

/-- The name of the action. -/
def actionName : String := "actions/checkout"

/-- Whether a step is a checkout: its action has that name, whatever version is asked for. -/
def isCheckout (s : Step) : Bool :=
  match s.uses with
  | some action => String.ofList (cutAt '@' action.toList).1 == actionName
  | none => false

/-- The version of an action that is asked for. -/
def pin (action : String) : String :=
  match (cutAt '@' action.toList).2 with
  | none | some [] => "latest"
  | some version => String.ofList version

/-- The action and its version as they are shown. -/
def label (s : Step) : String := " (" ++ actionName ++ "@" ++ pin (s.uses.getD "") ++ ")"

/-- What a step checks out in an isolated working tree: its own reference, else that of the run,
else the tip. -/
def reference (ws : Workspace) (s : Step) : String :=
  match s.inputs.value? "ref" with
  | none | some "" => if ws.reference = "" then "HEAD" else ws.reference
  | some given => given

variable {τ : Type}

/-- Looks at a working tree in place. -/
def inPlace (ws : Workspace) (s : Step) : RunM τ (Except String String) := do
  if (← get).tree.isDir ws.place = false then
    return .error ("Working tree not found: " ++ ws.place.text)
  else if ← Git.isWorkTree ws.place.text then
    return .ok ("using working tree " ++ ws.place.text ++ label s)
  else return .ok ("using directory " ++ ws.place.text ++ ", not a git work tree" ++ label s)

/-- Clones the source of an isolated working tree and checks out a reference. -/
def clone (ws : Workspace) (reference : String) : Git.GitM τ Unit := do
  Git.clone ws.source ws.place.text
  Git.checkout reference ws.place.text

/-- Carries out a checkout: what was done, or why it failed. -/
def perform (ws : Workspace) (s : Step) : RunM τ (Except String String) := do
  if ws.isolated then
    match ← (clone ws (reference ws s)).run with
    | .ok () =>
      return .ok ("checked out " ++ reference ws s ++ " from " ++ ws.source ++ label s)
    | .error e => return .error e.message
  else inPlace ws s

end CiRunner.Checkout
