import CiRunner.Text.Blank

/-!
# What may mend a missing command

A shell that cannot find a command names it in its output, as `cargo: command not found` or
`cargo: not found`.  The last command so named is the missing one; if none is named, it is the first
word of what was run.

`of?` formalises `_hint_for`, with the expression `_NOT_FOUND` and the table `TOOL_HINTS`.
-/

namespace CiRunner.Hint

open CiRunner.Text

/-- The two ways in which a shell ends the name of a missing command. -/
def endings : List (List Char) := [": command not found".toList, ": not found".toList]

/-- What follows the end of the name of a missing command, if the text begins with such an end. -/
def afterEnding? (s : List Char) : Option (List Char) :=
  (endings.find? (·.isPrefixOf s)).map fun ending => s.drop ending.length

/-- Only a proper part of a text follows the end of a name. -/
theorem length_afterEnding? {c : Char} {s rest : List Char}
    (h : afterEnding? (c :: s) = some rest) : rest.length < (c :: s).length := by
  obtain ⟨ending, he, rfl⟩ := Option.map_eq_some_iff.1 h
  have hne : 0 < ending.length := by
    have := List.mem_of_find?_eq_some he
    simp only [endings, List.mem_cons, List.not_mem_nil, or_false] at this
    rcases this with rfl | rfl <;> decide
  rw [List.length_drop, List.length_cons]
  omega

/-- Whether a character can be part of the name of a command. -/
def inName (c : Char) : Bool := !isBlank c && c != ':'

/-- The names of the missing commands in a text, read from left to right; `word` holds the
characters of the name just before, last first. -/
def missingFrom (word s : List Char) : List String :=
  match s with
  | [] => []
  | c :: rest =>
    match _found : afterEnding? (c :: rest) with
    | some after =>
      if word.isEmpty then missingFrom [] rest
      else String.ofList word.reverse :: missingFrom [] after
    | none => missingFrom (if inName c then c :: word else []) rest
termination_by s.length
decreasing_by
  · simp
  · exact length_afterEnding? ‹_›
  · simp

/-- The names of the missing commands in the output of a shell. -/
def missing (output : String) : List String := missingFrom [] output.toList

/-- The last part of a path. -/
def baseName (path : String) : String :=
  String.ofList (path.toList.reverse.takeWhile (· != '/')).reverse

/-- The tool that was not found. -/
def tool (command output : String) : String :=
  baseName ((missing output).getLast?.getD (firstWord command))

/-- How well-known tools are installed. -/
def known : List (String × String) := [
  ("cargo", "Install the Rust toolchain (https://rustup.rs) or fix PATH."),
  ("rustc", "Install the Rust toolchain (https://rustup.rs) or fix PATH."),
  ("go", "Install Go or fix PATH."),
  ("npm", "Install Node.js (includes npm) or fix PATH."),
  ("node", "Install Node.js or fix PATH."),
  ("make", "Install make (e.g., build-essential) or fix PATH."),
  ("gradle", "Install Gradle or fix PATH."),
  ("pytest", "Install pytest (e.g., pip install pytest)."),
  ("git", "Install Git or fix PATH.")]

/-- How a tool is installed; there is no advice for an empty name. -/
def forTool (tool : String) : Option String :=
  match known.lookup tool with
  | some advice => some advice
  | none => if tool = "" then none else some ("Install " ++ tool ++ " or fix PATH.")

/-- What may mend a command that was not found. -/
def of? (command output : String) : Option String := forTool (tool command output)

end CiRunner.Hint
