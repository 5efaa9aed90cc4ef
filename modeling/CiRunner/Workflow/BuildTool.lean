import CiRunner.Workflow.Building

/-!
# Build tools

A step that builds or tests a project with one of the known tools: the command of the tool, its
flag for more output, and further arguments.

`buildStep` and `testStep` formalise `build_step` and `test_step`, with the table `BUILD_MANAGERS`.
-/

namespace CiRunner

open CiRunner.Text

/-- How a tool is called. -/
structure BuildTool where
  /-- The command that builds. -/
  build : String
  /-- The command that tests. -/
  test : String
  /-- The flag for more output. -/
  verbose : String
  /-- The arguments if none are given. -/
  arguments : String
  deriving DecidableEq, Repr

namespace BuildTool

/-- The known tools by name, in the order of their names. -/
def known : List (String × BuildTool) := [
  ("cargo", ⟨"cargo build", "cargo test", "--verbose", ""⟩),
  ("go", ⟨"go build", "go test", "-v", "./..."⟩),
  ("gradle", ⟨"gradle build", "gradle test", "--info", ""⟩),
  ("make", ⟨"make", "make test", "V=1", ""⟩),
  ("npm", ⟨"npm run build", "npm test", "--loglevel verbose", ""⟩)]

/-- The tool of a name. -/
def named (name : String) : Except BuildError BuildTool :=
  match known.lookup name with
  | some tool => .ok tool
  | none => .error (.unknownTool name (known.map (·.1)))

/-- What is asked of a tool. -/
structure Request where
  /-- The name of the tool. -/
  tool : String := "cargo"
  /-- The name of the step. -/
  name : String
  /-- Whether more output is asked for. -/
  verbose : Bool := true
  /-- The arguments, in place of the usual ones. -/
  arguments : Option String := none
  /-- The working directory. -/
  cwd : Value := .null
  deriving Repr

/-- The command that calls a tool: one of its commands, the flag, the arguments. -/
def command (t : BuildTool) (base : String) (r : Request) : String :=
  let arguments := trim (r.arguments.getD t.arguments)
  join " " ([base] ++ (if r.verbose then [t.verbose] else []) ++
    if arguments = "" then [] else [arguments])

/-- The step that builds. -/
def buildStep (r : Request) : Except BuildError Step := do
  let tool ← named r.tool
  return .ofCommand r.name (tool.command tool.build r) r.cwd [] none

/-- The step that tests. -/
def testStep (r : Request) : Except BuildError Step := do
  let tool ← named r.tool
  return .ofCommand r.name (tool.command tool.test r) r.cwd [] none

end BuildTool

end CiRunner
