import CiRunner.FileTree.Tree

/-!
# Finding workflow files

Workflow files are the documents in the directory for workflows and the scripts at the root whose
names end in a certain way.  They are listed in the order of their paths, name by name.

`discover` formalises `discover_workflows`.
-/

namespace CiRunner

namespace FileTree

/-- The suffixes of documents. -/
def documentSuffixes : List String := [".yml", ".yaml"]

/-- How the name of a script ends. -/
def scriptEnding : String := "_workflow.py"

/-- The directory for workflows below a root. -/
def workflowDirectory : Path := Path.ofText ".github/workflows"

/-- Whether a text ends with another one. -/
def endsWith (s ending : String) : Bool := ending.toList.isSuffixOf s.toList

/-- The paths of the names in a directory that end in a given way. -/
def entriesEnding (t : FileTree) (base : Location) (dir : Path) (ending : String) : List Path :=
  if t.finds base dir then
    ((t.children (dir.resolve base)).filter (endsWith · ending)).map fun name =>
      dir.join ⟨false, [name]⟩
  else []

/-- Whether a path comes before another one, or is it. -/
def pathLe (p q : Path) : Bool := !q.parts.lex p.parts fun a b => compare a b == .lt

/-- The workflow files below a root, which is looked at from a directory. -/
def discover (t : FileTree) (base : Location) (root : Path) : List Path :=
  let documents := documentSuffixes.flatMap (t.entriesEnding base (root.join workflowDirectory))
  (documents ++ t.entriesEnding base root scriptEnding).mergeSort pathLe

end FileTree

end CiRunner
