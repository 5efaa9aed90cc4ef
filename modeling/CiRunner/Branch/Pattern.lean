import CiRunner.Branch.Expression
import CiRunner.Value.Basic

/-!
# Branch patterns

A branch filter names branches by patterns.  Read from left to right, `**` is any run of characters,
`*` any run without a slash, brackets give a class of characters, a backslash takes the next
character as it is, and `?` or `+` makes the piece before it optional or repeated.  Anything else
stands for itself.

A pattern with any of these signs is written out as a regular expression and has to match the whole
branch name; a pattern without them is compared with the name.  Classes are written out as they
stand, so a class that the expression reads differently can take in what follows it.

`pieces` and `expressionText` formalise `_pattern_regex`, `test` formalises `branch_matches` and
`included` the loop `_included`.
-/

namespace CiRunner.Branch

open CiRunner.Text

/-- A piece of a pattern. -/
inductive Piece where
  /-- Any run of characters. -/
  | anyRun
  /-- Any run of characters without a slash. -/
  | segmentRun
  /-- One character of the class with this text between its brackets. -/
  | charClass (body : List Char)
  /-- A character that stands for itself. -/
  | literal (c : Char)
  /-- None or one of a piece. -/
  | optional (piece : Piece)
  /-- One or more of a piece. -/
  | repeated (piece : Piece)
  deriving DecidableEq, Repr

namespace Piece

/-- The signs that need a backslash in the text of an expression. -/
def specialSigns : List Char :=
  ['(', ')', '[', ']', '\x7b', '\x7d', '?', '*', '+', '-', '|', '^', '$', '\\', '.', '&', '~', '#',
    ' ', '\t', '\n', '\r', '\x0b', '\x0c']

/-- A character as the text of an expression that matches it. -/
def escape (c : Char) : List Char :=
  if specialSigns.contains c then ['\\', c] else [c]

/-- The text of the expression for a piece. -/
def expression : Piece → List Char
  | anyRun => ['.', '*']
  | segmentRun => ['[', '^', '/', ']', '*']
  | charClass body => '[' :: (body ++ [']'])
  | literal c => escape c
  | optional p => '(' :: '?' :: ':' :: (p.expression ++ [')', '?'])
  | repeated p => '(' :: '?' :: ':' :: (p.expression ++ [')', '+'])

end Piece

namespace Pattern

/-- Applies a suffix sign to the last piece; without a piece before it the sign stands for
itself. -/
def applySuffix (suffix : Piece → Piece) (sign : Char) : List Piece → List Piece
  | [] => [.literal sign]
  | p :: before => suffix p :: before

/-- Reads a pattern from left to right; `before` holds the pieces read so far, last first. -/
def piecesFrom (before : List Piece) (s : List Char) : List Piece :=
  match s with
  | [] => before.reverse
  | '*' :: rest =>
    match rest with
    | '*' :: rest => piecesFrom (.anyRun :: before) rest
    | rest => piecesFrom (.segmentRun :: before) rest
  | '?' :: rest => piecesFrom (applySuffix .optional '?' before) rest
  | '+' :: rest => piecesFrom (applySuffix .repeated '+' before) rest
  | '[' :: rest =>
    if rest.contains ']' then
      piecesFrom (.charClass (rest.takeWhile (· != ']')) :: before)
        ((rest.dropWhile (· != ']')).drop 1)
    else piecesFrom (.literal '[' :: before) rest
  | '\\' :: rest =>
    match rest with
    | [] => piecesFrom (.literal '\\' :: before) []
    | c :: rest => piecesFrom (.literal c :: before) rest
  | c :: rest => piecesFrom (.literal c :: before) rest
termination_by s.length
decreasing_by
  all_goals simp only [List.length_cons, List.length_drop]
  all_goals first
    | omega
    | (have h := (List.dropWhile_sublist (· != ']') (l := rest)).length_le; omega)

/-- The pieces of a pattern. -/
def pieces (pattern : String) : List Piece := piecesFrom [] pattern.toList

/-- The text of the expression for a pattern. -/
def expressionText (pattern : String) : List Char :=
  (pieces pattern).flatMap Piece.expression

/-- Whether a pattern has a sign with a meaning of its own. -/
def hasSigns (pattern : String) : Bool :=
  pattern.toList.any fun c => c == '*' || c == '?' || c == '+' || c == '[' || c == '\\'

/-- Why a branch cannot be compared with a pattern. -/
inductive MatchError where
  /-- The pattern written out as this text is no regular expression. -/
  | malformedPattern (text : List Char) (flaw : Flaw)
  /-- The branch is no text. -/
  | branchNotText
  deriving DecidableEq, Repr

/-- What is wrong between a branch and a pattern. -/
def MatchError.message : MatchError → String
  | malformedPattern text flaw => flaw.message text
  | branchNotText => "expected string or bytes-like object"

/-- Whether a branch matches a pattern.  A branch that is no text equals no plain pattern. -/
def test (branch : Value) (pattern : String) : Except MatchError Bool :=
  if hasSigns pattern then
    match Expression.read (expressionText pattern) with
    | .error flaw => .error (.malformedPattern (expressionText pattern) flaw)
    | .ok e =>
      match branch with
      | .text s => .ok (e.accepts s.toList)
      | _ => .error .branchNotText
  else .ok (branch.isText pattern)

/-- Applies one entry of a branch list: a pattern takes matching branches in, an exclamation mark in
front of it puts them out. -/
def step (branch : Value) (included : Bool) (entry : String) : Except MatchError Bool :=
  match entry.toList with
  | '!' :: rest => do
    let hit ← test branch (String.ofList rest)
    pure (if hit then false else included)
  | _ => do
    let hit ← test branch entry
    pure (if hit then true else included)

/-- Whether a list of patterns includes a branch: the last entry that matches decides. -/
def included (branch : Value) (patterns : List String) : Except MatchError Bool :=
  patterns.foldlM (step branch) false

/-- Whether one of the patterns matches; those after the first match are not looked at. -/
def matchesAny (branch : Value) : List String → Except MatchError Bool
  | [] => .ok false
  | p :: rest => do
    if ← test branch p then pure true else matchesAny branch rest

end Pattern

end CiRunner.Branch
