import CiRunner.Branch.CharClass

/-!
# Regular expressions

An expression stands for a set of texts, told by `Expression.Matches`.  `Expression.accepts` decides
membership by partial derivatives: the expressions that a character leaves of an expression, of
which there are never more than the expression has parts.
-/

namespace CiRunner.Branch

/-- A regular expression over characters. -/
inductive Expression where
  /-- The empty text. -/
  | empty
  /-- One character of a class. -/
  | one (set : CharClass)
  /-- A text of one expression followed by a text of another. -/
  | seq (first second : Expression)
  /-- The empty text or a text of an expression. -/
  | optional (body : Expression)
  /-- Any number of texts of an expression, one after another. -/
  | star (body : Expression)
  deriving DecidableEq, Repr

namespace Expression

/-- The texts of an expression. -/
inductive Matches : Expression → List Char → Prop where
  | empty : Matches .empty []
  | one {set : CharClass} {c : Char} : set.contains c = true → Matches (.one set) [c]
  | seq {a b : Expression} {s t : List Char} :
    Matches a s → Matches b t → Matches (.seq a b) (s ++ t)
  | optionalNone {a : Expression} : Matches (.optional a) []
  | optionalSome {a : Expression} {s : List Char} : Matches a s → Matches (.optional a) s
  | starNil {a : Expression} : Matches (.star a) []
  | starCons {a : Expression} {s t : List Char} :
      Matches a s → Matches (.star a) t → Matches (.star a) (s ++ t)

/-- One or more texts of an expression. -/
def plus (e : Expression) : Expression := .seq e (.star e)

/-- Whether the empty text is a text of the expression. -/
def nullable : Expression → Bool
  | empty => true
  | one _ => false
  | seq a b => a.nullable && b.nullable
  | optional _ => true
  | star _ => true

/-- A sequence, without the empty expression in front. -/
def andThen (a b : Expression) : Expression :=
  match a with
  | empty => b
  | _ => seq a b

/-- The expressions that are left of an expression after a character. -/
def partials (c : Char) : Expression → List Expression
  | empty => []
  | one set => if set.contains c then [empty] else []
  | seq a b => (partials c a).map (andThen · b) ++ if a.nullable then partials c b else []
  | optional a => partials c a
  | star a => (partials c a).map (andThen · (star a))

/-- Whether a text belongs to one of the expressions of a list. -/
def acceptsAny (es : List Expression) : List Char → Bool
  | [] => es.any nullable
  | c :: s => acceptsAny (es.flatMap (partials c)).eraseDups s

/-- Whether a text is a text of the expression. -/
def accepts (e : Expression) (s : List Char) : Bool := acceptsAny [e] s

/-- Expressions one after another. -/
def concat : List Expression → Expression
  | [] => empty
  | e :: es => seq e (concat es)

/-! ### Reading an expression

The text of an expression is cut into symbols; groups are kept on a stack while it is put together.
-/

/-- A symbol of the text of an expression. -/
inductive Symbol where
  /-- One character of a class. -/
  | atom (set : CharClass)
  /-- The beginning of a group. -/
  | opening
  /-- The end of a group. -/
  | closing
  /-- Any number of the part before. -/
  | anyNumber
  /-- One or more of the part before. -/
  | oneOrMore
  /-- None or one of the part before. -/
  | noneOrOne
  /-- Something that cannot be read, with all that follows it. -/
  | malformed (flaw : Flaw)
  deriving DecidableEq, Repr

/-- Cuts the text of an expression into symbols, each with how many characters are left from it on.
A backslash gives the next character its plain meaning, a full stop stands for every character but
the line feed. -/
def symbols (s : List Char) : List (Symbol × Nat) :=
  match s with
  | [] => []
  | '\\' :: rest =>
    match rest with
    | [] => [(.malformed ⟨.loneEscape, 1⟩, 1)]
    | c :: rest => (.atom (.single c), s.length) :: symbols rest
  | '(' :: '?' :: ':' :: rest => (.opening, s.length) :: symbols rest
  | ')' :: rest => (.closing, s.length) :: symbols rest
  | '*' :: rest => (.anyNumber, s.length) :: symbols rest
  | '+' :: rest => (.oneOrMore, s.length) :: symbols rest
  | '?' :: rest => (.noneOrOne, s.length) :: symbols rest
  | '.' :: rest => (.atom (.allBut '\n'), s.length) :: symbols rest
  | '[' :: rest =>
    match h : CharClass.read rest with
    | .error f => [(.malformed f, s.length)]
    | .ok (set, after) =>
      have := CharClass.length_lt_of_read h
      (.atom set, s.length) :: symbols after
  | c :: rest => (.atom (.single c), s.length) :: symbols rest
termination_by s.length

/-- The beginning of a group that is still open: where it is, and the parts before it, last
first. -/
structure OpenGroup where
  /-- How many characters are left from the group on. -/
  left : Nat
  /-- The parts before the group. -/
  before : List Expression
  deriving DecidableEq, Repr

/-- Repeats the last part of an expression. -/
def repeatLast (f : Expression → Expression) (left : Nat) :
    List Expression → Except Flaw (List Expression)
  | [] => .error ⟨.nothingToRepeat, left⟩
  | e :: parts => .ok (f e :: parts)

/-- Puts symbols together.  `outer` holds the open groups, innermost first, and `parts` the parts of
the innermost one, last first. -/
def assemble (outer : List OpenGroup) (parts : List Expression) :
    List (Symbol × Nat) → Except Flaw Expression
  | [] =>
    match outer with
    | [] => .ok (concat parts.reverse)
    | group :: _ => .error ⟨.openGroup, group.left⟩
  | (.atom set, _) :: rest => assemble outer (.one set :: parts) rest
  | (.opening, left) :: rest => assemble (⟨left, parts⟩ :: outer) [] rest
  | (.closing, left) :: rest =>
    match outer with
    | [] => .error ⟨.strayClosing, left⟩
    | group :: outer => assemble outer (concat parts.reverse :: group.before) rest
  | (.anyNumber, left) :: rest => do assemble outer (← repeatLast .star left parts) rest
  | (.oneOrMore, left) :: rest => do assemble outer (← repeatLast .plus left parts) rest
  | (.noneOrOne, left) :: rest => do assemble outer (← repeatLast .optional left parts) rest
  | (.malformed flaw, _) :: _ => .error flaw

/-- Reads the text of an expression. -/
def read (s : List Char) : Except Flaw Expression := assemble [] [] (symbols s)

end Expression

end CiRunner.Branch
