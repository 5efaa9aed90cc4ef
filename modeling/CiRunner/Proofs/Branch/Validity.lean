import CiRunner.Proofs.Branch.LastMatch
import CiRunner.Proofs.Branch.Semantics
import CiRunner.Proofs.Plain
import CiRunner.Proofs.Search

/-!
# Valid patterns

To compare a branch with a pattern, the pattern is written out as an expression, unless it has no
signs.  The pattern is valid if that expression can be read.  Nothing but a class can make a pattern
invalid: if its classes hold letters, digits and ranges of them, a pattern is valid exactly if all
ranges are in order.
-/

namespace CiRunner.Branch

/-- A pattern is valid: written out it is an expression, unless it has no signs. -/
def Pattern.IsValid (pattern : String) : Prop :=
  hasSigns pattern = true → ∃ e, Expression.read (expressionText pattern) = .ok e

/-- A pattern is valid if it can be read as an expression. -/
lemma Pattern.isValid_of_isOk {pattern : String}
    (h : (Expression.read (expressionText pattern)).isOk = true) : IsValid pattern := by
  intro _
  cases hread : Expression.read (expressionText pattern) with
  | ok e => exact ⟨e, rfl⟩
  | error flaw =>
    rw [hread] at h
    cases h

/-- How many suffixes a piece has, one after the other. -/
def Piece.suffixes : Piece → ℕ
  | optional p | repeated p => p.suffixes + 1
  | anyRun | segmentRun | charClass _ | literal _ => 0

/-- A pattern is plain: written out it names no character by a long name, its groups do not stand
too deep in one another, and no character of it stands for half of a surrogate pair. -/
structure Pattern.IsPlain (pattern : String) : Prop where
  /-- No escape of a class begins as one with a name in braces does. -/
  nameless : ¬['\\', 'N', '\x7b'] <:+: expressionText pattern
  /-- Every suffix makes a group of what is before it. -/
  shallow : ∀ p ∈ pieces pattern, p.suffixes ≤ safeDepth
  /-- No half was replaced. -/
  whole : '\uFFFD' ∉ pattern.toList

/-- The classes of a piece list letters, digits and ranges of them, in order or not. -/
def Piece.Listed : Piece → Prop
  | charClass body => ∃ negated items, Lists body negated items
  | optional p | repeated p => p.Listed
  | anyRun | segmentRun | literal _ => True

/-! ## Texts that cannot be read -/

namespace Expression

variable {text : List Char}

/-- A text cannot be read, whatever stands before and after it. -/
def Unreadable (text : List Char) : Prop :=
  ∀ outer parts rest, ∃ flaw, assemble outer parts (symbols (text ++ rest)) = .error flaw

/-- A class that cannot be read, whatever stands after it. -/
lemma unreadable_charClass {body : List Char}
    (h : ∀ rest, ∃ flaw, CharClass.read (body ++ ']' :: rest) = .error flaw) :
    Unreadable ('[' :: (body ++ [']'])) := by
  intro outer parts rest
  obtain ⟨flaw, hflaw⟩ := h rest
  rw [List.cons_append, List.append_assoc, List.singleton_append, symbols]
  split
  · exact ⟨_, rfl⟩
  · rename_i hok
    cases hflaw.symm.trans hok

/-- A group cannot be read if what it holds cannot. -/
lemma Unreadable.group (h : Unreadable text) (sign : Char) :
    Unreadable ('(' :: '?' :: ':' :: (text ++ [')', sign])) := by
  intro outer parts rest
  simp only [List.cons_append, List.append_assoc, List.nil_append]
  rw [symbols, assemble]
  exact h _ _ _

end Expression

open Expression

/-- A piece whose classes list items is well formed, or its text cannot be read. -/
lemma Piece.Listed.wellFormed_or {p : Piece} (h : p.Listed) :
    p.WellFormed ∨ Unreadable p.expression := by
  induction p with
  | anyRun | segmentRun | literal c => exact Or.inl trivial
  | charClass body =>
    obtain ⟨negated, items, hlists⟩ := h
    by_cases hvalid : ∀ item ∈ items, item.Valid
    · exact Or.inl ⟨negated, items, hlists.nonempty, hvalid, hlists.body_eq⟩
    · exact Or.inr (unreadable_charClass (CharClass.read_lists_of_not_valid hlists hvalid))
  | optional p ih => exact (ih (show p.Listed from h)).imp_right fun hp => hp.group '?'
  | repeated p ih => exact (ih (show p.Listed from h)).imp_right fun hp => hp.group '+'

/-- Pieces whose classes list items cannot be read if one of them is not well formed. -/
lemma read_expressions_of_not_wellFormed {ps : List Piece} (h : ∀ p ∈ ps, p.Listed)
    (hnot : ¬∀ p ∈ ps, p.WellFormed) :
    ∃ flaw, Expression.read (ps.flatMap Piece.expression) = .error flaw := by
  -- the parts put together so far stand in front, last first
  suffices hparts : ∀ parts, ∃ flaw,
      assemble [] parts (symbols (ps.flatMap Piece.expression)) = .error flaw from hparts []
  induction ps with
  | nil => exact absurd (by simp) hnot
  | cons p ps ih =>
    intro parts
    obtain ⟨hp, hps⟩ := List.forall_mem_cons.mp h
    rw [List.flatMap_cons]
    rcases hp.wellFormed_or with hwellFormed | hunreadable
    · obtain ⟨e, hreads, -⟩ := Piece.exists_readsAs hwellFormed
      rw [hreads]
      exact ih hps (fun hall => hnot (List.forall_mem_cons.mpr ⟨hwellFormed, hall⟩)) _
    · exact hunreadable _ _ _

namespace Pattern

variable {pattern : String}

/-- A pattern with well-formed classes is valid. -/
lemma isValid_of_classesWellFormed (h : ClassesWellFormed pattern) : IsValid pattern := by
  intro _
  obtain ⟨e, hread, -⟩ := exists_read_expressions (classesWellFormed_iff.mp h)
  exact ⟨e, hread⟩

/-- A pattern whose classes list items is valid exactly if its classes are well formed. -/
theorem isValid_iff_classesWellFormed (h : ∀ p ∈ pieces pattern, p.Listed) :
    IsValid pattern ↔ ClassesWellFormed pattern := by
  refine ⟨fun hvalid => ?_, isValid_of_classesWellFormed⟩
  rw [classesWellFormed_iff]
  by_contra hnot
  cases hsigns : hasSigns pattern with
  | true =>
    obtain ⟨e, hread⟩ := hvalid hsigns
    obtain ⟨flaw, hflaw⟩ := read_expressions_of_not_wellFormed h hnot
    cases hflaw.symm.trans hread
  | false =>
    -- a pattern without signs has no class
    rw [pieces, piecesFrom_of_forall_not_mem (not_mem_signs_of_hasSigns hsigns)] at hnot
    simp [Piece.WellFormed] at hnot

/-! ## Comparing a branch with patterns -/

variable {branch : String} {entries patterns : List String}

/-- A branch can be compared with a pattern exactly if the pattern is valid. -/
lemma exists_test_eq_ok_iff (branch : String) :
    (∃ hit, test (.text branch) pattern = .ok hit) ↔ IsValid pattern := by
  unfold test IsValid
  cases hasSigns pattern with
  | false => simp
  | true => cases Expression.read (expressionText pattern) <;> simp

/-- All entries of a list are compared with a branch, so all have to be valid. -/
lemma exists_included_eq_ok_iff (branch : String) :
    (∃ inside, included (.text branch) entries = .ok inside) ↔
      ∀ entry ∈ entries, IsValid (patternOf entry) := by
  -- what the entries before have decided makes no difference
  suffices hfold : ∀ inside,
      (∃ inside', entries.foldlM (step (.text branch)) inside = .ok inside') ↔
      ∀ entry ∈ entries, IsValid (patternOf entry) from hfold false
  induction entries with
  | nil => simp [pure, Except.pure]
  | cons entry rest ih =>
    intro inside
    rw [List.forall_mem_cons, ← exists_test_eq_ok_iff branch, List.foldlM_cons, step_eq]
    cases test (.text branch) (patternOf entry) with
    | error reason => simp [Except.map, bind, Except.bind]
    | ok hit => simpa [Except.map, bind, Except.bind] using ih _

/-- Patterns are compared with a branch up to the first that it matches, so those up to there have
to be valid. -/
lemma exists_matchesAny_eq_ok_iff :
    (∃ hit, matchesAny (.text branch) patterns = .ok hit) ↔
      ∀ p, Reaches (Hits (.text branch)) patterns p → IsValid p := by
  induction patterns with
  | nil => simp [matchesAny, not_reaches_nil]
  | cons p rest ih =>
    rw [forall_reaches_cons, ← ih, ← exists_test_eq_ok_iff branch, matchesAny]
    cases htest : test (.text branch) p with
    | error reason => simp [bind, Except.bind]
    | ok hit => cases hit <;> simp [Hits, htest, bind, Except.bind, pure, Except.pure]

end Pattern

end CiRunner.Branch
