import CiRunner.Branch.Pattern
import Mathlib.Data.List.Induction

/-!
# Lists of patterns

Of a list of entries the last one whose pattern matches a branch decides: it takes the branch in, or
puts it out if it begins with an exclamation mark.  What is appended to a list comes last, so an
entry that is appended decides whenever its pattern matches.
-/

namespace CiRunner.Branch.Pattern

/-! ## Patterns that can be compared -/

/-- A branch can be compared with a pattern: it is a text and the pattern written out is an
expression, unless the pattern has no signs. -/
def Comparable (branch : Value) (pattern : String) : Prop :=
  hasSigns pattern = true →
    (∃ e, Expression.read (expressionText pattern) = .ok e) ∧ ∃ s, branch = .text s

/-- A branch matches a pattern. -/
def Hits (branch : Value) (pattern : String) : Prop := test branch pattern = .ok true

variable {branch : Value} {pattern entry : String} {entries patterns : List String}

/-- A text can be compared with every pattern that is an expression when it is written out. -/
lemma comparable_text {s : String} (h : (Expression.read (expressionText pattern)).isOk = true) :
    Comparable (.text s) pattern := by
  intro _
  cases hread : Expression.read (expressionText pattern) with
  | error flaw =>
    rw [hread] at h
    cases h
  | ok e => exact ⟨⟨e, rfl⟩, s, rfl⟩

open scoped Classical in
lemma test_eq (h : Comparable branch pattern) :
    test branch pattern = .ok (decide (Hits branch pattern)) := by
  obtain ⟨hit, hhit⟩ : ∃ hit, test branch pattern = .ok hit := by
    unfold test
    split_ifs with hsigns
    · obtain ⟨⟨e, he⟩, s, rfl⟩ := h hsigns
      rw [he]
      exact ⟨_, rfl⟩
    · exact ⟨_, rfl⟩
  cases hit <;> simp [Hits, hhit]

open scoped Classical in
/-- One of several patterns is looked for. -/
lemma matchesAny_eq (h : ∀ p ∈ patterns, Comparable branch p) :
    matchesAny branch patterns = .ok (!decide (∀ p ∈ patterns, ¬Hits branch p)) := by
  induction patterns with
  | nil => simp [matchesAny]
  | cons p rest ih =>
    obtain ⟨hp, hrest⟩ := List.forall_mem_cons.mp h
    rw [matchesAny, test_eq hp, ih hrest]
    by_cases hit : Hits branch p <;> simp [hit, bind, Except.bind, pure, Except.pure]

/-! ## Entries -/

/-- An entry that puts branches out. -/
def Negated (entry : String) : Prop := entry.toList.head? = some '!'

instance (entry : String) : Decidable (Negated entry) := inferInstanceAs (Decidable (_ = _))

/-- The pattern of an entry, without one exclamation mark in front. -/
def patternOf (entry : String) : String :=
  if Negated entry then String.ofList entry.toList.tail else entry

/-- The last entry whose pattern matches a branch takes it in. -/
def Includes (branch : Value) (entries : List String) : Prop :=
  ∃ before entry after, entries = before ++ entry :: after ∧ Hits branch (patternOf entry) ∧
    (∀ later ∈ after, ¬Hits branch (patternOf later)) ∧ ¬Negated entry

lemma not_includes_nil : ¬Includes branch [] := by
  rintro ⟨before, entry, after, h, -⟩
  simp at h

/-- An entry of a list is the last one or stands before it. -/
lemma eq_or_eq_of_concat_eq {before after : List String} {last : String}
    (h : entries ++ [last] = before ++ entry :: after) :
    (entry = last ∧ after = []) ∨
      ∃ rest, after = rest ++ [last] ∧ entries = before ++ entry :: rest := by
  rcases List.eq_nil_or_concat after with rfl | ⟨rest, final, rfl⟩
  · obtain ⟨-, heq⟩ := List.append_inj' h rfl
    exact Or.inl ⟨(List.singleton_inj.mp heq).symm, rfl⟩
  · rw [List.concat_eq_append, ← List.cons_append, ← List.append_assoc] at h
    obtain ⟨hentries, heq⟩ := List.append_inj' h rfl
    exact Or.inr ⟨rest, by rw [List.concat_eq_append, List.singleton_inj.mp heq], hentries⟩

/-- An entry at the end decides if its pattern matches. -/
lemma includes_concat_of_hits (h : Hits branch (patternOf entry)) :
    Includes branch (entries ++ [entry]) ↔ ¬Negated entry := by
  constructor
  · rintro ⟨before, last, after, heq, -, hafter, hpositive⟩
    rcases eq_or_eq_of_concat_eq heq with ⟨rfl, -⟩ | ⟨rest, rfl, -⟩
    · exact hpositive
    · -- the entry at the end matches, so no other is the last that does
      exact absurd h (hafter entry (by simp))
  · intro hpositive
    exact ⟨entries, entry, [], rfl, h, by simp, hpositive⟩

/-- An entry at the end makes no difference if its pattern does not match. -/
lemma includes_concat_of_not_hits (h : ¬Hits branch (patternOf entry)) :
    Includes branch (entries ++ [entry]) ↔ Includes branch entries := by
  constructor
  · rintro ⟨before, last, after, heq, hlast, hafter, hpositive⟩
    rcases eq_or_eq_of_concat_eq heq with ⟨rfl, -⟩ | ⟨rest, rfl, hentries⟩
    · exact absurd hlast h
    · have hrest : ∀ later ∈ rest, ¬Hits branch (patternOf later) := fun later hlater =>
        hafter later (by simp [hlater])
      exact ⟨before, last, rest, hentries, hlast, hrest, hpositive⟩
  · rintro ⟨before, last, after, rfl, hlast, hafter, hpositive⟩
    refine ⟨before, last, after ++ [entry], by simp, hlast, fun later hlater => ?_, hpositive⟩
    rcases List.mem_append.mp hlater with hlater | hlater
    · exact hafter later hlater
    · rwa [List.mem_singleton.mp hlater]

/-- An entry at the end that takes branches in puts none out. -/
lemma Includes.concat (h : Includes branch entries) (hpositive : ¬Negated entry) :
    Includes branch (entries ++ [entry]) := by
  by_cases hit : Hits branch (patternOf entry)
  · exact (includes_concat_of_hits hit).mpr hpositive
  · exact (includes_concat_of_not_hits hit).mpr h

/-- An entry at the end that puts branches out takes none in. -/
lemma Includes.of_concat (h : Includes branch (entries ++ [entry])) (hnegated : Negated entry) :
    Includes branch entries := by
  by_cases hit : Hits branch (patternOf entry)
  · exact absurd hnegated ((includes_concat_of_hits hit).mp h)
  · exact (includes_concat_of_not_hits hit).mp h

/-- A list of entries that put branches out takes none in. -/
lemma not_includes_of_forall_negated (h : ∀ entry ∈ entries, Negated entry) :
    ¬Includes branch entries := by
  rintro ⟨before, entry, after, rfl, -, -, hpositive⟩
  exact hpositive (h entry (by simp))

/-- An entry is taken account of as its pattern and its sign say. -/
lemma step_eq (included : Bool) (entry : String) :
    step branch included entry =
      (test branch (patternOf entry)).map fun hit =>
        if hit then !decide (Negated entry) else included := by
  have hmap {m : Except MatchError Bool} {f : Bool → Bool} :
      (do let hit ← m; pure (f hit)) = m.map f := by
    cases m <;> rfl
  unfold step
  split
  · rename_i rest hrest
    have hnegated : Negated entry := by rw [Negated, hrest]; rfl
    rw [hmap, patternOf, if_pos hnegated, hrest]
    simp [hnegated]
  · rename_i hrest
    have hpositive : ¬Negated entry := by
      intro h
      obtain ⟨rest, hr⟩ := List.head?_eq_some_iff.mp h
      exact hrest rest hr
    rw [hmap, patternOf, if_neg hpositive]
    simp [hpositive]

open scoped Classical in
/-- The entries are gone through from the first to the last, and the last that matches decides. -/
theorem included_eq (h : ∀ entry ∈ entries, Comparable branch (patternOf entry)) :
    included branch entries = .ok (decide (Includes branch entries)) := by
  induction entries using List.reverseRecOn with
  | nil => simp [included, not_includes_nil, pure, Except.pure]
  | append_singleton entries entry ih =>
    have hentries := ih fun e he => h e (List.mem_append_left _ he)
    have hentry := test_eq (h entry (List.mem_append_right _ (List.mem_singleton_self entry)))
    rw [included] at hentries ⊢
    rw [List.foldlM_append, hentries]
    simp only [List.foldlM_cons, List.foldlM_nil, bind_pure]
    change step branch (decide (Includes branch entries)) entry = _
    rw [step_eq, hentry]
    by_cases hit : Hits branch (patternOf entry)
    · simp [hit, includes_concat_of_hits hit, Except.map]
    · simp [hit, includes_concat_of_not_hits hit, Except.map]

end CiRunner.Branch.Pattern
