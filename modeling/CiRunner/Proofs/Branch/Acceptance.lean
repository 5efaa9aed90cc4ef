import CiRunner.Branch.Expression
import Mathlib.Computability.MyhillNerode

/-!
# The language of an expression

The texts of an expression form a language, built with the operations of languages as the expression
is built from its parts.  `Expression.accepts` decides it: the texts that are left of a language
after a first character are those of the expressions that the character leaves, and a list of
expressions stands for the union of their languages.
-/

namespace CiRunner.Branch.Expression

open Computability

/-- The texts of an expression. -/
def language (e : Expression) : Language Char := {s | Matches e s}

variable {a b e : Expression} {s : List Char} {c : Char}

lemma mem_language : s ∈ language e ↔ Matches e s := Iff.rfl

/-! ## The language by the form of the expression -/

@[simp] lemma language_empty : language .empty = 1 := by
  ext s
  rw [mem_language, Language.mem_one]
  constructor
  · rintro ⟨⟩
    rfl
  · rintro rfl
    exact .empty

lemma mem_language_one {set : CharClass} :
    s ∈ language (.one set) ↔ ∃ c, set.contains c = true ∧ s = [c] := by
  constructor
  · rintro ⟨⟩
    exact ⟨_, ‹_›, rfl⟩
  · rintro ⟨c, hc, rfl⟩
    exact .one hc

@[simp] lemma language_seq : language (.seq a b) = language a * language b := by
  ext s
  rw [Language.mem_mul]
  constructor
  · rintro ⟨⟩
    exact ⟨_, ‹_›, _, ‹_›, rfl⟩
  · rintro ⟨t, ht, u, hu, rfl⟩
    exact .seq ht hu

@[simp] lemma language_optional : language (.optional a) = 1 + language a := by
  ext s
  rw [Language.mem_add, Language.mem_one]
  constructor
  · intro h
    cases h with
    | optionalNone => exact Or.inl rfl
    | optionalSome h => exact Or.inr h
  · rintro (rfl | h)
    · exact .optionalNone
    · exact .optionalSome h

/-- Texts of an expression one after another are a text of its repetition. -/
lemma matches_star_flatten {parts : List (List Char)} (h : ∀ t ∈ parts, Matches a t) :
    Matches (.star a) parts.flatten := by
  induction parts with
  | nil => exact .starNil
  | cons t rest ih =>
    obtain ⟨ht, hrest⟩ := List.forall_mem_cons.mp h
    exact .starCons ht (ih hrest)

@[simp] lemma language_star : language (.star a) = (language a)∗ := by
  ext s
  rw [Language.mem_kstar]
  constructor
  · intro h
    -- the repetition is the index of the derivation, so it is named before the induction
    generalize he : Expression.star a = e at h
    induction h with
    | starNil => exact ⟨[], rfl, by simp⟩
    | @starCons a' t u ht hu _ ih =>
      cases he
      obtain ⟨parts, rfl, hparts⟩ := ih rfl
      exact ⟨t :: parts, rfl, List.forall_mem_cons.mpr ⟨ht, hparts⟩⟩
    | _ => cases he
  · rintro ⟨parts, rfl, hparts⟩
    exact matches_star_flatten hparts

@[simp] lemma language_plus : language (plus a) = language a * (language a)∗ := by
  rw [plus, language_seq, language_star]

@[simp] lemma language_concat (es : List Expression) :
    language (concat es) = (es.map language).prod := by
  induction es with
  | nil => exact language_empty
  | cons e es ih => rw [concat, language_seq, ih, List.map_cons, List.prod_cons]

@[simp] lemma language_andThen : language (andThen a b) = language a * language b := by
  cases a with
  | empty => rw [andThen, language_empty, one_mul]
  | _ => exact language_seq

lemma nullable_iff : e.nullable = true ↔ [] ∈ language e := by
  induction e with
  | empty => simp [nullable]
  | one set => simp [nullable, mem_language_one]
  | seq a b iha ihb =>
    rw [nullable, Bool.and_eq_true, iha, ihb, language_seq, Language.mem_mul]
    constructor
    · rintro ⟨ha, hb⟩
      exact ⟨[], ha, [], hb, rfl⟩
    · rintro ⟨t, ht, u, hu, htu⟩
      obtain ⟨rfl, rfl⟩ := List.append_eq_nil_iff.mp htu
      exact ⟨ht, hu⟩
  | optional a _ =>
    rw [language_optional, Language.mem_add]
    exact ⟨fun _ => Or.inl rfl, fun _ => rfl⟩
  | star a _ => simp [nullable, Language.nil_mem_kstar]

/-! ## What a character leaves of a language

What is left of a language after a character is its left quotient by the character.
-/

section Quotient

variable (l m : Language Char) (c : Char)

open scoped Classical in
/-- A text of a product is cut in two either after its first character or before it. -/
lemma mul_leftQuotient :
    (l * m).leftQuotient [c] =
      l.leftQuotient [c] * m + if [] ∈ l then m.leftQuotient [c] else 0 := by
  ext s
  rw [Language.mem_leftQuotient, Language.mem_mul, Language.mem_add, Language.mem_mul]
  constructor
  · rintro ⟨t, ht, u, hu, htu⟩
    cases t with
    | nil =>
      rw [if_pos ht, Language.mem_leftQuotient, ← htu]
      exact Or.inr hu
    | cons d t =>
      obtain ⟨rfl, rfl⟩ := List.cons_eq_cons.mp htu
      exact Or.inl ⟨t, ht, u, hu, rfl⟩
  · rintro (⟨t, ht, u, hu, rfl⟩ | hs)
    · exact ⟨c :: t, ht, u, hu, rfl⟩
    · split_ifs at hs with hnil
      · exact ⟨[], hnil, c :: s, hs, rfl⟩
      · exact absurd hs (Language.notMem_zero s)

/-- A repetition that begins with a character begins with a text that does. -/
lemma kstar_leftQuotient : (l∗).leftQuotient [c] = l.leftQuotient [c] * l∗ := by
  ext s
  rw [Language.mem_leftQuotient, Language.mem_kstar_iff_exists_nonempty, Language.mem_mul]
  constructor
  · rintro ⟨parts, hs, hparts⟩
    cases parts with
    | nil => cases hs
    | cons part parts =>
      obtain ⟨⟨hpart, hne⟩, hrest⟩ := List.forall_mem_cons.mp hparts
      obtain ⟨d, t, rfl⟩ := List.exists_cons_of_ne_nil hne
      obtain ⟨rfl, rfl⟩ := List.cons_eq_cons.mp hs
      exact ⟨t, hpart, _, Language.join_mem_kstar fun u hu => (hrest u hu).1, rfl⟩
  · rintro ⟨t, ht, u, hu, rfl⟩
    obtain ⟨parts, rfl, hparts⟩ := Language.mem_kstar_iff_exists_nonempty.mp hu
    exact ⟨(c :: t) :: parts, rfl, List.forall_mem_cons.mpr ⟨⟨ht, by simp⟩, hparts⟩⟩

end Quotient

/-! ## The languages of several expressions -/

/-- The texts of one of several expressions. -/
def anyOf (es : List Expression) : Language Char := {s | ∃ e ∈ es, s ∈ language e}

lemma mem_anyOf {es : List Expression} : s ∈ anyOf es ↔ ∃ e ∈ es, s ∈ language e := Iff.rfl

@[simp] lemma anyOf_nil : anyOf [] = 0 := by
  ext s
  simp [mem_anyOf, Language.notMem_zero]

lemma anyOf_append (es fs : List Expression) : anyOf (es ++ fs) = anyOf es + anyOf fs := by
  ext s
  simp only [Language.mem_add, mem_anyOf, List.mem_append, or_and_right, exists_or]

lemma anyOf_map_andThen (es : List Expression) (b : Expression) :
    anyOf (es.map (andThen · b)) = anyOf es * language b := by
  ext s
  rw [mem_anyOf, Language.mem_mul]
  constructor
  · rintro ⟨e', he', hs⟩
    obtain ⟨e, he, rfl⟩ := List.mem_map.mp he'
    rw [language_andThen] at hs
    obtain ⟨t, ht, u, hu, rfl⟩ := Language.mem_mul.mp hs
    exact ⟨t, ⟨e, he, ht⟩, u, hu, rfl⟩
  · rintro ⟨t, ⟨e, he, ht⟩, u, hu, rfl⟩
    refine ⟨andThen e b, List.mem_map_of_mem he, ?_⟩
    rw [language_andThen]
    exact Language.append_mem_mul ht hu

/-- The expressions that a character leaves of an expression stand for what it leaves of the
language. -/
theorem anyOf_partials (c : Char) (e : Expression) :
    anyOf (partials c e) = (language e).leftQuotient [c] := by
  induction e with
  | empty =>
    ext s
    simp [partials]
  | one set =>
    ext s
    rw [Language.mem_leftQuotient, mem_language_one, mem_anyOf, partials]
    split_ifs with h <;> simp [h]
  | seq a b iha ihb =>
    rw [partials, anyOf_append, anyOf_map_andThen, iha, language_seq, mul_leftQuotient]
    by_cases hnil : [] ∈ language a
    · rw [if_pos hnil, if_pos (nullable_iff.mpr hnil), ihb]
    · rw [if_neg hnil, if_neg fun h => hnil (nullable_iff.mp h), anyOf_nil]
  | optional a ih =>
    ext s
    rw [partials, ih, language_optional, Language.mem_leftQuotient, Language.mem_leftQuotient,
      Language.mem_add]
    simp
  | star a ih => rw [partials, anyOf_map_andThen, ih, language_star, kstar_leftQuotient]

/-! ## Acceptance -/

/-- A list of expressions accepts the texts of any of them: a character takes the list to what it
leaves of each. -/
lemma acceptsAny_iff (es : List Expression) : acceptsAny es s = true ↔ s ∈ anyOf es := by
  induction s generalizing es with
  | nil => simp [acceptsAny, mem_anyOf, nullable_iff]
  | cons c s ih =>
    have hleft (e : Expression) : c :: s ∈ language e ↔ ∃ d ∈ partials c e, s ∈ language d := by
      rw [← mem_anyOf, anyOf_partials]
      rfl
    rw [acceptsAny, ih, mem_anyOf, mem_anyOf]
    constructor
    · rintro ⟨d, hd, hs⟩
      obtain ⟨e, he, hd⟩ := List.mem_flatMap.mp (List.mem_eraseDups.mp hd)
      exact ⟨e, he, (hleft e).mpr ⟨d, hd, hs⟩⟩
    · rintro ⟨e, he, hs⟩
      obtain ⟨d, hd, hs⟩ := (hleft e).mp hs
      exact ⟨d, List.mem_eraseDups.mpr (List.mem_flatMap.mpr ⟨e, he, hd⟩), hs⟩

/-- An expression accepts exactly its texts. -/
theorem accepts_iff : e.accepts s = true ↔ s ∈ language e := by
  rw [accepts, acceptsAny_iff, mem_anyOf]
  simp

end CiRunner.Branch.Expression
