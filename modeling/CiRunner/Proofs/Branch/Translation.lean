import CiRunner.Branch.Pattern
import CiRunner.Proofs.Branch.Acceptance
import CiRunner.Proofs.Branch.Classes

/-!
# Pieces as expressions

The text that is written for a piece of a pattern is read back as an expression with the texts of
the piece, whatever is written before and after it.  Only the run of any characters differs: its
expression leaves line feeds out.  Hence the two languages are compared on texts of one line.
-/

namespace CiRunner.Branch

open Computability

/-! ## The language of pieces -/

namespace Piece

/-- The texts of a piece. -/
def language : Piece → Language Char
  | anyRun => ⊤
  | segmentRun => {s | '/' ∉ s}
  | charClass body =>
    {s | ∃ negated items c, Spells body negated items ∧ InClass negated items c ∧ s = [c]}
  | literal c => {[c]}
  | optional p => 1 + p.language
  | repeated p => p.language * p.language∗

/-- The classes of a piece are well formed. -/
def WellFormed : Piece → Prop
  | charClass body => ∃ negated items, Spells body negated items
  | optional p | repeated p => p.WellFormed
  | anyRun | segmentRun | literal _ => True

end Piece

/-! ## Texts of one line -/

/-- Two languages have the same texts without a line feed. -/
def SameLines (l m : Language Char) : Prop := ∀ s : List Char, '\n' ∉ s → (s ∈ l ↔ s ∈ m)

namespace SameLines

variable {l l' m m' : Language Char}

lemma of_eq (h : l = m) : SameLines l m := fun _ _ => h ▸ Iff.rfl

lemma add (hl : SameLines l l') (hm : SameLines m m') : SameLines (l + m) (l' + m') := by
  intro s hs
  rw [Language.mem_add, Language.mem_add, hl s hs, hm s hs]

lemma mul (hl : SameLines l l') (hm : SameLines m m') : SameLines (l * m) (l' * m') := by
  intro s hs
  rw [Language.mem_mul, Language.mem_mul]
  constructor
  · rintro ⟨t, ht, u, hu, rfl⟩
    rw [List.mem_append, not_or] at hs
    exact ⟨t, (hl t hs.1).mp ht, u, (hm u hs.2).mp hu, rfl⟩
  · rintro ⟨t, ht, u, hu, rfl⟩
    rw [List.mem_append, not_or] at hs
    exact ⟨t, (hl t hs.1).mpr ht, u, (hm u hs.2).mpr hu, rfl⟩

lemma kstar (h : SameLines l l') : SameLines l∗ l'∗ := by
  have hparts {parts : List (List Char)} (hs : '\n' ∉ parts.flatten) :
      (∀ t ∈ parts, t ∈ l) ↔ ∀ t ∈ parts, t ∈ l' := by
    refine forall₂_congr fun t ht => h t fun hline => hs ?_
    exact List.mem_flatten.mpr ⟨t, ht, hline⟩
  intro s hs
  rw [Language.mem_kstar, Language.mem_kstar]
  constructor
  · rintro ⟨parts, rfl, h⟩
    exact ⟨parts, rfl, (hparts hs).mp h⟩
  · rintro ⟨parts, rfl, h⟩
    exact ⟨parts, rfl, (hparts hs).mpr h⟩

end SameLines

namespace Expression

variable {text rest : List Char} {e : Expression}

/-! ## Cutting an expression into symbols -/

/-- A character that is written with a backslash where it needs one is a symbol of its own. -/
lemma symbols_escape (c : Char) (rest : List Char) :
    ∃ left, symbols (Piece.escape c ++ rest) = (.atom (.single c), left) :: symbols rest := by
  unfold Piece.escape
  split_ifs with hc
  · rw [List.cons_append, List.cons_append, List.nil_append, symbols]
    exact ⟨_, rfl⟩
  · rw [List.singleton_append]
    have hne {d : Char} (hd : Piece.specialSigns.contains d = true) : c ≠ d := by
      rintro rfl
      exact hc hd
    -- none of the signs that begin another symbol is written without a backslash
    rw [symbols]
    · exact ⟨_, rfl⟩
    · exact hne rfl
    · exact fun _ heq => absurd heq (hne rfl)
    all_goals exact hne rfl

/-- A class is one symbol. -/
lemma symbols_charClass {s rest : List Char} {set : CharClass}
    (h : CharClass.read s = .ok (set, rest)) :
    ∃ left, symbols ('[' :: s) = (.atom set, left) :: symbols rest := by
  rw [symbols]
  split
  · rename_i hf
    cases h.symm.trans hf
  · rename_i hok
    cases h.symm.trans hok
    exact ⟨_, rfl⟩

/-- The class of all characters but the slash. -/
lemma read_allBut_slash (rest : List Char) :
    CharClass.read ('^' :: '/' :: ']' :: rest) = .ok (.allBut '/', rest) := by
  have hmembers (opened : Nat) :
      CharClass.readMembers opened true ('/' :: ']' :: rest) = .ok ([.code '/'.toNat], rest) := by
    rw [CharClass.readMembers_member (by simp) rfl (by simp), CharClass.readMembers_closing]
    rfl
  rw [CharClass.read, hmembers]
  rfl

/-! ## Putting symbols together -/

/-- A text is read as an expression, whatever stands before and after it. -/
def ReadsAs (text : List Char) (e : Expression) : Prop :=
  ∀ outer parts rest,
    assemble outer parts (symbols (text ++ rest)) = assemble outer (e :: parts) (symbols rest)

lemma readsAs_escape (c : Char) : ReadsAs (Piece.escape c) (.one (.single c)) := by
  intro outer parts rest
  obtain ⟨left, h⟩ := symbols_escape c rest
  rw [h, assemble]

lemma readsAs_charClass {body : List Char} {negated : Bool} {items : List ClassItem}
    (h : Spells body negated items) :
    ReadsAs ('[' :: (body ++ [']'])) (.one ⟨negated, items.map ClassItem.member⟩) := by
  intro outer parts rest
  obtain ⟨left, hsymbols⟩ := symbols_charClass (CharClass.read_spelling h rest)
  rw [List.cons_append, List.append_assoc, List.singleton_append, hsymbols, assemble]

lemma readsAs_anyRun : ReadsAs ['.', '*'] (.star (.one (.allBut '\n'))) := by
  intro outer parts rest
  simp only [List.cons_append, List.nil_append, symbols, assemble, repeatLast]
  rfl

lemma readsAs_segmentRun : ReadsAs ['[', '^', '/', ']', '*'] (.star (.one (.allBut '/'))) := by
  intro outer parts rest
  obtain ⟨left, hsymbols⟩ := symbols_charClass (read_allBut_slash ('*' :: rest))
  simp only [List.cons_append, List.nil_append, hsymbols, symbols, assemble, repeatLast]
  rfl

/-- A group is read as what it holds. -/
lemma assemble_group (h : ReadsAs text e) (outer : List OpenGroup) (parts : List Expression)
    (rest : List Char) :
    assemble outer parts (symbols ('(' :: '?' :: ':' :: (text ++ ')' :: rest))) =
      assemble outer (concat [e] :: parts) (symbols rest) := by
  rw [symbols, assemble, h, symbols, assemble]
  rfl

lemma readsAs_optional (h : ReadsAs text e) :
    ReadsAs ('(' :: '?' :: ':' :: (text ++ [')', '?'])) (.optional (concat [e])) := by
  intro outer parts rest
  have hgroup := assemble_group h outer parts ('?' :: rest)
  simp only [List.cons_append, List.append_assoc, List.nil_append]
  rw [hgroup, symbols, assemble]
  rfl

lemma readsAs_repeated (h : ReadsAs text e) :
    ReadsAs ('(' :: '?' :: ':' :: (text ++ [')', '+'])) (plus (concat [e])) := by
  intro outer parts rest
  have hgroup := assemble_group h outer parts ('+' :: rest)
  simp only [List.cons_append, List.append_assoc, List.nil_append]
  rw [hgroup, symbols, assemble]
  rfl

/-! ## The texts of what is read -/

/-- Any number of characters of a class. -/
lemma mem_language_star_one {set : CharClass} {s : List Char} :
    s ∈ language (.star (.one set)) ↔ ∀ c ∈ s, set.contains c = true := by
  rw [language_star, Language.mem_kstar]
  constructor
  · rintro ⟨parts, rfl, hparts⟩ c hc
    obtain ⟨t, ht, hc⟩ := List.mem_flatten.mp hc
    obtain ⟨d, hd, rfl⟩ := mem_language_one.mp (hparts t ht)
    rwa [List.mem_singleton.mp hc]
  · intro h
    refine ⟨s.map fun c => [c], (List.flatMap_singleton' s).symm, fun t ht => ?_⟩
    obtain ⟨c, hc, rfl⟩ := List.mem_map.mp ht
    exact mem_language_one.mpr ⟨c, h c hc, rfl⟩

lemma mem_language_star_allBut {d : Char} {s : List Char} :
    s ∈ language (.star (.one (.allBut d))) ↔ d ∉ s := by
  have hallBut (c : Char) : (CharClass.allBut d).contains c = true ↔ c ≠ d := by
    simp [Char.toNat_inj]
  simp only [mem_language_star_one, hallBut]
  exact ⟨fun h hd => h d hd rfl, fun h c hc heq => h (heq ▸ hc)⟩

lemma language_one_single (c : Char) : language (.one (.single c)) = {[c]} := by
  have hsingle (d : Char) : (CharClass.single c).contains d = true ↔ d = c := by
    simp [Char.toNat_inj]
  ext s
  simp only [mem_language_one, hsingle, exists_eq_left]
  exact Iff.rfl

/-- A well-formed class has one meaning only. -/
lemma language_one_charClass {body : List Char} {negated : Bool} {items : List ClassItem}
    (h : Spells body negated items) :
    language (.one ⟨negated, items.map ClassItem.member⟩) = (Piece.charClass body).language := by
  ext s
  rw [mem_language_one]
  constructor
  · rintro ⟨c, hc, rfl⟩
    exact ⟨negated, items, c, h, (CharClass.contains_iff negated items c).mp hc, rfl⟩
  · rintro ⟨negated', items', c, h', hc, rfl⟩
    refine ⟨c, ?_, rfl⟩
    -- both spellings are read from the same text
    have heq := (CharClass.read_spelling h []).symm.trans (CharClass.read_spelling h' [])
    obtain ⟨hset, -⟩ := Prod.mk.inj (Except.ok.inj heq)
    rw [hset]
    exact (CharClass.contains_iff negated' items' c).mpr hc

end Expression

open Expression

/-- The text written for a piece is read as an expression that has the texts of the piece. -/
theorem Piece.exists_readsAs {p : Piece} (h : p.WellFormed) :
    ∃ e, ReadsAs p.expression e ∧ SameLines e.language p.language := by
  induction p with
  | anyRun =>
    exact ⟨_, readsAs_anyRun, fun s hs => iff_of_true (mem_language_star_allBut.mpr hs) trivial⟩
  | segmentRun =>
    exact ⟨_, readsAs_segmentRun, fun s _ => mem_language_star_allBut⟩
  | charClass body =>
    obtain ⟨negated, items, hbody⟩ := h
    exact ⟨_, readsAs_charClass hbody, .of_eq (language_one_charClass hbody)⟩
  | literal c =>
    exact ⟨_, readsAs_escape c, .of_eq (language_one_single c)⟩
  | optional p ih =>
    obtain ⟨e, hreads, hsame⟩ := ih h
    refine ⟨_, readsAs_optional hreads, ?_⟩
    rw [language_optional, language_concat, List.map_singleton, List.prod_singleton]
    exact SameLines.add (.of_eq rfl) hsame
  | repeated p ih =>
    obtain ⟨e, hreads, hsame⟩ := ih h
    refine ⟨_, readsAs_repeated hreads, ?_⟩
    rw [language_plus, language_concat, List.map_singleton, List.prod_singleton]
    exact hsame.mul hsame.kstar

/-- The texts of pieces one after another. -/
def piecesLanguage (ps : List Piece) : Language Char := (ps.map Piece.language).prod

/-- The text written for pieces is read as an expression that has the texts of the pieces. -/
theorem exists_read_expressions {ps : List Piece} (h : ∀ p ∈ ps, p.WellFormed) :
    ∃ e, Expression.read (ps.flatMap Piece.expression) = .ok e ∧
      SameLines e.language (piecesLanguage ps) := by
  -- the parts put together so far stand in front, last first
  suffices hparts : ∀ parts, ∃ es,
      assemble [] parts (symbols (ps.flatMap Piece.expression)) =
        .ok (concat (parts.reverse ++ es)) ∧
      SameLines (es.map language).prod (piecesLanguage ps) by
    obtain ⟨es, hread, hsame⟩ := hparts []
    refine ⟨concat es, hread, ?_⟩
    rwa [language_concat]
  induction ps with
  | nil =>
    intro parts
    refine ⟨[], ?_, .of_eq rfl⟩
    rw [List.append_nil, List.flatMap_nil, symbols, assemble]
  | cons p ps ih =>
    intro parts
    obtain ⟨hp, hps⟩ := List.forall_mem_cons.mp h
    obtain ⟨e, hreads, hsame⟩ := Piece.exists_readsAs hp
    obtain ⟨es, hassemble, hrest⟩ := ih hps (e :: parts)
    refine ⟨e :: es, ?_, ?_⟩
    · rw [List.flatMap_cons, hreads, hassemble, List.reverse_cons, List.append_assoc,
        List.singleton_append]
    · rw [piecesLanguage, List.map_cons, List.prod_cons, List.map_cons, List.prod_cons]
      exact hsame.mul hrest

end CiRunner.Branch
