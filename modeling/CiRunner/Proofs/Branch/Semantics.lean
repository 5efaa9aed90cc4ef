import CiRunner.Proofs.Branch.Translation

/-!
# The language of a pattern

A pattern is read from left to right.  `Reads` says what may be read next: two stars, or one without
another after it; a bracket with the text up to the first closing one, or a bracket that is never
closed; a backslash with the character after it; a sign that makes the piece before it optional or
repeated; any other character.  The branches of a pattern are the texts of the pieces that are read.

A branch name of one line matches a pattern with well-formed classes exactly if it is one of these
texts, whether the pattern is written out as an expression or compared as it stands.
-/

namespace CiRunner.Branch.Pattern

/-- The signs with a meaning of their own. -/
def signs : List Char := ['*', '?', '+', '[', '\\']

/-- Reading a pattern from left to right: the pieces read so far, and what is left to be read. -/
inductive Reads (pattern : List Char) : List Piece → List Char → Prop where
  | start : Reads pattern [] pattern
  | anyRun {ps rest} : Reads pattern ps ('*' :: '*' :: rest) → Reads pattern (ps ++ [.anyRun]) rest
  | segmentRun {ps rest} : Reads pattern ps ('*' :: rest) → rest.head? ≠ some '*' →
      Reads pattern (ps ++ [.segmentRun]) rest
  | charClass {ps body rest} : Reads pattern ps ('[' :: (body ++ ']' :: rest)) → ']' ∉ body →
      Reads pattern (ps ++ [.charClass body]) rest
  | openBracket {ps rest} : Reads pattern ps ('[' :: rest) → ']' ∉ rest →
      Reads pattern (ps ++ [.literal '[']) rest
  | escaped {ps c rest} : Reads pattern ps ('\\' :: c :: rest) →
      Reads pattern (ps ++ [.literal c]) rest
  | finalBackslash {ps} : Reads pattern ps ['\\'] → Reads pattern (ps ++ [.literal '\\']) []
  | optional {ps p rest} : Reads pattern (ps ++ [p]) ('?' :: rest) →
      Reads pattern (ps ++ [.optional p]) rest
  | repeated {ps p rest} : Reads pattern (ps ++ [p]) ('+' :: rest) →
      Reads pattern (ps ++ [.repeated p]) rest
  | leadingSuffix {c rest} : Reads pattern [] (c :: rest) → c = '?' ∨ c = '+' →
      Reads pattern [.literal c] rest
  | literal {ps c rest} : Reads pattern ps (c :: rest) → c ∉ signs →
      Reads pattern (ps ++ [.literal c]) rest

/-- The branches of a pattern. -/
def language (pattern : String) : Language Char :=
  {s | ∃ ps, Reads pattern.toList ps [] ∧ s ∈ piecesLanguage ps}

/-- Every bracket that opens a class when the pattern is read, and is closed later, opens a
well-formed one. -/
def ClassesWellFormed (pattern : String) : Prop :=
  ∀ ps body rest, Reads pattern.toList ps ('[' :: (body ++ ']' :: rest)) → ']' ∉ body →
    ∃ negated items, Spells body negated items

variable {pattern s : List Char} {ps before : List Piece}

/-! ## The pieces that are read -/

/-- The text up to the first closing bracket, and the text after it. -/
lemma cut_closing (body rest : List Char) (h : ']' ∉ body) :
    (body ++ ']' :: rest).takeWhile (· != ']') = body ∧
      ((body ++ ']' :: rest).dropWhile (· != ']')).drop 1 = rest := by
  have hbody : ∀ c ∈ body, (c != ']') = true := by
    intro c hc
    exact bne_iff_ne.mpr fun heq => h (heq ▸ hc)
  rw [List.takeWhile_append_of_pos hbody, List.dropWhile_append_of_pos hbody]
  simp

lemma piecesFrom_literal {c : Char} {rest : List Char} (hc : c ∉ signs) :
    piecesFrom before (c :: rest) = piecesFrom (.literal c :: before) rest := by
  have hne {d : Char} (hd : signs.contains d = true) : c ≠ d := by
    rintro rfl
    exact hc (List.contains_iff_mem.mp hd)
  rw [piecesFrom]
  all_goals exact hne rfl

/-- Whatever was read so far, the pieces at the end are the same. -/
lemma piecesFrom_of_reads (h : Reads pattern ps s) :
    piecesFrom ps.reverse s = piecesFrom [] pattern := by
  induction h with
  | start => rfl
  | anyRun _ ih => rw [← ih, piecesFrom, List.reverse_concat]
  | segmentRun _ hrest ih =>
    rw [← ih, piecesFrom, List.reverse_concat]
    rintro rest rfl
    exact hrest rfl
  | charClass _ hbody ih =>
    obtain ⟨htake, hdrop⟩ := cut_closing _ _ hbody
    rw [← ih, piecesFrom, if_pos (by simp), htake, hdrop, List.reverse_concat]
  | openBracket _ hrest ih =>
    rw [← ih, piecesFrom, if_neg (by simpa using hrest), List.reverse_concat]
  | escaped _ ih => rw [← ih, piecesFrom, List.reverse_concat]
  | finalBackslash _ ih =>
    rw [← ih, List.reverse_concat]
    conv_rhs => rw [piecesFrom]
  | optional _ ih => rw [← ih, piecesFrom, List.reverse_concat, List.reverse_concat, applySuffix]
  | repeated _ ih => rw [← ih, piecesFrom, List.reverse_concat, List.reverse_concat, applySuffix]
  | leadingSuffix _ hc ih =>
    rw [← ih]
    rcases hc with rfl | rfl
    · rw [List.reverse_nil, piecesFrom, applySuffix, List.reverse_singleton]
    · rw [List.reverse_nil, piecesFrom, applySuffix, List.reverse_singleton]
  | literal _ hc ih => rw [← ih, piecesFrom_literal hc, List.reverse_concat]

lemma reads_applySuffix {suffix : Piece → Piece} {sign : Char} {rest : List Char}
    (hafter : ∀ ps p, Reads pattern (ps ++ [p]) (sign :: rest) →
      Reads pattern (ps ++ [suffix p]) rest)
    (hsign : sign = '?' ∨ sign = '+') (h : Reads pattern before.reverse (sign :: rest)) :
    Reads pattern (applySuffix suffix sign before).reverse rest := by
  cases before with
  | nil => exact h.leadingSuffix hsign
  | cons p before =>
    rw [List.reverse_cons] at h
    rw [applySuffix, List.reverse_cons]
    exact hafter _ p h

/-- A pattern can be read up to its end. -/
lemma reads_piecesFrom (h : Reads pattern before.reverse s) :
    Reads pattern (piecesFrom before s) [] := by
  fun_induction piecesFrom before s with
  | case1 before => exact h
  | case2 before rest ih =>
    apply ih
    rw [List.reverse_cons]
    exact h.anyRun
  | case3 before rest hrest ih =>
    apply ih
    rw [List.reverse_cons]
    refine h.segmentRun fun hhead => ?_
    obtain ⟨rest', rfl⟩ := List.head?_eq_some_iff.mp hhead
    exact hrest rest' rfl
  | case4 before rest ih =>
    exact ih (reads_applySuffix (fun _ _ => Reads.optional) (Or.inl rfl) h)
  | case5 before rest ih =>
    exact ih (reads_applySuffix (fun _ _ => Reads.repeated) (Or.inr rfl) h)
  | case6 before rest hclosed ih =>
    obtain ⟨body, after, rfl, hbody⟩ :=
      List.eq_append_cons_of_mem (List.contains_iff_mem.mp hclosed)
    obtain ⟨htake, hdrop⟩ := cut_closing body after hbody
    rw [htake, hdrop] at ih ⊢
    apply ih
    rw [List.reverse_cons]
    exact h.charClass hbody
  | case7 before rest hopen ih =>
    apply ih
    rw [List.reverse_cons]
    exact h.openBracket fun hmem => hopen (List.contains_iff_mem.mpr hmem)
  | case8 before ih =>
    apply ih
    rw [List.reverse_cons]
    exact h.finalBackslash
  | case9 before c rest ih =>
    apply ih
    rw [List.reverse_cons]
    exact h.escaped
  | case10 before c rest hstar hquestion hplus hbracket hbackslash ih =>
    apply ih
    rw [List.reverse_cons]
    refine h.literal ?_
    simp only [signs, List.mem_cons, List.not_mem_nil, or_false, not_or]
    exact ⟨hstar, hquestion, hplus, hbracket, hbackslash⟩

/-- A pattern is read in one way only. -/
lemma reads_iff {pattern : String} : Reads pattern.toList ps [] ↔ ps = pieces pattern := by
  constructor
  · intro h
    have hps := piecesFrom_of_reads h
    rwa [piecesFrom, List.reverse_reverse] at hps
  · rintro rfl
    exact reads_piecesFrom .start

lemma language_eq (pattern : String) : language pattern = piecesLanguage (pieces pattern) := by
  ext s
  simp only [language, reads_iff]
  exact exists_eq_left

/-! ## Well-formed classes -/

/-- The pieces read so far are well formed if the classes of the pattern are. -/
lemma Reads.wellFormed {pattern : String} (h : Reads pattern.toList ps s)
    (hclasses : ClassesWellFormed pattern) : ∀ p ∈ ps, p.WellFormed := by
  have hconcat {ps : List Piece} {p : Piece} (hps : ∀ p ∈ ps, p.WellFormed) (hp : p.WellFormed) :
      ∀ q ∈ ps ++ [p], q.WellFormed := by
    intro q hq
    rcases List.mem_append.mp hq with hq | hq
    · exact hps q hq
    · rwa [List.mem_singleton.mp hq]
  induction h with
  | start => simp
  | anyRun _ ih | segmentRun _ _ ih => exact hconcat ih trivial
  | openBracket _ _ ih | escaped _ ih | finalBackslash _ ih => exact hconcat ih trivial
  | literal _ _ ih => exact hconcat ih trivial
  | leadingSuffix _ _ _ => simp [Piece.WellFormed]
  | charClass h hbody ih => exact hconcat ih (hclasses _ _ _ h hbody)
  | @optional ps p _ _ ih | @repeated ps p _ _ ih =>
    have hp : p.WellFormed := ih p (List.mem_append_right _ (List.mem_singleton_self p))
    exact hconcat (fun q hq => ih q (List.mem_append_left _ hq)) hp

/-- Pieces read so far that are not well formed stay so. -/
lemma wellFormed_of_piecesFrom (h : ∀ p ∈ piecesFrom before s, p.WellFormed) :
    ∀ p ∈ before, p.WellFormed := by
  fun_induction piecesFrom before s with
  | case1 before => simpa using h
  | case4 before rest ih =>
    cases before with
    | nil => simp
    | cons p before => simpa [applySuffix, Piece.WellFormed] using ih h
  | case5 before rest ih =>
    cases before with
    | nil => simp
    | cons p before => simpa [applySuffix, Piece.WellFormed] using ih h
  | case2 | case3 | case6 | case7 | case8 | case9 | case10 =>
    rename_i ih
    exact fun p hp => ih h p (List.mem_cons_of_mem _ hp)

/-- The classes of a pattern are well formed exactly if its pieces are. -/
lemma classesWellFormed_iff {pattern : String} :
    ClassesWellFormed pattern ↔ ∀ p ∈ pieces pattern, p.WellFormed := by
  constructor
  · intro h
    exact Reads.wellFormed (reads_iff.mpr rfl) h
  · intro h ps body rest hreads hbody
    rw [pieces, ← piecesFrom_of_reads (hreads.charClass hbody), List.reverse_concat] at h
    exact wellFormed_of_piecesFrom h _ List.mem_cons_self

/-! ## Patterns without signs -/

lemma piecesFrom_of_forall_not_mem (h : ∀ c ∈ s, c ∉ signs) :
    piecesFrom before s = before.reverse ++ s.map .literal := by
  induction s generalizing before with
  | nil => simp [piecesFrom]
  | cons c s ih =>
    obtain ⟨hc, hs⟩ := List.forall_mem_cons.mp h
    rw [piecesFrom_literal hc, ih hs, List.reverse_cons, List.append_assoc, List.map_cons,
      List.singleton_append]

lemma piecesLanguage_map_literal (s : List Char) : piecesLanguage (s.map .literal) = {s} := by
  induction s with
  | nil => rfl
  | cons c s ih =>
    rw [List.map_cons, piecesLanguage, List.map_cons, List.prod_cons, ← piecesLanguage, ih]
    ext t
    rw [Language.mem_mul]
    constructor
    · rintro ⟨_, rfl, _, rfl, rfl⟩
      rfl
    · rintro rfl
      exact ⟨[c], rfl, s, rfl, rfl⟩

lemma not_mem_signs_of_hasSigns {pattern : String} (h : hasSigns pattern = false) :
    ∀ c ∈ pattern.toList, c ∉ signs := by
  intro c hc
  have hnot := List.any_eq_false.mp h c hc
  simpa [signs, not_or, and_assoc] using hnot

/-- A pattern without signs stands for itself only. -/
lemma language_of_hasSigns_eq_false {pattern : String} (h : hasSigns pattern = false) :
    language pattern = {pattern.toList} := by
  rw [language_eq, pieces, piecesFrom_of_forall_not_mem (not_mem_signs_of_hasSigns h),
    List.reverse_nil, List.nil_append, piecesLanguage_map_literal]

/-! ## Branches and patterns -/

/-- A branch name of one line matches a pattern with well-formed classes exactly if it is one of the
branches of the pattern.  The expression that is written for the pattern accepts the same names, so
it makes no difference that a pattern without signs is only compared. -/
theorem test_iff_mem_language (branch pattern : String) (hline : '\n' ∉ branch.toList)
    (hclasses : ClassesWellFormed pattern) :
    ∃ hit e, test (.text branch) pattern = .ok hit ∧
      Expression.read (expressionText pattern) = .ok e ∧
      (hit = true ↔ branch.toList ∈ language pattern) ∧
      (e.accepts branch.toList = true ↔ branch.toList ∈ language pattern) := by
  obtain ⟨e, hread, hsame⟩ := exists_read_expressions (classesWellFormed_iff.mp hclasses)
  have haccepts : e.accepts branch.toList = true ↔ branch.toList ∈ language pattern := by
    rw [Expression.accepts_iff, language_eq, hsame _ hline]
  have htext : Expression.read (expressionText pattern) = .ok e := hread
  cases hsigns : hasSigns pattern with
  | true =>
    refine ⟨e.accepts branch.toList, e, ?_, htext, haccepts, haccepts⟩
    rw [test, if_pos hsigns, htext]
  | false =>
    refine ⟨branch == pattern, e, ?_, htext, ?_, haccepts⟩
    · rw [test, hsigns]
      rfl
    · rw [language_of_hasSigns_eq_false hsigns, beq_iff_eq, ← String.toList_inj]
      exact Iff.rfl

/-- A pattern with runs, a class, an escaped star and suffixes on all of them. -/
def releases : String := "rel/**?/[1-3a]+\\*+"

lemma pieces_releases : pieces releases =
    ['r', 'e', 'l', '/'].map .literal ++ [.optional .anyRun, .literal '/',
      .repeated (.charClass ['1', '-', '3', 'a']), .repeated (.literal '*')] := by
  cbv

lemma classesWellFormed_releases : ClassesWellFormed releases := by
  rw [classesWellFormed_iff, pieces_releases]
  have hclass : Spells ['1', '-', '3', 'a'] false [.range '1' '3', .single 'a'] :=
    ⟨by simp, by simp [ClassItem.Valid], rfl⟩
  have hpiece : (Piece.charClass ['1', '-', '3', 'a']).WellFormed := ⟨_, _, hclass⟩
  simpa [Piece.WellFormed] using hpiece

/-- The suffixes of a pattern count for the whole piece before them. -/
theorem test_releases :
    test (.text "rel/x/y/2a**") releases = .ok true ∧
      "rel/x/y/2a**".toList ∈ language releases := by
  have htest : test (.text "rel/x/y/2a**") releases = .ok true := by decide +kernel
  obtain ⟨hit, e, hhit, -, hiff, -⟩ :=
    test_iff_mem_language "rel/x/y/2a**" releases (by decide) classesWellFormed_releases
  rw [htest] at hhit
  exact ⟨htest, hiff.mp (Except.ok.inj hhit).symm⟩

end CiRunner.Branch.Pattern
