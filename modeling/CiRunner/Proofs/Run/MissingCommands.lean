import CiRunner.Run.Hint
import Mathlib

/-!
# The missing command that is named last

The output of a shell is searched from the left for the names of missing commands, and what a name
and its end take up is not looked at again.  Where an output is cut so that neither a name nor the
end of one lies across the cut, the names in it are those before the cut and then those after it
(`missing_append`).

A line feed is such a place, and so is a colon with a blank, which shells put before the name of a
command.  Hence the hint is for the command that is named last, whatever else is named before.
-/

namespace CiRunner.Hint

open CiRunner.Text

variable {word s t rest after : List Char} {c : Char}

/-! ## Ends of names -/

/-- In a text a missing command is named: somewhere the end of a name follows a name. -/
def NamesMissing (s : List Char) : Prop :=
  ∃ c ending, inName c = true ∧ ending ∈ endings ∧ c :: ending <:+: s

/-- Where a part of a text names a missing command, the text does. -/
lemma NamesMissing.mono (h : NamesMissing s) (hst : s <:+: t) : NamesMissing t := by
  obtain ⟨c, ending, hc, hending, hs⟩ := h
  exact ⟨c, ending, hc, hending, hs.trans hst⟩

/-- Without a colon no missing command is named. -/
lemma not_namesMissing (h : ':' ∉ s) : ¬NamesMissing s := by
  rintro ⟨c, ending, -, hending, hs⟩
  have hcolon : ∀ e ∈ endings, ':' ∈ e := by decide
  exact h (hs.subset (List.mem_cons_of_mem c (hcolon ending hending)))

/-- No end of a name begins another one. -/
lemma endings_prefixFree : ∀ e ∈ endings, ∀ e' ∈ endings, e <+: e' → e = e' := by
  decide

/-- The end of a name is followed by what comes after it. -/
lemma afterEnding?_eq_some_iff :
    afterEnding? s = some after ↔ ∃ ending ∈ endings, s = ending ++ after := by
  constructor
  · intro h
    obtain ⟨ending, hfound, rfl⟩ := Option.map_eq_some_iff.mp h
    have hprefix : ending.isPrefixOf s = true := by
      simpa using List.find?_some hfound
    refine ⟨ending, List.mem_of_find?_eq_some hfound, ?_⟩
    exact List.prefix_iff_eq_append.mp (List.isPrefixOf_iff_prefix.mp hprefix) |>.symm
  · rintro ⟨ending, hending, rfl⟩
    have hstands : (endings.find? (·.isPrefixOf (ending ++ after))).isSome = true := by
      refine List.find?_isSome.mpr ⟨ending, hending, ?_⟩
      exact List.isPrefixOf_iff_prefix.mpr (List.prefix_append ..)
    obtain ⟨found, hfound⟩ := Option.isSome_iff_exists.mp hstands
    have hmem : found ∈ endings := List.mem_of_find?_eq_some hfound
    have hprefix : found <+: ending ++ after := by
      simpa using List.find?_some hfound
    -- both stand at the same place
    have hsame : found = ending := by
      rcases List.prefix_or_prefix_of_prefix hprefix (List.prefix_append ending after) with h | h
      · exact endings_prefixFree found hmem ending hending h
      · exact (endings_prefixFree ending hending found hmem h).symm
    rw [afterEnding?, hfound, hsame, Option.map_some, List.drop_left]

/-- There is nothing after the end of a name exactly if no end of a name stands there. -/
lemma afterEnding?_eq_none_iff : afterEnding? s = none ↔ ∀ ending ∈ endings, ¬ending <+: s := by
  rw [afterEnding?, Option.map_eq_none_iff, List.find?_eq_none]
  simp only [List.isPrefixOf_iff_prefix]

/-! ## Reading one character -/

/-- At the end of a name, the name is one if it is not empty. -/
lemma missingFrom_of_some (h : afterEnding? (c :: s) = some after) (word : List Char) :
    missingFrom word (c :: s) =
      if word.isEmpty then missingFrom [] s
      else String.ofList word.reverse :: missingFrom [] after := by
  rw [missingFrom]
  split
  · rename_i found hfound
    cases h.symm.trans hfound
    rfl
  · rename_i hnone
    cases h.symm.trans hnone

/-- Elsewhere a character makes a name longer, or a name begins after it. -/
lemma missingFrom_of_none (h : afterEnding? (c :: s) = none) (word : List Char) :
    missingFrom word (c :: s) = missingFrom (if inName c then c :: word else []) s := by
  rw [missingFrom]
  split
  · rename_i found hfound
    cases h.symm.trans hfound
  · rfl

/-- In a text that names no missing command none is found. -/
lemma missingFrom_eq_nil (h : ¬NamesMissing (word.reverse ++ s))
    (hword : ∀ c ∈ word, inName c = true) : missingFrom word s = [] := by
  induction word, s using missingFrom.induct with
  | case1 word => rw [missingFrom]
  | case2 word c s after hafter hempty ih =>
    rw [missingFrom_of_some hafter, if_pos hempty]
    refine ih (fun hs => h (hs.mono ?_)) (List.forall_mem_nil _)
    exact ((List.suffix_cons c s).trans (List.suffix_append word.reverse _)).isInfix
  | case3 word c s after hafter hempty ih =>
    -- the last character of the name, and then its end
    obtain ⟨last, front, rfl⟩ := List.exists_cons_of_ne_nil (mt List.isEmpty_iff.mpr hempty)
    obtain ⟨ending, hending, htext⟩ := afterEnding?_eq_some_iff.mp hafter
    refine absurd ⟨last, ending, hword last List.mem_cons_self, hending, ?_⟩ h
    exact ⟨front.reverse, after, by simp [htext]⟩
  | case4 word c s hafter ih =>
    rw [missingFrom_of_none hafter]
    by_cases hc : inName c = true
    · rw [if_pos hc]
      rw [dif_pos hc] at ih
      refine ih ?_ (List.forall_mem_cons.mpr ⟨hc, hword⟩)
      rwa [List.reverse_cons, List.append_assoc, List.singleton_append]
    · rw [if_neg hc]
      rw [dif_neg hc] at ih
      refine ih (fun hs => h (hs.mono ?_)) (List.forall_mem_nil _)
      exact ((List.suffix_cons c s).trans (List.suffix_append word.reverse _)).isInfix

/-! ## Cutting an output -/

/-- Between two texts an output can be cut: no end of a name lies across the cut, and no name, since
the first text is empty or ended by a character that no name has. -/
structure Cut (s rest : List Char) : Prop where
  /-- No end of a name lies across the cut. -/
  endings_apart : ∀ tail ≠ [], tail <:+ s → ∀ ending ∈ endings,
    ending <+: tail ++ rest → ending <+: tail
  /-- No name lies across the cut. -/
  names_apart : ∀ c ∈ s.getLast?, inName c = false

namespace Cut

/-- A part of the first text that reaches up to the cut will do. -/
lemma of_suffix (h : Cut s rest) (ht : t <:+ s) : Cut t rest where
  endings_apart tail hne htail := h.endings_apart tail hne (htail.trans ht)
  names_apart c hc := by
    obtain ⟨front, rfl⟩ := ht
    refine h.names_apart c ?_
    rw [List.getLast?_append, Option.mem_def.mp hc]
    rfl

/-- The ends of names before a cut are those of the first text. -/
lemma afterEnding?_append (h : Cut s rest) (hs : s ≠ []) :
    afterEnding? (s ++ rest) = (afterEnding? s).map (· ++ rest) := by
  cases hafter : afterEnding? s with
  | some after =>
    obtain ⟨ending, hending, rfl⟩ := afterEnding?_eq_some_iff.mp hafter
    exact afterEnding?_eq_some_iff.mpr ⟨ending, hending, List.append_assoc ..⟩
  | none =>
    refine afterEnding?_eq_none_iff.mpr fun ending hending hprefix => ?_
    have hwhole : ending <+: s := h.endings_apart s hs List.suffix_rfl ending hending hprefix
    exact afterEnding?_eq_none_iff.mp hafter ending hending hwhole

/-- What stands before a cut is read as if it stood alone, and what comes after it as well. -/
lemma missingFrom_append (h : Cut s rest) (hword : s = [] → word = []) :
    missingFrom word (s ++ rest) = missingFrom word s ++ missingFrom [] rest := by
  induction word, s using missingFrom.induct with
  | case1 word =>
    rw [hword rfl, missingFrom]
    rfl
  | case2 word c s after hafter hempty ih =>
    have hboth : afterEnding? (c :: (s ++ rest)) = some (after ++ rest) := by
      simpa [hafter] using h.afterEnding?_append (List.cons_ne_nil c s)
    rw [List.cons_append, missingFrom_of_some hboth, missingFrom_of_some hafter, if_pos hempty,
      if_pos hempty]
    exact ih (h.of_suffix (List.suffix_cons c s)) fun _ => rfl
  | case3 word c s after hafter hempty ih =>
    have hboth : afterEnding? (c :: (s ++ rest)) = some (after ++ rest) := by
      simpa [hafter] using h.afterEnding?_append (List.cons_ne_nil c s)
    have hsuffix : after <:+ c :: s := by
      obtain ⟨ending, -, htext⟩ := afterEnding?_eq_some_iff.mp hafter
      exact htext ▸ List.suffix_append ending after
    rw [List.cons_append, missingFrom_of_some hboth, missingFrom_of_some hafter, if_neg hempty,
      if_neg hempty, ih (h.of_suffix hsuffix) fun _ => rfl]
    rfl
  | case4 word c s hafter ih =>
    have hboth : afterEnding? (c :: (s ++ rest)) = none := by
      simpa [hafter] using h.afterEnding?_append (List.cons_ne_nil c s)
    rw [List.cons_append, missingFrom_of_none hboth, missingFrom_of_none hafter]
    refine ih (h.of_suffix (List.suffix_cons c s)) ?_
    -- the last character before the cut leaves no name open
    rintro rfl
    have hc : inName c = false := h.names_apart c rfl
    simp [hc]

/-- The missing commands of an output that is cut are those before the cut and those after it. -/
theorem missing_append {first last : String} (h : Cut first.toList last.toList) :
    missing (first ++ last) = missing first ++ missing last := by
  rw [missing, String.toList_append, h.missingFrom_append fun _ => rfl]
  rfl

/-- The empty text can be cut off before any text. -/
lemma nil (rest : List Char) : Cut [] rest where
  endings_apart _ hne htail := absurd (List.suffix_nil.mp htail) hne
  names_apart _ hc := nomatch hc

/-- Of the end of a name that lies across a cut, a beginning stands before the cut and the remainder
after it. -/
lemma of_remainders (hlast : ∀ c ∈ s.getLast?, inName c = false)
    (h : ∀ tail ≠ [], tail <:+ s → ∀ remainder, tail ++ remainder ∈ endings →
      ¬remainder <+: rest) : Cut s rest where
  names_apart := hlast
  endings_apart tail hne htail ending hending hprefix := by
    rcases List.prefix_or_prefix_of_prefix hprefix (List.prefix_append tail rest) with h' | h'
    · exact h'
    · obtain ⟨remainder, rfl⟩ := h'
      have hrest : remainder <+: rest := (List.prefix_append_right_inj tail).mp hprefix
      exact absurd hrest (h tail hne htail remainder hending)

/-- An output can be cut after a line feed. -/
lemma of_feed (h : ['\n'] <:+ s) (rest : List Char) : Cut s rest := by
  obtain ⟨front, rfl⟩ := h
  refine of_remainders (fun c hc => ?_) fun tail hne htail remainder hending => ?_
  · have hfeed : '\n' = c := by simpa using hc
    exact hfeed ▸ by decide
  · have hlast : tail.getLast hne = '\n' := by
      simpa using htail.getLast hne
    have hmem : '\n' ∈ tail ++ remainder :=
      List.mem_append_left remainder (hlast ▸ List.getLast_mem hne)
    have hnone : ∀ e ∈ endings, '\n' ∉ e := by decide
    exact absurd hmem (hnone _ hending)

/-- An output can be cut after a colon with a blank if a text without blanks and another colon
follow. -/
lemma of_colon (h : [':', ' '] <:+ s) {name : List Char} (hname : ' ' ∉ name)
    (more : List Char) : Cut s (name ++ ':' :: more) := by
  obtain ⟨front, rfl⟩ := h
  refine of_remainders (fun c hc => ?_) fun tail hne htail remainder hending hprefix => ?_
  · have hblank : ' ' = c := by simpa using hc
    exact hblank ▸ by decide
  -- no more than the colon and the blank stand before the cut
  have htail : tail = [':', ' '] := by
    have hinit : tail ∈ (tail ++ remainder).inits := by simp
    have hshort : ∀ e ∈ endings, ∀ t ∈ e.inits, t ≠ [] →
        t <:+ [':', ' '] ∨ [':', ' '] <:+ t → t = [':', ' '] := by decide
    refine hshort _ hending tail hinit hne ?_
    exact List.suffix_or_suffix_of_suffix htail (List.suffix_append front _)
  subst htail
  have hremainder : ∀ e ∈ endings, ':' ∉ e.drop 2 ∧ ' ' ∈ e.drop 2 := by decide
  obtain ⟨hcolon, hblank⟩ : ':' ∉ remainder ∧ ' ' ∈ remainder := hremainder _ hending
  rcases List.prefix_or_prefix_of_prefix hprefix (List.prefix_append name _) with hshort | hlong
  · exact hname (hshort.subset hblank)
  · obtain ⟨last, rfl⟩ := hlong
    have hlast : last <+: ':' :: more := (List.prefix_append_right_inj name).mp hprefix
    cases last with
    | nil =>
      rw [List.append_nil] at hblank
      exact hname hblank
    | cons c last =>
      obtain ⟨rfl, -⟩ := List.cons_prefix_cons.mp hlast
      exact hcolon (by simp)

end Cut

/-! ## The hint -/

/-- A name is read character by character. -/
lemma missingFrom_name {name : List Char} (h : ∀ c ∈ name, inName c = true) (word s : List Char) :
    missingFrom word (name ++ s) = missingFrom (name.reverse ++ word) s := by
  induction name generalizing word with
  | nil => rfl
  | cons c name ih =>
    obtain ⟨hc, hname⟩ := List.forall_mem_cons.mp h
    have hnone : afterEnding? (c :: (name ++ s)) = none := by
      refine afterEnding?_eq_none_iff.mpr fun ending hending hprefix => ?_
      have hcolon : ∀ e ∈ endings, e.head? = some ':' := by decide
      obtain ⟨more, rfl⟩ := List.head?_eq_some_iff.mp (hcolon ending hending)
      obtain ⟨rfl, -⟩ := List.cons_prefix_cons.mp hprefix
      cases hc
    rw [List.cons_append, missingFrom_of_none hnone, if_pos hc, ih hname, List.reverse_cons,
      List.append_assoc, List.singleton_append]

/-- In a line that says that a command was not found, it is named. -/
lemma missing_line {tool : String} (htool : tool ≠ "") (hname : ∀ c ∈ tool.toList, inName c = true)
    {ending : List Char} (hending : ending ∈ endings) :
    missing (tool ++ String.ofList (ending ++ ['\n'])) = [tool] := by
  have hempty : (tool.toList.reverse ++ []).isEmpty = false := by
    simpa using htool
  have hafter : afterEnding? (ending ++ ['\n']) = some ['\n'] :=
    afterEnding?_eq_some_iff.mpr ⟨ending, hending, rfl⟩
  have hfeed : missingFrom [] ['\n'] = [] := by
    refine missingFrom_eq_nil (not_namesMissing ?_) (List.forall_mem_nil _)
    decide
  rw [missing, String.toList_append, String.toList_ofList, missingFrom_name hname]
  cases hchars : ending ++ ['\n'] with
  | nil => simp at hchars
  | cons c chars =>
    rw [hchars] at hafter
    rw [missingFrom_of_some hafter, hempty, hfeed]
    simp

/-- An output can be cut before the line of a missing command if it is empty, or if it is ended by a
line feed or by a colon with a blank. -/
lemma cut_line {earlier tool : String} (hname : ∀ c ∈ tool.toList, inName c = true)
    (hearlier : earlier = "" ∨ "\n".toList <:+ earlier.toList ∨ ": ".toList <:+ earlier.toList)
    {ending : List Char} (hending : ending ∈ endings) (later : String) :
    Cut earlier.toList ((tool ++ String.ofList (ending ++ ['\n'])) ++ later).toList := by
  rcases hearlier with rfl | hfeed | hcolon
  · exact .nil _
  · exact .of_feed hfeed _
  · have hblank : ' ' ∉ tool.toList := by
      intro h
      cases hname ' ' h
    have hends : ∀ e ∈ endings, e = ':' :: e.tail := by decide
    have hrest : ((tool ++ String.ofList (ending ++ ['\n'])) ++ later).toList =
        tool.toList ++ ':' :: (ending.tail ++ '\n' :: later.toList) := by
      rw [String.toList_append, String.toList_append, String.toList_ofList, hends ending hending]
      simp
    rw [hrest]
    exact .of_colon hcolon hblank _

/-- The line of a missing command names it after the commands that are named before, and it is the
last one if no command is named after the line. -/
lemma missing_last {earlier tool later : String} (htool : tool ≠ "")
    (hname : ∀ c ∈ tool.toList, inName c = true)
    (hearlier : earlier = "" ∨ "\n".toList <:+ earlier.toList ∨ ": ".toList <:+ earlier.toList)
    (hlater : ¬NamesMissing later.toList) {ending : List Char} (hending : ending ∈ endings) :
    missing (earlier ++ tool ++ String.ofList (ending ++ ['\n']) ++ later) =
      missing earlier ++ [tool] := by
  have hbefore := cut_line hname hearlier hending later
  have hafter : Cut (tool ++ String.ofList (ending ++ ['\n'])).toList later.toList := by
    refine .of_feed ⟨tool.toList ++ ending, ?_⟩ _
    rw [String.toList_append, String.toList_ofList, List.append_assoc]
  have hnone : missing later = [] :=
    missingFrom_eq_nil hlater (List.forall_mem_nil _)
  calc
    missing (earlier ++ tool ++ String.ofList (ending ++ ['\n']) ++ later) =
        missing (earlier ++ ((tool ++ String.ofList (ending ++ ['\n'])) ++ later)) := by
      simp only [String.append_assoc]
    _ = missing earlier ++
        (missing (tool ++ String.ofList (ending ++ ['\n'])) ++ missing later) := by
      rw [hbefore.missing_append, hafter.missing_append]
    _ = missing earlier ++ [tool] := by
      rw [missing_line htool hname hending, hnone, List.append_nil]

/-- A name without slashes is the last part of a path itself. -/
lemma baseName_eq {name : String} (h : '/' ∉ name.toList) : baseName name = name := by
  have hall : name.toList.reverse.takeWhile (· != '/') = name.toList.reverse := by
    refine List.takeWhile_eq_self_iff.mpr fun c hc => ?_
    rw [bne_iff_ne]
    rintro rfl
    exact h (List.mem_reverse.mp hc)
  rw [baseName, hall, List.reverse_reverse, String.ofList_toList]

/-- The hint is for the command that the output names last as missing, if its name has no blanks, no
colons and no slashes, and what the shell puts before it is nothing, or is ended by a line feed or
by a colon with a blank.  Neither the command that was run nor what was named before makes a
difference. -/
theorem of?_last_missing (command : String) {earlier tool later : String} (htool : tool ≠ "")
    (hname : ∀ c ∈ tool.toList, isBlank c = false ∧ c ≠ ':' ∧ c ≠ '/')
    (hearlier : earlier = "" ∨ "\n".toList <:+ earlier.toList ∨ ": ".toList <:+ earlier.toList)
    (hlater : ¬NamesMissing later.toList) :
    ∀ line ∈ [": command not found\n", ": not found\n"],
      of? command (earlier ++ tool ++ line ++ later) =
        some ((known.lookup tool).getD ("Install " ++ tool ++ " or fix PATH.")) := by
  intro line hline
  obtain ⟨ending, hending, rfl⟩ : ∃ ending ∈ endings, line = String.ofList (ending ++ ['\n']) := by
    have hlines : [": command not found\n", ": not found\n"] =
        endings.map fun ending => String.ofList (ending ++ ['\n']) := by decide
    rw [hlines] at hline
    obtain ⟨ending, hending, rfl⟩ := List.mem_map.mp hline
    exact ⟨ending, hending, rfl⟩
  have hchars : ∀ c ∈ tool.toList, inName c = true := by
    intro c hc
    obtain ⟨hblank, hcolon, -⟩ := hname c hc
    simp [inName, hblank, hcolon]
  have hslash : '/' ∉ tool.toList := fun h => (hname '/' h).2.2 rfl
  have hfound : Hint.tool command
      (earlier ++ tool ++ String.ofList (ending ++ ['\n']) ++ later) = tool := by
    rw [Hint.tool, missing_last htool hchars hearlier hlater hending, List.getLast?_concat,
      Option.getD_some, baseName_eq hslash]
  rw [of?, hfound, forTool]
  cases hknown : known.lookup tool with
  | some advice => rfl
  | none => exact if_neg htool

/-- After a shell has looked for another command, the hint is for the one it looked for last. -/
theorem of?_last_missing_of_second_command :
    of? "make"
        ("make: not found\nbash: line 2: " ++ "cargo" ++ ": command not found\n" ++ "exit\n") =
      some "Install the Rust toolchain (https://rustup.rs) or fix PATH." := by
  have hname : ∀ c ∈ "cargo".toList, isBlank c = false ∧ c ≠ ':' ∧ c ≠ '/' := by simp [isBlank]
  have hcolon : ": ".toList <:+ "make: not found\nbash: line 2: ".toList := by decide
  have hlater : ¬NamesMissing "exit\n".toList := not_namesMissing (by decide)
  have hadvice : known.lookup "cargo" =
      some "Install the Rust toolchain (https://rustup.rs) or fix PATH." := by decide +kernel
  rw [of?_last_missing "make" (by decide) hname (Or.inr (Or.inr hcolon)) hlater _
    List.mem_cons_self, hadvice, Option.getD_some]

end CiRunner.Hint
