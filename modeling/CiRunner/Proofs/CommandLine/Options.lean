import CiRunner.CommandLine.Arguments
import Mathlib

/-!
# How options are read

Options are read from the left up to the first word.  `Reads` says this with one rule for each form
that an argument can have, and the reader follows these rules and no others.  So more options may be
known without a difference to arguments that can be read already, and another word may stand in the
place of the first one.

The options of a check are among those of a run.  Hence the arguments of every check are those of a
run in place when its command is replaced.
-/

namespace CiRunner.Arguments

variable {known : Known} {args rest : List String} {given : Given}

/-! ## Reading options -/

/-- Arguments are options, up to a first word or to what ends the options, with the rest after
them. -/
inductive Reads (known : Known) : List String → Given → List String → Prop
  /-- There are no arguments. -/
  | nil : Reads known [] [] []
  /-- The options are ended. -/
  | ended {rest : List String} : Reads known ("--" :: rest) [] rest
  /-- There is a word. -/
  | word {arg : String} {rest : List String} (hend : arg ≠ "--") (hword : isOption arg = false) :
      Reads known (arg :: rest) [] (arg :: rest)
  /-- There is an option that takes no value. -/
  | flag {arg name : String} {args rest : List String} {given : Given} (hend : arg ≠ "--")
      (hoption : isOption arg = true) (hcut : splitOption arg = (name, none))
      (hknown : known.lookup name = some .flag) (h : Reads known args given rest) :
      Reads known (arg :: args) ((name, none) :: given) rest
  /-- There is an option with its value after an equals sign. -/
  | joined {arg name value : String} {args rest : List String} {given : Given} (hend : arg ≠ "--")
      (hoption : isOption arg = true) (hcut : splitOption arg = (name, some value))
      (hknown : known.lookup name = some .value) (h : Reads known args given rest) :
      Reads known (arg :: args) ((name, some value) :: given) rest
  /-- There is an option with its value in the next argument. -/
  | apart {arg name value : String} {args rest : List String} {given : Given} (hend : arg ≠ "--")
      (hoption : isOption arg = true) (hcut : splitOption arg = (name, none))
      (hknown : known.lookup name = some .value) (h : Reads known args given rest) :
      Reads known (arg :: value :: args) ((name, some value) :: given) rest

/-- What follows the rules is read. -/
lemma Reads.readOptions_eq (h : Reads known args given rest) :
    readOptions known args = some (given, rest) := by
  induction h with
  | nil => rfl
  | ended => simp [readOptions]
  | word hend hword => simp [readOptions, hend, hword]
  | flag hend hoption hcut hknown h ih =>
    simp [readOptions, hend, hoption, hcut, hknown, ih]
  | joined hend hoption hcut hknown h ih =>
    simp [readOptions, hend, hoption, hcut, hknown, ih]
  | apart hend hoption hcut hknown h ih =>
    simp [readOptions, hend, hoption, hcut, hknown, ih]

/-- Where an option was put before others, these were read. -/
lemma of_map_cons {option : String × Option String} {others : Option (Given × List String)}
    (h : others.map (fun (g, ws) => (option :: g, ws)) = some (given, rest)) :
    ∃ more, given = option :: more ∧ others = some (more, rest) := by
  obtain ⟨⟨more, left⟩, hothers, heq⟩ := Option.map_eq_some_iff.mp h
  cases heq
  exact ⟨more, rfl, hothers⟩

/-- Options are read by the rules. -/
theorem readOptions_eq_some_iff :
    readOptions known args = some (given, rest) ↔ Reads known args given rest := by
  refine ⟨fun h => ?_, Reads.readOptions_eq⟩
  induction args using readOptions.induct known generalizing given rest with
  | case1 =>
    cases h
    exact .nil
  | case2 more =>
    rw [readOptions, if_pos rfl] at h
    cases h
    exact .ended
  | case3 arg more hend hword =>
    rw [readOptions, if_neg hend, if_pos hword] at h
    cases h
    exact .word hend hword
  | case4 arg hend hoption name more hknown hcut ih =>
    rw [readOptions, if_neg hend, if_neg hoption, hcut] at h
    simp only [hknown] at h
    obtain ⟨others, rfl, hmore⟩ := of_map_cons h
    exact .flag hend (Bool.eq_true_of_not_eq_false hoption) hcut hknown (ih hmore)
  | case5 arg hend hoption name value more hknown hcut ih =>
    rw [readOptions, if_neg hend, if_neg hoption, hcut] at h
    simp only [hknown] at h
    obtain ⟨others, rfl, hmore⟩ := of_map_cons h
    exact .joined hend (Bool.eq_true_of_not_eq_false hoption) hcut hknown (ih hmore)
  | case6 arg hend hoption name value more hknown hcut ih =>
    rw [readOptions, if_neg hend, if_neg hoption, hcut] at h
    simp only [hknown] at h
    obtain ⟨others, rfl, hmore⟩ := of_map_cons h
    exact .apart hend (Bool.eq_true_of_not_eq_false hoption) hcut hknown (ih hmore)
  | case7 arg more hend hoption name value hcut hflag hjoined hapart =>
    rw [readOptions, if_neg hend, if_neg hoption, hcut] at h
    dsimp only at h
    split at h
    · exact absurd rfl (hflag ‹_›)
    · exact (hjoined _ ‹_› rfl).elim
    · exact (hapart _ _ ‹_› rfl rfl).elim
    · cases h

namespace Reads

/-- More options may be known. -/
lemma append (h : Reads known args given rest) (more : Known) :
    Reads (known ++ more) args given rest := by
  have hlookup : ∀ {name arity}, known.lookup name = some arity →
      (known ++ more).lookup name = some arity := by
    intro name arity hname
    rw [List.lookup_append, hname, Option.some_or]
  induction h with
  | nil => exact .nil
  | ended => exact .ended
  | word hend hword => exact .word hend hword
  | flag hend hoption hcut hknown h ih => exact .flag hend hoption hcut (hlookup hknown) ih
  | joined hend hoption hcut hknown h ih => exact .joined hend hoption hcut (hlookup hknown) ih
  | apart hend hoption hcut hknown h ih => exact .apart hend hoption hcut (hlookup hknown) ih

/-- Only known options are given. -/
lemma lookup_ne_none (h : Reads known args given rest) :
    ∀ option ∈ given, known.lookup option.1 ≠ none := by
  induction h with
  | nil | ended | word => exact List.forall_mem_nil _
  | flag hend hoption hcut hknown h ih => exact List.forall_mem_cons.mpr ⟨by simp [hknown], ih⟩
  | joined hend hoption hcut hknown h ih => exact List.forall_mem_cons.mpr ⟨by simp [hknown], ih⟩
  | apart hend hoption hcut hknown h ih => exact List.forall_mem_cons.mpr ⟨by simp [hknown], ih⟩

/-- In the place of the first word another one may stand. -/
lemma replace {word : String} (h : Reads known args given (word :: rest)) (other : String)
    (hend : other ≠ "--") (hother : isOption other = false) :
    ∃ before, args = before ++ word :: rest ∧
      Reads known (before ++ other :: rest) given (other :: rest) := by
  generalize hall : word :: rest = all at h
  induction h with
  | nil => cases hall
  | ended =>
    subst hall
    exact ⟨["--"], rfl, .ended⟩
  | word =>
    cases hall
    exact ⟨[], rfl, .word hend hother⟩
  | @flag arg name args _ given hend' hoption hcut hknown h ih =>
    obtain ⟨before, rfl, hreads⟩ := ih hall
    exact ⟨arg :: before, rfl, .flag hend' hoption hcut hknown hreads⟩
  | @joined arg name value args _ given hend' hoption hcut hknown h ih =>
    obtain ⟨before, rfl, hreads⟩ := ih hall
    exact ⟨arg :: before, rfl, .joined hend' hoption hcut hknown hreads⟩
  | @apart arg name value args _ given hend' hoption hcut hknown h ih =>
    obtain ⟨before, rfl, hreads⟩ := ih hall
    exact ⟨arg :: value :: before, rfl, .apart hend' hoption hcut hknown hreads⟩

end Reads

/-! ## The options of a check -/

/-- An option that is not known is not given. -/
lemma Reads.ne_of_lookup (h : Reads known args given rest) {name : String}
    (hname : known.lookup name = none) : ∀ option ∈ given, option.1 ≠ name := by
  rintro option hoption rfl
  exact h.lookup_ne_none option hoption hname

/-- An option that is not given has no value. -/
lemma last?_eq_none {name : String} (h : ∀ option ∈ given, option.1 ≠ name) :
    last? given name = none := by
  have hlookup : given.reverse.lookup name = none := by
    refine List.lookup_eq_none_iff.mpr fun option hoption => ?_
    exact bne_iff_ne.mpr (h option (List.mem_reverse.mp hoption)).symm
  rw [last?, hlookup]
  rfl

/-- An option that is not given is not there. -/
lemma has_eq_false {name : String} (h : ∀ option ∈ given, option.1 ≠ name) :
    has given name = false := by
  have hlookup : given.lookup name = none :=
    List.lookup_eq_none_iff.mpr fun option hoption => bne_iff_ne.mpr (h option hoption).symm
  rw [has, hlookup]
  rfl

/-- Of two options that are not given, the first was not given last. -/
lemma lastOf_eq_false {yes no : String} (hyes : ∀ option ∈ given, option.1 ≠ yes)
    (hno : ∀ option ∈ given, option.1 ≠ no) : lastOf given yes no = false := by
  have hnone : given.reverse.find? (fun g => g.1 == yes || g.1 == no) = none := by
    refine List.find?_eq_none.mpr fun option hoption => ?_
    have hmem := List.mem_reverse.mp hoption
    simp [hyes option hmem, hno option hmem]
  rw [lastOf, hnone]

/-- All arguments of a command are options if they are read as such and nothing is left. -/
lemma readAll_eq_some_iff : readAll known args = some given ↔ Reads known args given [] := by
  rw [← readOptions_eq_some_iff, readAll]
  rcases readOptions known args with _ | ⟨found, _ | ⟨word, words⟩⟩
  · simp
  · simp
  · simp

/-- The options of a check ask for a run in place that is not forced. -/
lemma readCommand_run_of_check {env : Environment} {workflow : Option String} {kind : String}
    {branch sha : Option String}
    (h : readCommand env "check" args = some (.check workflow kind branch sha)) :
    readCommand env "run" args = some (.run workflow kind branch sha false none false) := by
  obtain ⟨given, hgiven, h⟩ := Option.bind_eq_some_iff.mp h
  obtain ⟨kind', hkind, h⟩ := Option.bind_eq_some_iff.mp h
  cases Option.some.inj h
  have hreads := readAll_eq_some_iff.mp hgiven
  have hall : readAll runOptions args = some given := readAll_eq_some_iff.mpr (hreads.append _)
  have hisolated : lastOf given "--isolated" "--in-place" = false :=
    lastOf_eq_false (hreads.ne_of_lookup rfl) (hreads.ne_of_lookup rfl)
  have hworkDir : last? given "--work-dir" = none := last?_eq_none (hreads.ne_of_lookup rfl)
  have hforce : has given "--force" = false := has_eq_false (hreads.ne_of_lookup rfl)
  simp [readCommand, hall, hkind, hisolated, hworkDir, hforce]

/-- Only the word for a check is read as a check. -/
lemma eq_check_of_readCommand {env : Environment} {name : String} {workflow : Option String}
    {kind : String} {branch sha : Option String}
    (h : readCommand env name args = some (.check workflow kind branch sha)) : name = "check" := by
  unfold readCommand at h
  split at h
  · obtain ⟨given, -, h⟩ := Option.bind_eq_some_iff.mp h
    obtain ⟨kind', -, h⟩ := Option.bind_eq_some_iff.mp h
    cases Option.some.inj h
  · rfl
  · obtain ⟨given, -, h⟩ := Option.bind_eq_some_iff.mp h
    cases Option.some.inj h
  · obtain ⟨given, -, h⟩ := Option.bind_eq_some_iff.mp h
    obtain ⟨port, -, h⟩ := Option.bind_eq_some_iff.mp h
    cases Option.some.inj h
  · cases h

/-- The arguments of a check are those of a run in place that is not forced, with another command
in the place of the first word. -/
theorem read?_run_of_check {env : Environment} {debug quiet : Bool} {workflow : Option String}
    {kind : String} {branch sha : Option String}
    (h : read? env args = some ⟨debug, quiet, .check workflow kind branch sha⟩) :
    ∃ before after, args = before ++ "check" :: after ∧
      read? env (before ++ "run" :: after) =
        some ⟨debug, quiet, .run workflow kind branch sha false none false⟩ := by
  obtain ⟨⟨given, words⟩, hread, h⟩ := Option.bind_eq_some_iff.mp h
  cases words with
  | nil => cases h
  | cons name after =>
    obtain ⟨command, hcommand, h⟩ := Option.bind_eq_some_iff.mp h
    cases Option.some.inj h
    obtain rfl := eq_check_of_readCommand hcommand
    obtain ⟨before, hargs, hreads⟩ := (readOptions_eq_some_iff.mp hread).replace "run"
      (by decide) (by decide)
    refine ⟨before, after, hargs, ?_⟩
    simp [read?, hreads.readOptions_eq, readCommand_run_of_check hcommand]

end CiRunner.Arguments
