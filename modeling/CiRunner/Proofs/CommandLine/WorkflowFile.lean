import CiRunner.Proofs.CommandLine.MissingFile
import CiRunner.Proofs.FileTree.Ways

/-!
# Whether a workflow file is there

A workflow file that is named is looked for twice.  A command asks whether the path, as it is
written, leads to anything from the working directory, and reports that the file was not found if it
does not.  Loading the file starts a path with a tilde at the home directory of the user or of the
one it names, and then takes double full stops away without looking at the files.

So the two can disagree: about a path that begins with a tilde, and about one that steps back from
something that is no directory.  `WorkflowFiles.Misjudged` lists how, and they agree about every
other path (`missing_reported_iff_not_misjudged`).
-/

namespace CiRunner

open RunM

variable {τ : Type}

/-! ## The two ways to a file -/

/-- A place is short enough to be looked up: no name on the way has more than 255 bytes, and the
whole has less than 4096. -/
def Location.IsShort (place : Location) : Prop :=
  (∀ name ∈ place, name.utf8ByteSize ≤ 255) ∧ place.text.utf8ByteSize < 4096

instance (place : Location) : Decidable place.IsShort := inferInstanceAs (Decidable (_ ∧ _))

/-- The first name of a path begins with a tilde. -/
def Path.StartsWithTilde (p : Path) : Prop :=
  p.absolute = false ∧ ∃ first rest, p.parts = first :: rest ∧ first.toList.head? = some '~'

/-- Only such a path is started elsewhere. -/
lemma Path.expandHome?_of_not_startsWithTilde {p : Path} (h : ¬p.StartsWithTilde)
    (home : Option String) (users : Users) : p.expandHome? home users = some p := by
  unfold expandHome?
  split
  · rename_i first rest habsolute hparts
    have hno : ¬first.toList.head? = some '~' :=
      fun hfirst => h ⟨habsolute, first, rest, hparts, hfirst⟩
    rw [if_neg hno]
  · rfl

namespace WorkflowFiles

variable {files : WorkflowFiles} {p : Path}

/-- A path is short, both as it is written and at its place. -/
structure HasShort (files : WorkflowFiles) (p : Path) : Prop where
  /-- It is as it is written. -/
  written : Location.IsShort (files.directory ++ p.parts)
  /-- Its place is. -/
  place : ∀ q, p.expandHome? files.home files.users = some q →
    Location.IsShort (q.resolve files.directory)

/-- A path is misjudged: it leads to nothing as it is written and loading it does not say that there
is no file, or it leads to something and loading it says so. -/
inductive Misjudged (files : WorkflowFiles) (p : Path) : Prop
  /-- It steps back from something that is no directory, and something stands at its place. -/
  | steppedBack (hplain : ¬p.StartsWithTilde) {before after : List String}
      (hparts : p.parts = before ++ ".." :: after)
      (hback : files.tree.isDir (Path.resolve files.directory { p with parts := before }) = false)
      (hplace : files.tree.holds (p.resolve files.directory) = true)
  /-- It leads to something in the working directory, and nothing stands in the home directory that
  it starts at. -/
  | nearby {q : Path} (htilde : p.StartsWithTilde)
      (hhome : p.expandHome? files.home files.users = some q)
      (hfinds : files.tree.finds files.directory p = true)
      (hplace : files.tree.holds (q.resolve files.directory) = false)
  /-- It leads to nothing in the working directory, and something stands in the home directory that
  it starts at. -/
  | atHome {q : Path} (htilde : p.StartsWithTilde)
      (hhome : p.expandHome? files.home files.users = some q)
      (hfinds : files.tree.finds files.directory p = false)
      (hplace : files.tree.holds (q.resolve files.directory) = true)
  /-- It leads to nothing in the working directory, and the home directory is not known. -/
  | homeless (hhome : p.expandHome? files.home files.users = none)
      (hfinds : files.tree.finds files.directory p = false)

/-- What is wrong with a document is not that it is missing. -/
lemma loadDocument_ne_notFound (place other : Location) :
    files.loadDocument place ≠ .error (.notFound other) := by
  unfold loadDocument
  split
  · nofun
  · cases Workflow.ofText (some place.text) _ <;> nofun

/-- Nor is it so with a script. -/
lemma loadScript_ne_notFound (place other : Location) :
    files.loadScript place ≠ .error (.notFound other) := by
  unfold loadScript
  split
  · nofun
  have hvalue : ∀ reason, (files.script place).value = .error reason →
      ∃ message, reason = .script message := by
    intro reason h
    unfold Script.value at h
    split at h
    · cases h
    · exact ⟨_, (Except.error.inj h).symm⟩
    · split at h <;> cases h
  unfold Script.workflow
  cases h : (files.script place).value with
  | error reason =>
    obtain ⟨message, rfl⟩ := hvalue reason h
    nofun
  | ok value =>
    cases value with
    | none => nofun
    | some wf =>
      dsimp only [bind, Except.bind]
      split <;> nofun

/-- The place of a path is what it leads to after it was started elsewhere. -/
lemma locate_eq_ok_iff {place : Location} :
    files.locate p = .ok place ↔
      ∃ q, p.expandHome? files.home files.users = some q ∧ q.resolve files.directory = place := by
  unfold locate
  cases p.expandHome? files.home files.users <;> simp

/-- Loading says that there is no file exactly if nothing stands at the place of the path. -/
lemma load_eq_notFound_iff {place : Location} :
    files.load p = .error (.notFound place) ↔
      files.locate p = .ok place ∧ files.tree.holds place = false := by
  unfold load
  cases hlocate : files.locate p with
  | error reason =>
    have hreason : reason ≠ .notFound place := by
      unfold locate at hlocate
      split at hlocate
      · cases hlocate
        nofun
      · cases hlocate
    exact iff_of_false (fun h => hreason (Except.error.inj h)) nofun
  | ok found =>
    dsimp only [bind, Except.bind]
    by_cases hholds : files.tree.holds found = false
    · rw [if_pos hholds]
      constructor
      · intro h
        cases h
        exact ⟨rfl, hholds⟩
      · rintro ⟨⟨⟩, -⟩
        rfl
    · rw [if_neg hholds]
      have hother : ¬((.ok found : Except LoadError Location) = .ok place ∧
          files.tree.holds place = false) := by
        rintro ⟨⟨⟩, hfree⟩
        exact hholds hfree
      refine iff_of_false ?_ hother
      split_ifs
      · exact loadDocument_ne_notFound found place
      · exact loadScript_ne_notFound found place
      · nofun

/-- That is so if the path, started where it belongs, leads to a place with nothing. -/
lemma exists_load_eq_notFound_iff :
    (∃ place, files.load p = .error (.notFound place)) ↔
      ∃ q, p.expandHome? files.home files.users = some q ∧
        files.tree.holds (q.resolve files.directory) = false := by
  simp only [load_eq_notFound_iff, locate_eq_ok_iff]
  constructor
  · rintro ⟨place, ⟨q, hq, rfl⟩, hfree⟩
    exact ⟨q, hq, hfree⟩
  · rintro ⟨q, hq, hfree⟩
    exact ⟨_, ⟨q, hq, rfl⟩, hfree⟩

/-- What a path that is not misjudged leads to as it is written, loading finds as well, and the
other way round. -/
lemma misjudged_iff (htree : files.tree.Grounded) :
    files.Misjudged p ↔ ¬(files.tree.finds files.directory p = false ↔
      ∃ place, files.load p = .error (.notFound place)) := by
  rw [exists_load_eq_notFound_iff]
  constructor
  · intro h hiff
    cases h with
    | @steppedBack hplain before after hparts hback hplace =>
      have hfinds : files.tree.finds files.directory p = false := by
        rw [Bool.eq_false_iff]
        intro hfound
        have hdir := ((FileTree.finds_iff htree _ p).mp hfound).2 before after hparts
        exact Bool.eq_false_iff.mp hback hdir
      obtain ⟨q, hq, hfree⟩ := hiff.mp hfinds
      obtain rfl : p = q :=
        Option.some.inj ((Path.expandHome?_of_not_startsWithTilde hplain _ _).symm.trans hq)
      exact Bool.eq_false_iff.mp hfree hplace
    | nearby htilde hhome hfinds hplace =>
      exact Bool.eq_false_iff.mp (hiff.mpr ⟨_, hhome, hplace⟩) hfinds
    | atHome htilde hhome hfinds hplace =>
      obtain ⟨q, hq, hfree⟩ := hiff.mp hfinds
      cases hhome.symm.trans hq
      exact Bool.eq_false_iff.mp hfree hplace
    | homeless hhome hfinds =>
      obtain ⟨q, hq, -⟩ := hiff.mp hfinds
      cases hhome.symm.trans hq
  · intro h
    by_cases hfinds : files.tree.finds files.directory p = true
    · -- then loading says that there is no file
      have hmissing : ∃ q, p.expandHome? files.home files.users = some q ∧
          files.tree.holds (q.resolve files.directory) = false := by
        by_contra hnone
        exact h (iff_of_false (fun hno => Bool.eq_false_iff.mp hno hfinds) hnone)
      obtain ⟨q, hq, hfree⟩ := hmissing
      by_cases htilde : p.StartsWithTilde
      · exact .nearby htilde hq hfinds hfree
      · obtain rfl : p = q :=
          Option.some.inj ((Path.expandHome?_of_not_startsWithTilde htilde _ _).symm.trans hq)
        have hplace := ((FileTree.finds_iff htree _ p).mp hfinds).1
        exact absurd hplace (Bool.eq_false_iff.mp hfree)
    · -- then loading does not say so
      have hnot := Bool.eq_false_iff.mpr hfinds
      have hthere : ∀ q, p.expandHome? files.home files.users = some q →
          files.tree.holds (q.resolve files.directory) = true := by
        intro q hq
        by_contra hfree
        exact h (iff_of_true hnot ⟨q, hq, Bool.eq_false_iff.mpr hfree⟩)
      cases hhome : p.expandHome? files.home files.users with
      | none => exact .homeless hhome hnot
      | some q =>
        by_cases htilde : p.StartsWithTilde
        · exact .atHome htilde hhome hnot (hthere q hhome)
        · have hplace := hthere p (Path.expandHome?_of_not_startsWithTilde htilde _ _)
          have hback : ¬∀ before after, p.parts = before ++ ".." :: after →
              files.tree.isDir (Path.resolve files.directory { p with parts := before }) = true :=
            fun hall => hfinds ((FileTree.finds_iff htree _ p).mpr ⟨hplace, hall⟩)
          push Not at hback
          obtain ⟨before, after, hparts, hno⟩ := hback
          exact .steppedBack htilde hparts (Bool.eq_false_iff.mpr hno) hplace

end WorkflowFiles

/-- A receiver that is told of a workflow file loads it. -/
lemma Receiver.loadWorkflows_of_ne {s : Settings} {path : String} (hs : s.workflow = some path)
    (hne : path ≠ "") (host : Host τ) (w : World τ) :
    Receiver.loadWorkflows s host w =
      (.ok ((((host.filesIn w.tree).load (Path.ofText path)).map ([·])).mapError .load), w) := by
  have hload : (Receiver.loadWorkflows s : RunM τ _) = RunM.files >>= fun files =>
      pure (((files.load (Path.ofText path)).map ([·])).mapError .load) := by
    unfold Receiver.loadWorkflows
    congr 1
    funext files
    rw [hs]
    split
    · cases ‹_›
    · exact absurd (Option.some.inj ‹_›) hne
    · cases ‹some path = _›
      rfl
  rw [hload]
  rfl

section Agreement

open Commands

/-- A host with a home directory next to the working directory. -/
def repoHost : Host Float :=
  { Host.scripted [] with environment := [("HOME", "/home")], directory := ["repo"] }

/-- A workflow file in the working directory, next to something that is called `build`. -/
def builtWorld (build : FileEntry) : World Float where
  clock := 0.0
  tree := ⟨[(["repo", "build"], build),
    (["repo", "ci.yml"], .file (filteredText "ma*").toUTF8.toList), (["repo"], .directory)]⟩

/-- Everything stands in a directory there. -/
lemma grounded_builtWorld (build : FileEntry) : (builtWorld build).tree.Grounded := by
  apply FileTree.grounded_of_entries
  have hrepo : (builtWorld build).tree.isDir ["repo"] = true := by
    simp [builtWorld, FileTree.isDir, FileTree.get?, List.lookup]
  rintro e he
  simp only [builtWorld, List.mem_cons, List.not_mem_nil, or_false] at he
  rcases he with rfl | rfl | rfl
  · exact hrepo
  · exact hrepo
  · rfl

/-- The path by way of `build` is short there. -/
lemma hasShort_builtWorld (build : FileEntry) :
    (repoHost.filesIn (builtWorld build).tree).HasShort (Path.ofText "build/../ci.yml") := by
  have hwritten : Location.IsShort (["repo"] ++ (Path.ofText "build/../ci.yml").parts) := by
    decide +kernel
  have hplace : Location.IsShort ((Path.ofText "build/../ci.yml").resolve ["repo"]) := by
    decide +kernel
  refine ⟨hwritten, fun q hq => ?_⟩
  obtain rfl : Path.ofText "build/../ci.yml" = q := Option.some.inj hq
  exact hplace

/-- A workflow file in the home directory. -/
def homeWorld : World Float where
  clock := 0.0
  tree := ⟨[(["home", "ci.yml"], .file (filteredText "ma*").toUTF8.toList),
    (["home"], .directory), (["repo"], .directory)]⟩

end Agreement

end CiRunner
