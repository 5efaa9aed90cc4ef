import CiRunner.FileTree.Tree
import Mathlib

/-!
# Ways in file trees

A path leads somewhere in two senses.  It names a place, at which something stands or not; and it is
a way that can be gone name by name, for which everything on it but its end has to be a directory.
In a tree in which all entries stand in directories the two differ only where a path steps back:
the place that it names does not depend on what it steps back from (`FileTree.finds_iff`).
-/

namespace CiRunner

namespace FileTree

/-- Everything in a tree stands in a directory. -/
def Grounded (t : FileTree) : Prop :=
  ∀ place name, t.holds (place ++ [name]) = true → t.isDir place = true

variable {t : FileTree}

/-- A tree is grounded if each of its entries stands in a directory. -/
lemma grounded_of_entries (h : ∀ e ∈ t.entries, t.isDir e.1.dropLast = true) : t.Grounded := by
  intro place name hholds
  have hget : t.get? (place ++ [name]) = t.entries.lookup (place ++ [name]) := by
    simp [get?]
  obtain ⟨entry, hentry⟩ := Option.isSome_iff_exists.mp hholds
  obtain ⟨before, after, hentries, -⟩ := List.lookup_eq_some_iff.mp (hget.symm.trans hentry)
  have hmem : (place ++ [name], entry) ∈ t.entries := by
    rw [hentries]
    exact List.mem_append_right _ List.mem_cons_self
  simpa using h _ hmem

/-- A directory is something. -/
lemma holds_of_isDir {place : Location} (h : t.isDir place = true) : t.holds place = true := by
  have hget : t.get? place = some .directory := by simpa [isDir] using h
  rw [holds, hget]
  rfl

/-- What leads on stands there. -/
lemma holds_of_reaches {place : Location} {names : List String}
    (h : t.reaches place names = true) : t.holds place = true := by
  cases names with
  | nil => exact h
  | cons name rest =>
    have hboth : t.isDir place = true ∧ t.reaches (Path.stepFrom place name) rest = true := by
      simpa [reaches] using h
    exact holds_of_isDir hboth.1

/-- A way leads to something if something stands at its end and if it steps back from directories
only. -/
theorem reaches_iff (ht : t.Grounded) (place : Location) (names : List String) :
    t.reaches place names = true ↔
      t.holds (names.foldl Path.stepFrom place) = true ∧
        ∀ before after, names = before ++ ".." :: after →
          t.isDir (before.foldl Path.stepFrom place) = true := by
  induction names generalizing place with
  | nil => simp [reaches]
  | cons name rest ih =>
    have hsplit : (∀ before after, name :: rest = before ++ ".." :: after →
          t.isDir (before.foldl Path.stepFrom place) = true) ↔
        (name = ".." → t.isDir place = true) ∧
          ∀ before after, rest = before ++ ".." :: after →
            t.isDir (before.foldl Path.stepFrom (Path.stepFrom place name)) = true := by
      constructor
      · intro h
        refine ⟨fun hback => h [] rest (by rw [hback]; rfl), fun before after hrest => ?_⟩
        exact h (name :: before) after (by rw [hrest]; rfl)
      · rintro ⟨hback, h⟩ before after hnames
        cases before with
        | nil => exact hback (List.cons.inj hnames).1
        | cons first before =>
          obtain ⟨rfl, hrest⟩ := List.cons.inj hnames
          exact h before after hrest
    have hstep : t.reaches place (name :: rest) = true ↔
        t.isDir place = true ∧ t.reaches (Path.stepFrom place name) rest = true := by
      rw [reaches, Bool.and_eq_true]
    rw [hstep, hsplit, List.foldl_cons]
    constructor
    · rintro ⟨hdir, hrest⟩
      obtain ⟨hholds, hback⟩ := (ih _).mp hrest
      exact ⟨hholds, fun _ => hdir, hback⟩
    · rintro ⟨hholds, hfirst, hback⟩
      have hrest : t.reaches (Path.stepFrom place name) rest = true := (ih _).mpr ⟨hholds, hback⟩
      refine ⟨?_, hrest⟩
      by_cases hname : name = ".."
      · exact hfirst hname
      · -- the next name stands in the directory
        have hnext : t.holds (place ++ [name]) = true := by
          have hholds' := holds_of_reaches hrest
          rwa [Path.stepFrom, if_neg hname] at hholds'
        exact ht place name hnext

/-- A path leads to something if something stands at the place that it names and if it steps back
from directories only. -/
theorem finds_iff (ht : t.Grounded) (base : Location) (p : Path) :
    t.finds base p = true ↔
      t.holds (p.resolve base) = true ∧
        ∀ before after, p.parts = before ++ ".." :: after →
          t.isDir (Path.resolve base { p with parts := before }) = true :=
  reaches_iff ht _ p.parts

end FileTree

end CiRunner
