import CiRunner.FileTree.Path
import Mathlib

/-!
# Places and their texts

A place is written as a text when it is handed to another program, and read again from there.  The
text leads back to the place as long as no name of it is empty, stands for a directory itself, or
has a slash.  Reading and resolving paths only gives such places.
-/

namespace CiRunner

open CiRunner.Text

/-! ## Cutting a text at a separator -/

/-- Cutting at a separator is what the library calls splitting. -/
lemma splitAtChar_eq (sep : Char) (piece s : List Char) :
    splitAtChar sep piece s = List.splitOnPPrepend (· == sep) s piece := by
  induction s generalizing piece with
  | nil => rfl
  | cons c rest ih =>
    have hnil : splitAtChar sep [] rest = List.splitOnP (· == sep) rest := ih []
    by_cases hc : c = sep
    · rw [splitAtChar, if_pos hc, List.splitOnPPrepend_cons_pos (by simpa using hc), hnil]
    · rw [splitAtChar, if_neg hc, List.splitOnPPrepend_cons_neg (by simpa using hc), ih]

/-- No piece of a text that is cut has the separator. -/
lemma not_mem_of_mem_splitAtChar {sep : Char} {piece s x : List Char} (hpiece : sep ∉ piece)
    (hx : x ∈ splitAtChar sep piece s) : sep ∉ x := by
  induction s generalizing piece with
  | nil =>
    rw [List.mem_singleton.mp hx, List.mem_reverse]
    exact hpiece
  | cons c rest ih =>
    rw [splitAtChar] at hx
    split at hx
    · rcases List.mem_cons.mp hx with rfl | hx
      · rw [List.mem_reverse]
        exact hpiece
      · exact ih List.not_mem_nil hx
    · rename_i hc
      exact ih (List.not_mem_cons_of_ne_of_not_mem (Ne.symm hc) hpiece) hx

/-! ## Proper names -/

/-- Whether a name can stand on the way to a place. -/
def isProperName (n : String) : Bool :=
  n != "" && n != "." && n != ".." && !n.toList.contains '/'

/-- A place whose names are all proper, as every absolute path without full stops. -/
def Location.Proper (l : Location) : Prop := ∀ n ∈ l, isProperName n = true

instance (l : Location) : Decidable l.Proper :=
  inferInstanceAs (Decidable (∀ n ∈ l, isProperName n = true))

lemma isProperName_iff {n : String} :
    isProperName n = true ↔ n ≠ "" ∧ n ≠ "." ∧ n ≠ ".." ∧ '/' ∉ n.toList := by
  simp [isProperName, and_assoc]

/-- One more name after a proper place. -/
lemma Location.Proper.concat {l : Location} (h : l.Proper) {n : String}
    (hn : isProperName n = true) : Proper (l ++ [n]) := by
  intro m hm
  rcases List.mem_append.mp hm with hm | hm
  · exact h m hm
  · rw [List.mem_singleton.mp hm]
    exact hn

namespace Path

/-- The names of a path that is read are proper, or lead back. -/
lemma proper_of_mem_names {s n : String} (h : n ∈ names s) (hback : n ≠ "..") :
    isProperName n = true := by
  obtain ⟨hmem, hname⟩ := List.mem_filter.mp h
  obtain ⟨piece, hpiece, rfl⟩ := List.mem_map.mp hmem
  simp only [Bool.and_eq_true, bne_iff_ne] at hname
  refine isProperName_iff.mpr ⟨hname.1, hname.2, hback, ?_⟩
  rw [String.toList_ofList]
  exact not_mem_of_mem_splitAtChar List.not_mem_nil hpiece

/-- A name that is proper or leads back leads from a proper place to a proper one. -/
lemma proper_stepFrom {l : Location} (h : l.Proper) {n : String}
    (hn : n ≠ ".." → isProperName n = true) : (stepFrom l n).Proper := by
  unfold stepFrom
  split
  · exact fun m hm => h m (List.dropLast_subset l hm)
  · rename_i hback
    exact h.concat (hn hback)

/-- A path that was read leads from a proper place to a proper one. -/
lemma proper_resolve {base : Location} (h : base.Proper) {p : Path}
    (hp : ∀ n ∈ p.parts, n ≠ ".." → isProperName n = true) : (p.resolve base).Proper := by
  have hfold : ∀ (parts : List String) (l : Location), l.Proper →
      (∀ n ∈ parts, n ≠ ".." → isProperName n = true) → (parts.foldl stepFrom l).Proper := by
    intro parts
    induction parts with
    | nil => exact fun l hl _ => hl
    | cons n rest ih =>
      intro l hl hparts
      obtain ⟨hn, hrest⟩ := List.forall_mem_cons.mp hparts
      exact ih _ (proper_stepFrom hl hn) hrest
  refine hfold _ _ ?_ hp
  split
  · exact fun n hn => absurd hn List.not_mem_nil
  · exact h

/-- Putting a home directory in place of a tilde keeps names proper. -/
lemma proper_expandHome? {home : Option String} {users : Users} {s : String} {p : Path}
    (h : expandHome? home users (ofText s) = some p) :
    ∀ n ∈ p.parts, n ≠ ".." → isProperName n = true := by
  have hread : ∀ (t : String), ∀ n ∈ (ofText t).parts, n ≠ ".." → isProperName n = true :=
    fun t n hn => proper_of_mem_names hn
  unfold expandHome? at h
  split at h
  · rename_i first rest habsolute hparts
    have hs := hread s
    rw [hparts] at hs
    obtain ⟨-, hrest⟩ := List.forall_mem_cons.mp hs
    split at h
    · split at h
      · cases h
      · split at h
        · cases h
        · obtain rfl := Option.some.inj h
          intro n hn
          rcases List.mem_append.mp hn with hn | hn
          · exact hread _ n hn
          · exact hrest n hn
    · cases h
      exact hread s
  · cases h
    exact hread s

/-! ## Texts of places -/

/-- The text of a proper place is read as its names. -/
lemma ofText_text {l : Location} (h : l.Proper) : ofText l.text = ⟨true, l⟩ := by
  have htext : l.text.toList = '/' :: List.intercalate ['/'] (l.map String.toList) := by
    simp [Location.text, Text.join, String.toList_intercalate]
  have hcut : splitAtChar '/' [] l.text.toList =
      [] :: (List.intercalate ['/'] (l.map String.toList)).splitOn '/' := by
    rw [htext, splitAtChar_eq, List.splitOnPPrepend_cons_pos (by simp)]
    rfl
  have hkeep : l.filter (fun n => n != "" && n != ".") = l := by
    refine List.filter_eq_self.mpr fun n hn => ?_
    have hproper := isProperName_iff.mp (h n hn)
    simp [hproper.1, hproper.2.1]
  have hnames : names l.text = l := by
    rw [names, hcut]
    by_cases hl : l = []
    · subst hl
      rfl
    · have hslash : ∀ x ∈ l.map String.toList, '/' ∉ x := by
        intro x hx
        obtain ⟨n, hn, rfl⟩ := List.mem_map.mp hx
        exact (isProperName_iff.mp (h n hn)).2.2.2
      rw [List.splitOn_intercalate '/' hslash (by simpa using hl)]
      simpa [Function.comp_def] using hkeep
  rw [ofText, hnames, htext]
  rfl

/-- The text of a proper place leads back to it from everywhere. -/
theorem resolve_ofText_text {l : Location} (h : l.Proper) (base : Location) :
    (ofText l.text).resolve base = l := by
  have hfold : ∀ (rest l : Location), rest.Proper → rest.foldl stepFrom l = l ++ rest := by
    intro rest
    induction rest with
    | nil => exact fun l _ => (List.append_nil l).symm
    | cons n rest ih =>
      intro l hrest
      obtain ⟨hn, hrest⟩ := List.forall_mem_cons.mp hrest
      have hstep : stepFrom l n = l ++ [n] := if_neg (isProperName_iff.mp hn).2.2.1
      rw [List.foldl_cons, hstep, ih _ hrest, List.append_assoc, List.singleton_append]
  rw [ofText_text h]
  exact hfold l [] h

end Path

end CiRunner
