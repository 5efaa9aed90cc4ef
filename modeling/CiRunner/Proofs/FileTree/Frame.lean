import CiRunner.FileTree.Tree
import Mathlib

/-!
# What changes leave alone

Relations say how little a file tree was changed: not at all, in nothing but what lies in one
directory, or in nothing but directories made on the way to a place.  All are kept when one change
follows another.
-/

namespace CiRunner

namespace FileTree

/-! ## No changes -/

/-- The same stands at every place. -/
def Same (t t' : FileTree) : Prop := ∀ p, t'.get? p = t.get? p

instance : IsPreorder FileTree Same where
  refl _ _ := rfl
  trans _ _ _ h h' p := (h' p).trans (h p)

/-- A relation that is only promised under a condition. -/
def Given (P : Prop) (T : FileTree → FileTree → Prop) (t t' : FileTree) : Prop := P → T t t'

instance (P : Prop) (T : FileTree → FileTree → Prop) [IsPreorder FileTree T] :
    IsPreorder FileTree (Given P T) where
  refl t _ := Std.Refl.refl t
  trans _ _ _ h h' hP := trans_of T (h hP) (h' hP)

/-! ## Changes in one directory -/

/-- The same stands at every place outside a directory. -/
def SameOutside (directory : Location) (t t' : FileTree) : Prop :=
  ∀ p, ¬directory <+: p → t'.get? p = t.get? p

instance (directory : Location) : IsPreorder FileTree (SameOutside directory) where
  refl _ _ _ := rfl
  trans _ _ _ h h' p hp := (h' p hp).trans (h p hp)

/-- What lies outside a directory lies outside those in it. -/
lemma SameOutside.mono {directory inner : Location} (hinner : directory <+: inner)
    {t t' : FileTree} (h : SameOutside inner t t') : SameOutside directory t t' :=
  fun p hp => h p fun hp' => hp (hinner.trans hp')

/-- Putting something in a directory leaves alone what is outside. -/
lemma sameOutside_put {directory place : Location} (h : directory <+: place) (hplace : place ≠ [])
    (t : FileTree) (e : FileEntry) : SameOutside directory t (t.put place e) := by
  intro p hp
  rw [get?_put t hplace, if_neg]
  rintro rfl
  exact hp h

/-- Removing a directory leaves alone what is outside. -/
lemma sameOutside_remove {directory : Location} (h : directory ≠ []) (t : FileTree) :
    SameOutside directory t (t.remove directory) := by
  intro p hp
  rw [get?_remove t h, if_neg]
  rwa [List.isPrefixOf_iff_prefix]

/-- Nothing is left of a directory that was removed. -/
lemma get?_remove_of_prefix {directory p : Location} (h : directory ≠ []) (hp : directory <+: p)
    (t : FileTree) : (t.remove directory).get? p = none := by
  rw [get?_remove t h, if_pos (List.isPrefixOf_iff_prefix.mpr hp)]

/-- Nothing is found in a place that is free. -/
lemma get?_eq_none_of_isFree {t : FileTree} {place p : Location} (hfree : t.isFree place = true)
    (hplace : place ≠ []) (hp : place <+: p) : t.get? p = none := by
  have hne : p ≠ [] := by
    rintro rfl
    exact hplace (List.prefix_nil.mp hp)
  rw [get?, if_neg (by simpa using hne), List.lookup_eq_none_iff]
  intro e he
  have hentry := List.all_eq_true.mp hfree e he
  rw [Bool.not_eq_true', Bool.eq_false_iff, ne_eq, List.isPrefixOf_iff_prefix] at hentry
  rw [bne_iff_ne]
  rintro rfl
  exact hentry hp

/-- In a place that is not free some entry stands. -/
lemma exists_entry_of_not_isFree {t : FileTree} {place : Location} (h : ¬t.isFree place = true) :
    ∃ e ∈ t.entries, place <+: e.1 := by
  by_contra hnone
  push Not at hnone
  refine h (List.all_eq_true.mpr fun e he => ?_)
  rw [Bool.not_eq_true', Bool.eq_false_iff, ne_eq, List.isPrefixOf_iff_prefix]
  exact hnone e he

/-! ## Directories on the way to a place -/

/-- The same stands at every place, but some directories on the way to a place were made. -/
def MadeTowards (place : Location) (t t' : FileTree) : Prop :=
  ∀ p, t'.get? p = t.get? p ∨
    (p <+: place ∧ t.get? p = none ∧ t'.get? p = some .directory)

instance (place : Location) : IsPreorder FileTree (MadeTowards place) where
  refl _ _ := Or.inl rfl
  trans t t' t'' h h' p := by
    rcases h p with hsame | ⟨hp, hnone, hmade⟩
    · rcases h' p with hsame' | ⟨hp, hnone, hmade⟩
      · exact Or.inl (hsame'.trans hsame)
      · exact Or.inr ⟨hp, hsame.symm.trans hnone, hmade⟩
    · rcases h' p with hsame' | ⟨-, hnone', -⟩
      · exact Or.inr ⟨hp, hnone, hsame'.trans hmade⟩
      · rw [hnone'] at hmade
        cases hmade

/-- Making a directory where it is missing. -/
lemma madeTowards_ensure {place q : Location} (hq : q <+: place) (t : FileTree) :
    MadeTowards place t (t.ensure q) := by
  intro p
  by_cases hholds : t.holds q = true
  · rw [ensure, if_pos hholds]
    exact Or.inl rfl
  have hnone : t.get? q = none := by
    simpa [holds] using hholds
  have hne : q ≠ [] := by
    rintro rfl
    cases hnone
  rw [ensure, if_neg hholds, get?_put t hne]
  by_cases hp : p = q
  · subst hp
    exact Or.inr ⟨hq, hnone, if_pos rfl⟩
  · exact Or.inl (if_neg hp)

/-- Making all directories on the way to a place. -/
lemma madeTowards_ensureAll (t : FileTree) (place : Location) :
    MadeTowards place t (t.ensureAll place) := by
  have hfold : ∀ (way : List Location) (t : FileTree), (∀ q ∈ way, q <+: place) →
      MadeTowards place t (way.foldl ensure t) := by
    intro way
    induction way with
    | nil => exact fun t _ => Std.Refl.refl t
    | cons q rest ih =>
      intro t hway
      obtain ⟨hq, hrest⟩ := List.forall_mem_cons.mp hway
      exact trans_of (MadeTowards place) (madeTowards_ensure hq t) (ih _ hrest)
  refine hfold _ t fun q hq => ?_
  obtain ⟨n, -, rfl⟩ := List.mem_map.mp hq
  exact List.take_prefix ..

/-- Making a directory only makes directories on the way to it. -/
lemma madeTowards_makeDirs {t t' : FileTree} {place : Location}
    (h : t.makeDirs place = .ok t') : MadeTowards place t t' := by
  unfold makeDirs at h
  split at h
  · cases h
    exact Std.Refl.refl t
  split at h
  · cases h
  split at h
  · cases h
  · cases h
    exact madeTowards_ensureAll t place

end FileTree

end CiRunner
