import Mathlib.Data.List.Basic

/-!
# What a search comes to

A list is gone through from its first item on, up to the first that stops the search.  What comes
after that item plays no part.
-/

namespace CiRunner

/-- A search through a list comes to an item: it is not stopped before. -/
def Reaches {α : Type} (stops : α → Prop) (items : List α) (x : α) : Prop :=
  ∃ before after, items = before ++ x :: after ∧ ∀ y ∈ before, ¬stops y

variable {α : Type} {stops : α → Prop} {x : α} {rest : List α}

lemma not_reaches_nil (y : α) : ¬Reaches stops [] y := by
  rintro ⟨before, after, heq, -⟩
  simp at heq

/-- A search comes to the first item, and beyond it if that does not stop it. -/
lemma reaches_cons {y : α} :
    Reaches stops (x :: rest) y ↔ y = x ∨ ¬stops x ∧ Reaches stops rest y := by
  constructor
  · rintro ⟨before, after, heq, hbefore⟩
    cases before with
    | nil => exact Or.inl (List.cons_eq_cons.mp heq).1.symm
    | cons first before =>
      obtain ⟨rfl, hrest⟩ := List.cons_eq_cons.mp heq
      obtain ⟨hfirst, hbefore⟩ := List.forall_mem_cons.mp hbefore
      exact Or.inr ⟨hfirst, before, after, hrest, hbefore⟩
  · rintro (rfl | ⟨hx, before, after, rfl, hbefore⟩)
    · exact ⟨[], rest, rfl, by simp⟩
    · exact ⟨x :: before, after, rfl, List.forall_mem_cons.mpr ⟨hx, hbefore⟩⟩

/-- What holds of all items that a search comes to. -/
lemma forall_reaches_cons {p : α → Prop} :
    (∀ y, Reaches stops (x :: rest) y → p y) ↔
      p x ∧ (¬stops x → ∀ y, Reaches stops rest y → p y) := by
  simp only [reaches_cons, or_imp, forall_and, forall_eq, and_imp]
  exact and_congr_right fun _ => ⟨fun h hx y hy => h y hx hy, fun h y hx hy => h hx y hy⟩

/-- What holds of one of the items that a search comes to. -/
lemma exists_reaches_cons {p : α → Prop} :
    (∃ y, Reaches stops (x :: rest) y ∧ p y) ↔
      p x ∨ ¬stops x ∧ ∃ y, Reaches stops rest y ∧ p y := by
  simp only [reaches_cons, or_and_right, exists_or, exists_eq_left, and_assoc, exists_and_left]

end CiRunner
