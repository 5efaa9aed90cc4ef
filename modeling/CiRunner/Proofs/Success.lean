/-!
# What a success tells

A computation that may fail is a chain of parts.  It comes to a value exactly if each of its parts
does, so a success tells what every part came to.
-/

namespace CiRunner.Success

variable {ε α β : Type}

/-- A chain comes to a value exactly if its first part does, and the rest after it. -/
@[simp] theorem bind_eq_ok_iff {m : Except ε α} {f : α → Except ε β} {b : β} :
    m >>= f = .ok b ↔ ∃ a, m = .ok a ∧ f a = .ok b := by
  cases m <;> simp [bind, Except.bind]

/-- A chain comes to a value exactly if its first part does, and the rest after it. -/
theorem exists_bind_eq_ok_iff {m : Except ε α} {f : α → Except ε β} :
    (∃ b, m >>= f = .ok b) ↔ ∃ a, m = .ok a ∧ ∃ b, f a = .ok b := by
  cases m <;> simp [bind, Except.bind]

/-- A chain fails exactly if its first part does, or the rest after it. -/
theorem bind_eq_error_iff {m : Except ε α} {f : α → Except ε β} {e : ε} :
    m >>= f = .error e ↔ m = .error e ∨ ∃ a, m = .ok a ∧ f a = .error e := by
  cases m <;> simp [bind, Except.bind]

/-- A computation comes to a value if it is found to come to one of some kind. -/
theorem exists_eq_ok_of_any {m : Except ε α} {p : α → Bool} (h : m.toOption.any p = true) :
    ∃ a, m = .ok a ∧ p a = true := by
  cases m with
  | error e => cases h
  | ok a => exact ⟨a, rfl, h⟩

/-- A value comes to itself. -/
@[simp] theorem pure_eq_ok_iff {a b : α} : (pure a : Except ε α) = .ok b ↔ a = b := by
  simp [pure, Except.pure]

/-- A value is no failure. -/
theorem pure_ne_error {a : α} {e : ε} : (pure a : Except ε α) ≠ .error e := nofun

/-- What is made of a value is made of one that was come to. -/
theorem map_eq_ok_iff {m : Except ε α} {f : α → β} {b : β} :
    m.map f = .ok b ↔ ∃ a, m = .ok a ∧ f a = b := by
  cases m <;> simp [Except.map]

end CiRunner.Success
