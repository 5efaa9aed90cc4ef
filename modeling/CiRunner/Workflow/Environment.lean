/-!
# Environments

Variables and their texts, in the order in which the names first appeared.  Writing a variable that
is present replaces its text in place.
-/

namespace CiRunner

/-- Variables with their texts. -/
abbrev Environment := List (String × String)

namespace Environment

/-- Writes a variable. -/
def set (env : Environment) (name value : String) : Environment :=
  match env with
  | [] => [(name, value)]
  | (n, v) :: rest => if n = name then (n, value) :: rest else (n, v) :: set rest name value

/-- Writes all variables of another environment over this one. -/
def update (env later : Environment) : Environment :=
  later.foldl (fun acc e => acc.set e.1 e.2) env

/-- The text of a variable. -/
def value? (env : Environment) (name : String) : Option String :=
  (env.find? fun e => e.1 == name).map (·.2)

/-- The names of the variables. -/
def names (env : Environment) : List String := env.map (·.1)

/-- The environment that a list of settings writes, from the first to the last. -/
def ofList (settings : List (String × String)) : Environment :=
  update [] settings

/-- A variable that was just written has the new text, all others are as before. -/
theorem value?_set (env : Environment) (name value other : String) :
    (env.set name value).value? other = if name = other then some value else env.value? other := by
  induction env with
  | nil => by_cases h : name = other <;> simp [set, value?, h]
  | cons e rest ih =>
    obtain ⟨n, v⟩ := e
    by_cases hn : n = name
    · subst hn
      by_cases h : n = other <;> simp [set, value?, h]
    · by_cases h : n = other
      · subst h
        simp [set, value?, hn, Ne.symm hn]
      · simp only [value?] at ih
        simp [set, value?, hn, h, ih]

/-- Writing a variable keeps the names distinct. -/
theorem nodup_names_set {env : Environment} (h : env.names.Nodup) (name value : String) :
    (env.set name value).names.Nodup ∧
      ∀ n, n ∈ (env.set name value).names ↔ n = name ∨ n ∈ env.names := by
  induction env with
  | nil => simp [set, names]
  | cons e rest ih =>
    obtain ⟨n, v⟩ := e
    simp only [names, List.map_cons, List.nodup_cons] at h
    obtain ⟨h1, h2⟩ := ih h.2
    by_cases hn : n = name
    · subst hn
      refine ⟨by simpa [set, names] using h, fun m => by simp [set, names]⟩
    · simp only [names] at h1 h2
      refine ⟨?_, fun m => ?_⟩
      · simp only [set, hn, if_false, names, List.map_cons, List.nodup_cons]
        exact ⟨fun hm => ((h2 n).1 hm).elim hn h.1, h1⟩
      · simp only [set, hn, if_false, names, List.map_cons, List.mem_cons]
        rw [h2 m]
        exact or_left_comm

end Environment

end CiRunner
