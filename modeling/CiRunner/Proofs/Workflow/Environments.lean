import CiRunner.Workflow.Environment
import Mathlib

/-!
# Environments written setting by setting

Settings are written into an environment from the first to the last.  The text of a variable is then
the one that it was given last, and the variables stand in the order in which they were named first.
-/

namespace CiRunner

namespace Environment

/-! ## Updated environments -/

/-- A variable has its value from the environment that was written last, if it is there. -/
lemma value?_update (env later : Environment) (name : String) :
    (env.update later).value? name = ((ofList later).value? name).or (env.value? name) := by
  induction later generalizing env with
  | nil => rfl
  | cons setting rest ih =>
    obtain ⟨written, value⟩ := setting
    have hupdate : ∀ env : Environment,
        env.update ((written, value) :: rest) = (env.set written value).update rest := fun _ => rfl
    rw [ofList, hupdate, hupdate, ih, ih, value?_set, value?_set, Option.or_assoc]
    split <;> rfl

/-- An update keeps the names distinct. -/
lemma nodup_names_update {env : Environment} (h : env.names.Nodup) (later : Environment) :
    (env.update later).names.Nodup := by
  induction later generalizing env with
  | nil => exact h
  | cons setting rest ih => exact ih (nodup_names_set h setting.1 setting.2).1

/-- Settings with distinct names are written as they are. -/
lemma value?_ofList {settings : List (String × String)} (h : (names settings).Nodup)
    (name : String) : (ofList settings).value? name = value? settings name := by
  induction settings with
  | nil => rfl
  | cons setting rest ih =>
    obtain ⟨written, value⟩ := setting
    obtain ⟨hnot, hrest⟩ := List.nodup_cons.mp h
    have hset := value?_update (set [] written value) rest name
    rw [value?_set, ih hrest] at hset
    refine hset.trans ?_
    by_cases hname : written = name
    · subst hname
      have hnone : value? rest written = none := by
        rw [value?, Option.map_eq_none_iff, List.find?_eq_none]
        intro entry hentry heq
        exact hnot (List.mem_map.mpr ⟨entry, hentry, by simpa using heq⟩)
      rw [hnone, if_pos rfl]
      simp [value?]
    · rw [if_neg hname]
      simp [value?, hname]

/-! ## Lists of settings -/

/-- One more setting is written last. -/
lemma ofList_concat (settings : List (String × String)) (name value : String) :
    ofList (settings ++ [(name, value)]) = (ofList settings).set name value := by
  rw [ofList, update, List.foldl_append]
  rfl

/-- Writing a variable keeps the order of the names; a new name comes last. -/
lemma names_set (env : Environment) (name value : String) :
    (env.set name value).names = if name ∈ env.names then env.names else env.names ++ [name] := by
  induction env with
  | nil => rfl
  | cons entry rest ih =>
    obtain ⟨n, v⟩ := entry
    by_cases hn : n = name
    · subst hn
      simp [set, names]
    · have hmem : name ∈ names ((n, v) :: rest) ↔ name ∈ names rest := by
        simp [names, Ne.symm hn]
      have hset : names (set ((n, v) :: rest) name value) = n :: names (set rest name value) := by
        simp [set, hn, names]
      rw [hset, ih]
      simp only [hmem]
      split
      · rfl
      · rfl

/-- The variables that settings write stand in the order in which they are named first. -/
theorem names_ofList (settings : List (String × String)) :
    (ofList settings).names = (settings.map (·.1)).eraseDups := by
  induction settings using List.reverseRecOn with
  | nil => rfl
  | append_singleton settings setting ih =>
    obtain ⟨name, value⟩ := setting
    rw [ofList_concat, names_set, ih, List.map_append, List.eraseDups_append]
    by_cases hname : name ∈ settings.map (·.1)
    · rw [if_pos (List.mem_eraseDups.mpr hname)]
      have hnone : List.removeAll [name] (settings.map (·.1)) = [] := by
        simpa [List.removeAll] using hname
      simp only [List.map_cons, List.map_nil, hnone]
      exact (List.append_nil _).symm
    · rw [if_neg (mt List.mem_eraseDups.mp hname)]
      have hnew : List.removeAll [name] (settings.map (·.1)) = [name] := by
        simpa [List.removeAll] using hname
      simp only [List.map_cons, List.map_nil, hnew]
      rfl

/-- A variable that settings write has the text it is given last. -/
theorem value?_ofList_eq_lookup (settings : List (String × String)) (name : String) :
    (ofList settings).value? name = settings.reverse.lookup name := by
  induction settings using List.reverseRecOn with
  | nil => rfl
  | append_singleton settings setting ih =>
    obtain ⟨written, value⟩ := setting
    rw [ofList_concat, value?_set, List.reverse_concat, List.lookup_cons, ih]
    by_cases hname : written = name
    · subst hname
      simp
    · have hne : (name == written) = false := by
        simpa using Ne.symm hname
      rw [if_neg hname, hne]

/-- A variable that no setting names is not there. -/
lemma value?_ofList_eq_none {settings : List (String × String)} {name : String}
    (h : name ∉ names settings) : (ofList settings).value? name = none := by
  rw [value?_ofList_eq_lookup, List.lookup_eq_none_iff]
  intro setting hsetting
  have hmem : setting.1 ∈ names settings :=
    List.mem_map_of_mem (List.mem_reverse.mp hsetting)
  exact bne_iff_ne.mpr fun heq => h (heq ▸ hmem)

end Environment

end CiRunner
