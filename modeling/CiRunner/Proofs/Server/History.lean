import CiRunner.Server.History
import Mathlib

/-!
# What a history keeps

The names of the runs of a history are its keys.  This file says, for each operation of a history,
which names are there afterwards and which record stands under each of them, so that later files
look at a history through its names and through `RunHistory.get?` only.

Adding a record under a new name appends it and drops runs from the other end: what is left are the
last runs, as many as the history may hold.  Dropping runs one by one or all at once comes to the
same (`RunHistory.trim_trim_append`).
-/

namespace CiRunner

namespace RunHistory

/-- The names of the runs, oldest first. -/
def names (h : RunHistory) : List String := h.runs.map RunRecord.runId

lemma mem_names {h : RunHistory} {id : String} : id ∈ h.names ↔ ∃ r ∈ h.runs, r.runId = id :=
  List.mem_map

/-! ## Looking up a run -/

/-- What is found under a name has that name. -/
lemma runId_of_get? {h : RunHistory} {id : String} {r : RunRecord} (hr : h.get? id = some r) :
    r.runId = id := by
  simpa using List.find?_some hr

/-- Nothing is found under a name exactly if no run has it. -/
lemma get?_eq_none_iff {h : RunHistory} {id : String} : h.get? id = none ↔ id ∉ h.names := by
  rw [get?, List.find?_eq_none, mem_names]
  simp

/-- If every run has a name of its own, a run is found under its name. -/
lemma get?_eq_some_iff {h : RunHistory} (hnodup : h.names.Nodup) {id : String} {r : RunRecord} :
    h.get? id = some r ↔ r ∈ h.runs ∧ r.runId = id := by
  refine ⟨fun hr => ⟨List.mem_of_find?_eq_some hr, runId_of_get? hr⟩, ?_⟩
  rintro ⟨hr, rfl⟩
  cases hfound : h.get? r.runId with
  | none => exact absurd (mem_names.mpr ⟨r, hr, rfl⟩) (get?_eq_none_iff.mp hfound)
  | some s =>
    have hs : s ∈ h.runs := List.mem_of_find?_eq_some hfound
    -- what was found has the same name, so it is the same run
    rw [List.inj_on_of_nodup_map hnodup hs hr (runId_of_get? hfound)]

/-- The runs are what is found under their names. -/
lemma runs_eq_filterMap {h : RunHistory} (hnodup : h.names.Nodup) :
    h.runs = h.names.filterMap h.get? := by
  have hfound : ∀ r ∈ h.runs, h.get? r.runId = some r :=
    fun r hr => (get?_eq_some_iff hnodup).mpr ⟨hr, rfl⟩
  calc h.runs = h.runs.filterMap some := (List.filterMap_some ..).symm
    _ = h.runs.filterMap fun r => h.get? r.runId :=
        List.filterMap_congr fun r hr => (hfound r hr).symm
    _ = h.names.filterMap h.get? := by rw [names, List.filterMap_map]; rfl

/-! ## Adding a run -/

/-- A record under a new name comes last. -/
lemma place_of_not_mem {r : RunRecord} {runs : List RunRecord}
    (h : r.runId ∉ runs.map RunRecord.runId) : place r runs = runs ++ [r] := by
  induction runs with
  | nil => rfl
  | cons s rest ih =>
    rw [List.map_cons, List.mem_cons, not_or] at h
    rw [place, if_neg (Ne.symm h.1), ih h.2, List.cons_append]

/-- A record under a name that is there takes over the place of the run that has it. -/
lemma map_runId_place_of_mem {r : RunRecord} {runs : List RunRecord}
    (h : r.runId ∈ runs.map RunRecord.runId) :
    (place r runs).map RunRecord.runId = runs.map RunRecord.runId := by
  induction runs with
  | nil => simp at h
  | cons s rest ih =>
    by_cases hs : s.runId = r.runId
    · rw [place, if_pos hs, List.map_cons, List.map_cons, hs]
    · rw [List.map_cons, List.mem_cons] at h
      rw [place, if_neg hs, List.map_cons, List.map_cons, ih (h.resolve_left (Ne.symm hs))]

/-- A record that is put among runs is found under its name, and the others as before. -/
lemma find?_place (r : RunRecord) (runs : List RunRecord) (id : String) :
    (place r runs).find? (fun s => s.runId == id) =
      if id = r.runId then some r else runs.find? fun s => s.runId == id := by
  induction runs with
  | nil =>
    by_cases hid : id = r.runId
    · simp [place, hid]
    · simp [place, hid, Ne.symm hid]
  | cons s rest ih =>
    by_cases hs : s.runId = r.runId
    · rw [place, if_pos hs]
      by_cases hid : id = r.runId
      · simp [hid]
      · simp [hid, hs, Ne.symm hid]
    · rw [place, if_neg hs, List.find?_cons, List.find?_cons]
      by_cases hid : s.runId = id
      · simp [hid, show ¬id = r.runId from hid ▸ hs]
      · simp [show (s.runId == id) = false from by simpa using hid, ih]

/-- Runs that are not too many are all kept. -/
lemma trim_of_length_le {size : ℤ} {runs : List RunRecord} (h : runs.length ≤ size.toNat) :
    trim size runs = runs := by
  rw [trim, Nat.sub_eq_zero_of_le h, List.drop_zero]

/-- No more runs are left than a history may hold. -/
lemma length_trim_le (size : ℤ) (runs : List RunRecord) :
    (trim size runs).length ≤ size.toNat := by
  rw [trim, List.length_drop]
  omega

/-- The runs that are left are the last ones. -/
lemma trim_suffix (size : ℤ) (runs : List RunRecord) : trim size runs <:+ runs :=
  List.drop_suffix ..

/-- The runs that are left, read from the newest on, are the first ones. -/
lemma reverse_trim (size : ℤ) (runs : List RunRecord) :
    (trim size runs).reverse = runs.reverse.take size.toNat := by
  rw [trim, List.take_reverse]

/-- Dropping runs before others are appended makes no difference to what is left in the end. -/
lemma trim_trim_append (size : ℤ) (runs more : List RunRecord) :
    trim size (trim size runs ++ more) = trim size (runs ++ more) := by
  -- read from the newest on, what is left is a beginning, and beginnings of beginnings are simple
  refine List.reverse_injective ?_
  rw [reverse_trim, reverse_trim, List.reverse_append, List.reverse_append, reverse_trim,
    List.take_append, List.take_append, List.take_take, Nat.min_eq_left (Nat.sub_le ..)]

/-! ## What an operation does to names and records -/

/-- A history with one more record, before runs are dropped. -/
def put (h : RunHistory) (r : RunRecord) : RunHistory := { h with runs := place r h.runs }

/-- A history after the oldest runs were dropped. -/
def trimmed (h : RunHistory) : RunHistory := { h with runs := trim h.size h.runs }

/-- Adding a run puts its record into the history and drops the oldest ones. -/
lemma add_eq (h : RunHistory) (r : RunRecord) :
    h.add r = (decide (0 ≤ h.size), (h.put r).trimmed) := rfl

lemma size_add (h : RunHistory) (r : RunRecord) : (h.add r).2.size = h.size := rfl

variable (h : RunHistory)

/-- A record keeps the place of the run that has its name, or comes last. -/
lemma names_put (r : RunRecord) :
    (h.put r).names = if r.runId ∈ h.names then h.names else h.names ++ [r.runId] := by
  split
  · exact map_runId_place_of_mem ‹_›
  · rw [names, put, place_of_not_mem ‹_›, List.map_append]
    rfl

/-- A record is found under its name, and the others as before. -/
lemma get?_put (r : RunRecord) (id : String) :
    (h.put r).get? id = if id = r.runId then some r else h.get? id :=
  find?_place r h.runs id

/-- Putting a record into a history keeps its names different. -/
lemma nodup_names_put (hnodup : h.names.Nodup) (r : RunRecord) : (h.put r).names.Nodup := by
  rw [names_put]
  split
  · exact hnodup
  · exact List.nodup_append_comm.mp (List.nodup_cons.mpr ⟨‹_›, hnodup⟩)

/-- The names that are left are the last ones. -/
lemma names_trimmed : h.trimmed.names = h.names.drop (h.names.length - h.size.toNat) := by
  rw [names, names, trimmed, trim, List.map_drop, List.length_map]

/-- What is left of a history is found as before, and nothing else is. -/
lemma get?_trimmed (hnodup : h.names.Nodup) (id : String) :
    h.trimmed.get? id = if id ∈ h.trimmed.names then h.get? id else none := by
  have hsublist : h.trimmed.runs.Sublist h.runs := (trim_suffix ..).sublist
  split
  · -- the run of this name is left, and it is the only one of this name before and after
    obtain ⟨r, hr, hid⟩ := mem_names.mp ‹_›
    rw [(get?_eq_some_iff ((hsublist.map _).nodup hnodup)).mpr ⟨hr, hid⟩,
      (get?_eq_some_iff hnodup).mpr ⟨hsublist.subset hr, hid⟩]
  · exact get?_eq_none_iff.mpr ‹_›

/-- After a run was added, every run still has a name of its own. -/
lemma nodup_names_add (hnodup : h.names.Nodup) (r : RunRecord) : (h.add r).2.names.Nodup := by
  rw [add_eq, names_trimmed]
  exact (h.nodup_names_put hnodup r).sublist (List.drop_sublist ..)

/-- After a run was added, a name is that of the run, or is looked up as before, or was dropped. -/
lemma get?_add (hnodup : h.names.Nodup) (r : RunRecord) (id : String) :
    (h.add r).2.get? id =
      if id ∈ (h.add r).2.names then if id = r.runId then some r else h.get? id else none := by
  rw [add_eq, get?_trimmed _ (h.nodup_names_put hnodup r), get?_put]

/-- Changing a record moves no run. -/
@[simp] lemma names_update (id : String) (changes : List RunChange) :
    (h.update id changes).names = h.names := by
  rw [names, names, update, List.map_map]
  refine List.map_congr_left fun r _ => ?_
  rw [Function.comp_apply]
  split
  · exact RunRecord.runId_applyAll ..
  · rfl

/-- The changes apply to the record under the name, and to no other. -/
lemma get?_update (id : String) (changes : List RunChange) (x : String) :
    (h.update id changes).get? x =
      if x = id then (h.get? x).map fun r => r.applyAll changes else h.get? x := by
  have hname : ∀ r : RunRecord,
      ((if r.runId = id then r.applyAll changes else r).runId == x) = (r.runId == x) := by
    intro r
    split <;> simp
  have hfind : (h.update id changes).get? x =
      (h.get? x).map fun r => if r.runId = id then r.applyAll changes else r := by
    rw [get?, update, List.find?_map]
    simp only [Function.comp_def, hname]
    rfl
  rw [hfind]
  cases hx : h.get? x with
  | none => simp
  | some r =>
    rw [Option.map_some, runId_of_get? hx]
    split <;> rfl

end RunHistory

end CiRunner
