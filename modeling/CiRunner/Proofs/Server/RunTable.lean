import CiRunner.Proofs.Server.History

/-!
# A history as a bounded list

A table of runs is a list of names, oldest first and each of them once, with a record under each
name.  A record under a name of the list takes the place of the one that is there; a record under
another name is appended, and the oldest names are dropped one by one until the list is short
enough. A change of a record gives each of its fields the last value that is given for it.

A history does the same: on every sequence of operations it answers as the table does, and after
each of them it holds the records of the table in the order of their names
(`history_performs_as_table`).
-/

namespace CiRunner

/-! ## Fields of a record -/

/-- A field of the record of a run, other than its name. -/
inductive RunField where
  /-- The name of the workflow. -/
  | workflow
  /-- The kind of the event. -/
  | event
  /-- The branch. -/
  | branch
  /-- The commit. -/
  | sha
  /-- The status. -/
  | status
  /-- When it was queued. -/
  | createdAt
  /-- When it ended. -/
  | finishedAt
  /-- What came of its steps. -/
  | steps
  /-- What broke it off. -/
  | error
  deriving DecidableEq, Repr

/-- What stands in a field. -/
def RunField.Content : RunField → Type
  | sha | error => Option String
  | createdAt => Calendar.Moment
  | finishedAt => Option Calendar.Moment
  | steps => List Value
  | workflow | event | branch | status => String

/-- The value that a change gives a field; nothing if it is about another field. -/
def RunChange.valueFor : (f : RunField) → RunChange → Option f.Content
  | .workflow, .workflow name => some name
  | .event, .event kind => some kind
  | .branch, .branch name => some name
  | .sha, .sha commit => some commit
  | .status, .status word => some word
  | .createdAt, .createdAt time => some time
  | .finishedAt, .finishedAt time => some time
  | .steps, .steps results => some results
  | .error, .error text => some text
  | _, _ => none

namespace RunRecord

/-- What stands in a field of a record. -/
def content (r : RunRecord) : (f : RunField) → f.Content
  | .workflow => r.workflow
  | .event => r.event
  | .branch => r.branch
  | .sha => r.sha
  | .status => r.status
  | .createdAt => r.createdAt
  | .finishedAt => r.finishedAt
  | .steps => r.steps
  | .error => r.error

/-- What stands in a field after some changes: the last value given for it, else the old one. -/
def contentAfter (r : RunRecord) (changes : List RunChange) (f : RunField) : f.Content :=
  (changes.reverse.findSome? (·.valueFor f)).getD (r.content f)

/-- A record in which exactly the given fields have new values. -/
def revised (r : RunRecord) (changes : List RunChange) : RunRecord where
  runId := r.runId
  workflow := r.contentAfter changes .workflow
  event := r.contentAfter changes .event
  branch := r.contentAfter changes .branch
  sha := r.contentAfter changes .sha
  status := r.contentAfter changes .status
  createdAt := r.contentAfter changes .createdAt
  finishedAt := r.contentAfter changes .finishedAt
  steps := r.contentAfter changes .steps
  error := r.contentAfter changes .error

/-- A last change has the last word on its field, and none on the others. -/
lemma contentAfter_concat (r : RunRecord) (changes : List RunChange) (c : RunChange)
    (f : RunField) :
    r.contentAfter (changes ++ [c]) f = (c.valueFor f).getD (r.contentAfter changes f) := by
  rw [contentAfter, List.reverse_concat, List.findSome?_cons]
  cases c.valueFor f <;> rfl

/-- Changes that are made one after another give each field the last value that is given for it. -/
lemma applyAll_eq_revised (r : RunRecord) (changes : List RunChange) :
    r.applyAll changes = r.revised changes := by
  -- by induction from the end, since the last change has the last word
  induction changes using List.reverseRecOn with
  | nil => rfl
  | append_singleton changes c ih =>
    have happly : r.applyAll (changes ++ [c]) = (r.applyAll changes).apply c :=
      List.foldl_concat ..
    rw [happly, ih]
    cases c <;> simp only [revised, contentAfter_concat] <;> rfl

end RunRecord

/-! ## Tables of runs -/

/-- The last names of a list: the oldest are dropped until no more than so many are left. -/
def dropOldest (bound : ℕ) : List String → List String
  | [] => []
  | id :: rest => if (id :: rest).length ≤ bound then id :: rest else dropOldest bound rest

lemma dropOldest_eq_drop (bound : ℕ) (ids : List String) :
    dropOldest bound ids = ids.drop (ids.length - bound) := by
  induction ids with
  | nil => rw [dropOldest, List.drop_nil]
  | cons id rest ih =>
    rw [dropOldest]
    split
    · rw [Nat.sub_eq_zero_of_le ‹_›, List.drop_zero]
    · have hcount : (id :: rest).length - bound = (rest.length - bound) + 1 := by
        rw [List.length_cons] at *
        omega
      rw [ih, hcount, List.drop_succ_cons]

lemma dropOldest_suffix (bound : ℕ) (ids : List String) : dropOldest bound ids <:+ ids := by
  rw [dropOldest_eq_drop]
  exact List.drop_suffix ..

lemma length_dropOldest_le (bound : ℕ) (ids : List String) :
    (dropOldest bound ids).length ≤ bound := by
  rw [dropOldest_eq_drop, List.length_drop]
  omega

/-- At most so many runs, each under a name of its own. -/
structure RunTable (bound : ℕ) where
  /-- The names, oldest first. -/
  order : List String
  /-- The record under each of the names. -/
  record : String → Option RunRecord
  /-- No name is there twice. -/
  nodup : order.Nodup
  /-- The table is not too long. -/
  length_le : order.length ≤ bound
  /-- There is a record under a name exactly if it is one of the table. -/
  mem_order : ∀ id, id ∈ order ↔ ∃ r, record id = some r
  /-- Every record is under its own name. -/
  runId_record : ∀ {id r}, record id = some r → r.runId = id

namespace RunTable

variable {bound : ℕ}

/-- A table without runs. -/
def empty (bound : ℕ) : RunTable bound where
  order := []
  record _ := none
  nodup := List.nodup_nil
  length_le := Nat.zero_le _
  mem_order := by simp
  runId_record := by simp

/-- The names of a table after a name was added. -/
def orderWith (t : RunTable bound) (id : String) : List String :=
  if id ∈ t.order then t.order else dropOldest bound (t.order ++ [id])

lemma orderWith_sublist (t : RunTable bound) (id : String) :
    (t.orderWith id).Sublist (if id ∈ t.order then t.order else t.order ++ [id]) := by
  unfold orderWith
  split
  · exact List.Sublist.refl _
  · exact (dropOldest_suffix ..).sublist

/-- A name that is left after one was added is the new one or was there before. -/
lemma eq_or_mem_of_mem_orderWith {t : RunTable bound} {id x : String}
    (h : x ∈ t.orderWith id) : x = id ∨ x ∈ t.order := by
  have hx := (t.orderWith_sublist id).subset h
  split at hx
  · exact Or.inr hx
  · simpa [or_comm] using hx

/-- Adds a run: a record under a name of the table takes the place of the one that is there, another
one is appended and the oldest are dropped. -/
def add (t : RunTable bound) (r : RunRecord) : RunTable bound where
  order := t.orderWith r.runId
  record id :=
    if id ∈ t.orderWith r.runId then if id = r.runId then some r else t.record id else none
  nodup := by
    refine (t.orderWith_sublist r.runId).nodup ?_
    split
    · exact t.nodup
    · exact List.nodup_append_comm.mp (List.nodup_cons.mpr ⟨‹_›, t.nodup⟩)
  length_le := by
    unfold orderWith
    split
    · exact t.length_le
    · exact length_dropOldest_le ..
  mem_order id := by
    by_cases hid : id ∈ t.orderWith r.runId
    · rcases eq_or_mem_of_mem_orderWith hid with rfl | hmem
      · simp [hid]
      · obtain ⟨s, hs⟩ := (t.mem_order id).mp hmem
        by_cases hne : id = r.runId <;> simp [hid, hne, hs]
    · simp [hid]
  runId_record := by
    intro id s hs
    split_ifs at hs with hid hne
    · rw [← Option.some.inj hs, hne]
    · exact t.runId_record hs

/-- A run that is added is there afterwards, unless the table holds no runs at all. -/
lemma mem_orderWith_self (t : RunTable bound) (id : String) :
    id ∈ t.orderWith id ↔ bound ≠ 0 := by
  unfold orderWith
  split
  · have hpos : 0 < t.order.length := List.length_pos_of_mem ‹_›
    have := t.length_le
    exact iff_of_true ‹_› (by omega)
  · rw [dropOldest_eq_drop, List.length_append, List.length_singleton]
    cases bound with
    | zero => simp
    | succ m =>
      have hle : t.order.length + 1 - (m + 1) ≤ t.order.length := by omega
      rw [List.drop_append_of_le_length hle]
      simp

/-- Gives fields of the record under a name new values; there is nothing to change under a name that
is not one of the table. -/
def update (t : RunTable bound) (id : String) (changes : List RunChange) : RunTable bound where
  order := t.order
  record x := if x = id then (t.record x).map fun r => r.revised changes else t.record x
  nodup := t.nodup
  length_le := t.length_le
  mem_order x := by
    rw [t.mem_order x]
    split <;> simp
  runId_record := by
    intro x r hr
    split at hr
    · obtain ⟨s, hs, rfl⟩ := Option.map_eq_some_iff.mp hr
      have hname : s.runId = x := t.runId_record hs
      exact hname
    · exact t.runId_record hr

/-- The records, oldest first. -/
def toList (t : RunTable bound) : List RunRecord := t.order.filterMap t.record

end RunTable

/-! ## Sequences of operations -/

/-- An operation on a history. -/
inductive HistoryCall where
  /-- Adds a run. -/
  | add (r : RunRecord)
  /-- Changes fields of the run of a name. -/
  | update (id : String) (changes : List RunChange)
  /-- Asks for the run of a name. -/
  | get (id : String)
  /-- Asks for all runs. -/
  | all

/-- What comes of an operation. -/
inductive HistoryAnswer where
  /-- The run is accepted or not. -/
  | added (accepted : Bool)
  /-- The change is made. -/
  | updated
  /-- The run of a name, if it is there. -/
  | found (r : Option RunRecord)
  /-- All runs, the newest first. -/
  | listed (runs : List RunRecord)

namespace HistoryCall

/-- Performs an operation on a history. -/
def onHistory (h : RunHistory) : HistoryCall → HistoryAnswer × RunHistory
  | add r => (.added (h.add r).1, (h.add r).2)
  | update id changes => (.updated, h.update id changes)
  | get id => (.found (h.get? id), h)
  | all => (.listed h.all, h)

/-- Performs an operation on a table. -/
def onTable {bound : ℕ} (t : RunTable bound) : HistoryCall → HistoryAnswer × RunTable bound
  | add r => (.added true, t.add r)
  | update id changes => (.updated, t.update id changes)
  | get id => (.found (t.record id), t)
  | all => (.listed t.toList.reverse, t)

/-- Performs operations one after another. -/
def inTurn {σ : Type} (perform : σ → HistoryCall → HistoryAnswer × σ) :
    σ → List HistoryCall → List HistoryAnswer × σ
  | s, [] => ([], s)
  | s, c :: rest =>
    let (answer, s) := perform s c
    let (answers, s) := inTurn perform s rest
    (answer :: answers, s)

end HistoryCall

namespace RunTable

variable {bound : ℕ} {t : RunTable bound} {h : RunHistory}

/-- A history holds the runs of a table. -/
structure Describes (t : RunTable bound) (h : RunHistory) : Prop where
  /-- It may hold as many as the table. -/
  size_eq : h.size = bound
  /-- Its runs have the names of the table, in their order. -/
  names_eq : h.names = t.order
  /-- The same record is found under every name. -/
  get?_eq : ∀ id, h.get? id = t.record id

namespace Describes

/-- The runs of the history are the records of the table. -/
lemma runs_eq (hd : t.Describes h) : h.runs = t.toList := by
  rw [RunHistory.runs_eq_filterMap (hd.names_eq ▸ t.nodup), hd.names_eq, toList]
  exact List.filterMap_congr fun id _ => hd.get?_eq id

/-- The history is the table in the form of a list. -/
lemma eq_history (hd : t.Describes h) : h = { size := bound, runs := t.toList } :=
  match h, hd.size_eq, hd.runs_eq with
  | ⟨_, _⟩, rfl, rfl => rfl

/-- Adding a run to the history is adding it to the table. -/
lemma add (hd : t.Describes h) (r : RunRecord) : (t.add r).Describes (h.add r).2 := by
  have hnodup : h.names.Nodup := hd.names_eq ▸ t.nodup
  have hput : (h.put r).names = if r.runId ∈ t.order then t.order else t.order ++ [r.runId] := by
    rw [RunHistory.names_put, hd.names_eq]
  have hnames : (h.add r).2.names = t.orderWith r.runId := by
    rw [RunHistory.add_eq, RunHistory.names_trimmed, hput, orderWith,
      show (h.put r).size.toNat = bound by rw [RunHistory.put, hd.size_eq, Int.toNat_natCast]]
    split
    · rw [Nat.sub_eq_zero_of_le t.length_le, List.drop_zero]
    · rw [dropOldest_eq_drop]
  refine ⟨hd.size_eq, hnames, fun id => ?_⟩
  rw [h.get?_add hnodup, hnames, hd.get?_eq]
  rfl

/-- Changing a record of the history is changing it in the table. -/
lemma update (hd : t.Describes h) (id : String) (changes : List RunChange) :
    (t.update id changes).Describes (h.update id changes) := by
  refine ⟨hd.size_eq, (h.names_update id changes).trans hd.names_eq, fun x => ?_⟩
  rw [RunHistory.get?_update, hd.get?_eq]
  simp only [RunRecord.applyAll_eq_revised]
  rfl

/-- Every operation gets the same answer, and the history goes on holding the runs of the table. -/
lemma perform (hd : t.Describes h) (c : HistoryCall) :
    (HistoryCall.onHistory h c).1 = (HistoryCall.onTable t c).1 ∧
      (HistoryCall.onTable t c).2.Describes (HistoryCall.onHistory h c).2 := by
  cases c with
  | add r =>
    refine ⟨?_, hd.add r⟩
    simp [HistoryCall.onHistory, HistoryCall.onTable, RunHistory.add_eq, hd.size_eq]
  | update id changes => exact ⟨rfl, hd.update id changes⟩
  | get id => exact ⟨congrArg HistoryAnswer.found (hd.get?_eq id), hd⟩
  | all =>
    refine ⟨?_, hd⟩
    rw [HistoryCall.onHistory, HistoryCall.onTable, RunHistory.all, hd.runs_eq]

/-- The same holds for operations one after another. -/
lemma inTurn (hd : t.Describes h) (calls : List HistoryCall) :
    (HistoryCall.inTurn HistoryCall.onHistory h calls).1 =
        (HistoryCall.inTurn HistoryCall.onTable t calls).1 ∧
      (HistoryCall.inTurn HistoryCall.onTable t calls).2.Describes
        (HistoryCall.inTurn HistoryCall.onHistory h calls).2 := by
  induction calls generalizing t h with
  | nil => exact ⟨rfl, hd⟩
  | cons c rest ih =>
    obtain ⟨hanswer, hnext⟩ := hd.perform c
    obtain ⟨hanswers, hend⟩ := ih hnext
    exact ⟨congrArg₂ List.cons hanswer hanswers, hend⟩

end Describes

/-- In a new history there are no runs. -/
lemma describes_empty (bound : ℕ) : (empty bound).Describes { size := bound } :=
  ⟨rfl, rfl, fun _ => rfl⟩

end RunTable

/-! ## The history as a table -/

open HistoryCall in
/-- A history of any size does what a table does: on every sequence of operations it gives the
answers of the table, and after it holds the records of the table, oldest first.  A run that was
just added is found under its name, unless the history holds no runs at all. -/
theorem history_performs_as_table (bound : ℕ) (calls : List HistoryCall) :
    (inTurn onHistory { size := bound } calls).1 =
        (inTurn onTable (RunTable.empty bound) calls).1 ∧
      (inTurn onHistory { size := bound } calls).2 =
        { size := bound, runs := (inTurn onTable (RunTable.empty bound) calls).2.toList } ∧
      ∀ r : RunRecord, ((inTurn onHistory { size := bound } calls).2.add r).2.get? r.runId =
        if bound = 0 then none else some r := by
  obtain ⟨hanswers, hd⟩ := (RunTable.describes_empty bound).inTurn calls
  refine ⟨hanswers, hd.eq_history, fun r => ?_⟩
  rw [(hd.add r).get?_eq, RunTable.add]
  by_cases hbound : bound = 0 <;> simp [RunTable.mem_orderWith_self, hbound]

/-- A change that comes after its run was dropped does not bring it back. -/
example :
    let run (id : String) : RunRecord :=
      { runId := id, workflow := "ci", event := "push", branch := "main", status := "queued"
        createdAt := default }
    ((HistoryCall.inTurn HistoryCall.onHistory { size := 2 }
      [.add (run "a"), .add (run "b"), .add (run "a"), .add (run "c"),
        .update "a" [.status "running"], .update "b" [.status "running"]]).2.runs.map
          fun r => (r.runId, r.status)) = [("b", "running"), ("c", "queued")] := by
  decide

end CiRunner
