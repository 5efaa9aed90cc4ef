import CiRunner.Proofs.Server.Interleaving

/-!
# The life of a record

However requests and runs follow one another, the record of a run goes through its life in order: it
is queued, it is running, and it says how the run ended, after which it does not change any more.  A
run changes no record but its own, and the only other thing that happens to a record is that it is
dropped, never to come back, when the run of another one is queued.

The invariant behind this is `Activity.Sound`: every record belongs to a run that is under way, and
says how far this run has come.
-/

namespace CiRunner

/-! ## Records -/

namespace RunRecord

/-- The words for runs that came to their ends. -/
def finalWords : List String := ["success", "failure", "error"]

/-- A record says how its run ended. -/
def IsFinal (r : RunRecord) : Prop := r.status ∈ finalWords

/-- A record changes when its run starts and when it comes to its end. -/
inductive Next (r : RunRecord) : RunRecord → Prop
  /-- The run starts. -/
  | start (hstatus : r.status = "queued") : Next r { r with status := "running" }
  /-- The run comes to its end. -/
  | finish (hstatus : r.status = "running") {status : String} (hfinal : status ∈ finalWords)
      (steps : List Value) (error : Option String) (time : Calendar.Moment) :
      Next r { r with status, steps, error, finishedAt := some time }

/-- Two records say the same about the queueing of a run. -/
structure SameRun (r s : RunRecord) : Prop where
  /-- The name. -/
  runId : s.runId = r.runId
  /-- The name of the workflow. -/
  workflow : s.workflow = r.workflow
  /-- The kind of the event. -/
  event : s.event = r.event
  /-- The branch. -/
  branch : s.branch = r.branch
  /-- The commit. -/
  sha : s.sha = r.sha
  /-- When the run was queued. -/
  createdAt : s.createdAt = r.createdAt

variable {r s : RunRecord}

/-- A record that changes is still about the same run. -/
lemma Next.sameRun (h : r.Next s) : r.SameRun s := by
  cases h <;> exact ⟨rfl, rfl, rfl, rfl, rfl, rfl⟩

/-- A record that says how its run ended does not change. -/
lemma Next.not_isFinal (h : r.Next s) : ¬r.IsFinal := by
  intro hfinal
  rw [IsFinal] at hfinal
  cases h with
  | start hstatus => exact absurd (hstatus ▸ hfinal) (by decide)
  | finish hstatus => exact absurd (hstatus ▸ hfinal) (by decide)

/-- What comes of a record after any number of changes is about the same run. -/
lemma sameRun_of_reflTransGen (h : Relation.ReflTransGen Next r s) : r.SameRun s := by
  induction h with
  | refl => exact ⟨rfl, rfl, rfl, rfl, rfl, rfl⟩
  | tail _ hnext ih =>
    have h := hnext.sameRun
    exact ⟨h.runId.trans ih.runId, h.workflow.trans ih.workflow, h.event.trans ih.event,
      h.branch.trans ih.branch, h.sha.trans ih.sha, h.createdAt.trans ih.createdAt⟩

/-- Nothing comes of a record that says how its run ended but itself. -/
lemma IsFinal.eq_of_reflTransGen (hfinal : r.IsFinal) (h : Relation.ReflTransGen Next r s) :
    s = r := by
  rcases h.cases_head with rfl | ⟨_, hnext, -⟩
  · rfl
  · exact absurd hfinal hnext.not_isFinal

/-- The end of a run is written into its record with one of the words for it. -/
lemma exists_applyAll_changes (r : RunRecord) (outcome : Receiver.RunEnd)
    (time : Calendar.Moment) :
    ∃ status ∈ finalWords, ∃ steps error,
      r.applyAll (outcome.changes time) =
        { r with status, steps, error, finishedAt := some time } := by
  cases outcome with
  | finished result =>
    have hstatus : result.status.text ∈ finalWords := by
      rw [RunResult.status]
      split <;> decide
    exact ⟨_, hstatus, result.steps.map Receiver.stepValue, r.error, rfl⟩
  | crashed message => exact ⟨"error", by decide, r.steps, some message, rfl⟩

end RunRecord

open RunRecord

/-- What a record says while its run is at some stage. -/
def Stage.Fits : Stage → RunRecord → Prop
  | queued, r => r.status = "queued" ∧ r.finishedAt = none
  | running, r => r.status = "running" ∧ r.finishedAt = none
  | ended, r => r.IsFinal ∧ r.finishedAt.isSome = true
  | interrupted, r => r.status = "running" ∧ r.finishedAt = none

namespace Stage.Fits

variable {stage : Stage} {r : RunRecord}

/-- The words in a record. -/
lemma status_mem (h : stage.Fits r) : r.status ∈ "queued" :: "running" :: finalWords := by
  cases stage with
  | ended => exact List.mem_cons_of_mem _ (List.mem_cons_of_mem _ h.1)
  | queued | running | interrupted =>
    rw [h.1]
    decide

/-- The end of a run is recorded together with its time. -/
lemma isSome_finishedAt_iff (h : stage.Fits r) : r.finishedAt.isSome = true ↔ r.IsFinal := by
  have hopen : ∀ {word : String}, word ∉ finalWords → r.status = word ∧ r.finishedAt = none →
      (r.finishedAt.isSome = true ↔ r.IsFinal) := by
    rintro _ hword ⟨rfl, hnone⟩
    simp [hnone, IsFinal, hword]
  cases stage with
  | queued => exact hopen (by decide) h
  | running => exact hopen (by decide) h
  | ended => exact iff_of_true h.2 h.1
  | interrupted => exact hopen (by decide) h

end Stage.Fits

namespace Turn

variable {stage stage' : Stage} {changes : List RunChange} {r : RunRecord}

/-- A record keeps step with its run. -/
lemma fits (h : Turn stage stage' changes) (hr : stage.Fits r) :
    stage'.Fits (r.applyAll changes) := by
  cases h with
  | start => exact ⟨rfl, hr.2⟩
  | finish outcome time =>
    obtain ⟨status, hfinal, steps, error, heq⟩ := r.exists_applyAll_changes outcome time
    rw [heq]
    exact ⟨hfinal, rfl⟩
  | interrupt => exact hr

/-- A record changes as records do, or stays as it is. -/
lemma eq_or_next (h : Turn stage stage' changes) (hr : stage.Fits r) :
    r.applyAll changes = r ∨ r.Next (r.applyAll changes) := by
  cases h with
  | start => exact Or.inr (.start hr.1)
  | finish outcome time =>
    obtain ⟨status, hfinal, steps, error, heq⟩ := r.exists_applyAll_changes outcome time
    rw [heq]
    exact Or.inr (.finish hr.1 hfinal steps error time)
  | interrupt => exact Or.inl rfl

end Turn

/-! ## What a step does -/

namespace Activity

variable {a b : Activity} {m : Move}

/-- Every record belongs to a run and says how far the run has come. -/
structure Sound (a : Activity) : Prop where
  /-- The history can hold runs. -/
  size : 0 ≤ a.history.size
  /-- Every record has a name of its own. -/
  names : a.history.names.Nodup
  /-- Every run has a name of its own. -/
  ids : a.ids.Nodup
  /-- A record is the one of a run and says how far the run has come. -/
  fits : ∀ {id r}, a.history.get? id = some r → ∃ t ∈ a.runs, t.run.runId = id ∧ t.stage.Fits r
  /-- A notification that has queued a run can queue the others too. -/
  recorded : ∀ i ∈ a.intakes, i.queued ≠ [] → i.event.mark?.isSome = true

/-- What a step does to the history and the runs. -/
inductive Effect (a b : Activity) : Move → Prop
  /-- It changes neither. -/
  | stay {m : Move} (hhistory : b.history = a.history) (hruns : b.runs = a.runs) : Effect a b m
  /-- A run is queued and recorded. -/
  | queue {run : QueuedRun} {r : RunRecord} (hfresh : run.runId ∉ a.ids)
      (hname : r.runId = run.runId) (hfits : Stage.queued.Fits r)
      (hhistory : b.history = (a.history.add r).2) (hruns : b.runs = ⟨run, .queued⟩ ::ₘ a.runs) :
      Effect a b (.queue run.runId)
  /-- A run does the next thing. -/
  | turn {run : QueuedRun} {stage stage' : Stage} {changes : List RunChange}
      {others : Multiset Task} (hturn : Turn stage stage' changes)
      (hbefore : a.runs = ⟨run, stage⟩ ::ₘ others)
      (hhistory : b.history = a.history.update run.runId changes)
      (hruns : b.runs = ⟨run, stage'⟩ ::ₘ others) :
      Effect a b (.turn run.runId)

/-- A notification that breaks off had queued no run before, so that no record is left behind. -/
lemma Step.effect (h : Step a m b) (ha : a.Sound) : Effect a b m := by
  cases h with
  | accept event left =>
    refine .stay rfl ?_
    rw [runs_of_intakes_eq rfl, Intake.tasks, tasksAt_nil, zero_add, runs]
  | queue hintake hfresh hrecord hadd =>
    rw [Receiver.recordOf?_eq, Option.map_eq_some_iff] at hrecord
    obtain ⟨mark, -, rfl⟩ := hrecord
    exact .queue hfresh rfl ⟨rfl, rfl⟩ rfl (runs_of_queue hintake _ _)
  | @refuse event wf left queued others runId time hintake hrecord =>
    -- all runs of a notification are for one event, which cannot be recorded
    have hmark : event.mark? = none := by simpa [Receiver.recordOf?_eq] using hrecord
    have hqueued : queued = [] := by
      by_contra hne
      have hsome := ha.recorded ⟨event, wf :: left, queued⟩ (by simp [hintake]) hne
      simp [hmark] at hsome
    refine .stay rfl ?_
    rw [runs_of_intakes_eq hintake, Intake.tasks, hqueued, tasksAt_nil, zero_add, runs]
  | overflow hintake hrecord hadd =>
    -- a history whose size is not negative accepts every run
    exact absurd ha.size (of_decide_eq_false hadd)
  | answer hintake =>
    refine .stay rfl ?_
    rw [runs_of_intakes_eq hintake, Intake.tasks, runs, add_left_comm]
  | turn htask hturn =>
    exact .turn hturn (runs_of_tasks_eq htask) rfl (runs_of_tasks_eq rfl)

/-! ## The invariant -/

/-- At the beginning there are no records. -/
lemma sound_initial {size : ℤ} (hsize : 0 ≤ size) : (initial size).Sound where
  size := hsize
  names := List.nodup_nil
  ids := Multiset.nodup_zero
  fits h := by cases h
  recorded i hi := absurd hi (Multiset.notMem_zero i)

/-- The record of a run has the name of the run. -/
lemma Sound.mem_ids (ha : a.Sound) {id : String} {r : RunRecord}
    (h : a.history.get? id = some r) : id ∈ a.ids := by
  obtain ⟨t, ht, rfl, -⟩ := ha.fits h
  exact Multiset.mem_map_of_mem _ ht

/-- The record of a run says how far this run has come. -/
lemma Sound.fits_of_mem (ha : a.Sound) {t : Task} (ht : t ∈ a.runs) {r : RunRecord}
    (h : a.history.get? t.run.runId = some r) : t.stage.Fits r := by
  obtain ⟨t', ht', hid, hfits⟩ := ha.fits h
  rwa [← Multiset.inj_on_of_nodup_map ha.ids t' ht' t ht hid]

/-- No run is forgotten. -/
lemma Effect.ids_le (h : Effect a b m) : a.ids ≤ b.ids := by
  cases h with
  | stay _ hruns => rw [ids, ids, hruns]
  | queue _ _ _ _ hruns =>
    rw [ids, ids, hruns, Multiset.map_cons]
    exact Multiset.le_cons_self _ _
  | turn _ hbefore _ hruns => rw [ids, ids, hbefore, hruns, Multiset.map_cons, Multiset.map_cons]

/-- The names of the records and of the runs stay different. -/
lemma Effect.nodup (h : Effect a b m) (ha : a.Sound) : b.history.names.Nodup ∧ b.ids.Nodup := by
  cases h with
  | stay hhistory hruns =>
    rw [ids, hhistory, hruns]
    exact ⟨ha.names, ha.ids⟩
  | queue hfresh _ _ hhistory hruns =>
    rw [ids, hhistory, hruns, Multiset.map_cons]
    exact ⟨a.history.nodup_names_add ha.names _, Multiset.nodup_cons.mpr ⟨hfresh, ha.ids⟩⟩
  | turn _ hbefore hhistory hruns =>
    have hids := ha.ids
    rw [ids, hbefore, Multiset.map_cons] at hids
    rw [ids, hhistory, hruns, Multiset.map_cons, RunHistory.names_update]
    exact ⟨ha.names, hids⟩

/-- What a step does to the record of a name, if there was one: it stays as it is; or its run does
the next thing, and it changes as records do; or it is dropped, as another run is queued. -/
lemma Effect.of_get?_eq_some (h : Effect a b m) (ha : a.Sound) {id : String} {r : RunRecord}
    (hr : a.history.get? id = some r) :
    b.history.get? id = some r ∨
      (m = .turn id ∧ ∃ s, b.history.get? id = some s ∧ r.Next s) ∨
      (b.history.get? id = none ∧ ∃ new ≠ id, m = .queue new) := by
  cases h with
  | stay hhistory => exact Or.inl (hhistory ▸ hr)
  | @queue run s hfresh hname _ hhistory =>
    have hne : run.runId ≠ id := by
      rintro rfl
      exact hfresh (ha.mem_ids hr)
    have hid : ¬id = s.runId := fun h => hne (hname.symm.trans h.symm)
    rw [hhistory, a.history.get?_add ha.names, if_neg hid, hr]
    split
    · exact Or.inl rfl
    · exact Or.inr (Or.inr ⟨rfl, _, hne, rfl⟩)
  | @turn run stage _ changes _ hturn hbefore hhistory =>
    rw [hhistory, RunHistory.get?_update]
    by_cases hid : id = run.runId
    · subst hid
      have hfits : stage.Fits r := ha.fits_of_mem (t := ⟨run, stage⟩) (by simp [hbefore]) hr
      rw [if_pos rfl, hr, Option.map_some]
      rcases hturn.eq_or_next hfits with heq | hnext
      · exact Or.inl (congrArg some heq)
      · exact Or.inr (Or.inl ⟨rfl, _, rfl, hnext⟩)
    · exact Or.inl (by rw [if_neg hid, hr])

/-- What a step does to a name under which there was no record: there is still none, or the record
of a new run. -/
lemma Effect.of_get?_eq_none (h : Effect a b m) (ha : a.Sound) {id : String}
    (hr : a.history.get? id = none) {s : RunRecord} (hs : b.history.get? id = some s) :
    m = .queue id ∧ id ∉ a.ids ∧ Stage.queued.Fits s := by
  cases h with
  | stay hhistory =>
    rw [hhistory, hr] at hs
    cases hs
  | @queue run _ hfresh hname hfits hhistory =>
    rw [hhistory, a.history.get?_add ha.names, hr] at hs
    split_ifs at hs with hmem hid
    cases hs
    obtain rfl : id = run.runId := hid.trans hname
    exact ⟨rfl, hfresh, hfits⟩
  | turn _ _ hhistory =>
    rw [hhistory, RunHistory.get?_update, hr] at hs
    split at hs <;> cases hs

/-- A step keeps record and run together. -/
lemma Effect.fits (h : Effect a b m) (ha : a.Sound) {id : String} {s : RunRecord}
    (hs : b.history.get? id = some s) : ∃ t ∈ b.runs, t.run.runId = id ∧ t.stage.Fits s := by
  cases h with
  | stay hhistory hruns =>
    rw [hhistory] at hs
    exact hruns ▸ ha.fits hs
  | @queue run _ _ hname hfits hhistory hruns =>
    rw [hhistory, a.history.get?_add ha.names] at hs
    rw [hruns]
    split_ifs at hs with _ hid
    · cases hs
      exact ⟨_, Multiset.mem_cons_self .., (hid.trans hname).symm, hfits⟩
    · obtain ⟨t, ht, hfits⟩ := ha.fits hs
      exact ⟨t, Multiset.mem_cons_of_mem ht, hfits⟩
  | @turn run stage stage' _ _ hturn hbefore hhistory hruns =>
    rw [hhistory, RunHistory.get?_update] at hs
    rw [hruns]
    by_cases hid : id = run.runId
    · subst hid
      rw [if_pos rfl] at hs
      obtain ⟨r, hr, rfl⟩ := Option.map_eq_some_iff.mp hs
      -- the record said how far the run had come before, and so it does after its next thing
      have hfits : stage.Fits r := ha.fits_of_mem (t := ⟨run, stage⟩) (by simp [hbefore]) hr
      exact ⟨_, Multiset.mem_cons_self .., rfl, hturn.fits hfits⟩
    · rw [if_neg hid] at hs
      obtain ⟨t, ht, rfl, hfits⟩ := ha.fits hs
      rw [hbefore] at ht
      rcases Multiset.mem_cons.mp ht with rfl | ht
      · exact absurd rfl hid
      · exact ⟨t, Multiset.mem_cons_of_mem ht, rfl, hfits⟩

/-- A notification that has queued a run can queue the others too. -/
lemma Step.recorded (h : Step a m b) (ha : a.Sound) :
    ∀ i ∈ b.intakes, i.queued ≠ [] → i.event.mark?.isSome = true := by
  have hothers : ∀ {i : Intake} {others : Multiset Intake}, a.intakes = i ::ₘ others →
      ∀ j ∈ others, j.queued ≠ [] → j.event.mark?.isSome = true :=
    fun hintake j hj => ha.recorded j (hintake ▸ Multiset.mem_cons_of_mem hj)
  cases h with
  | accept event left =>
    intro i hi hne
    rcases Multiset.mem_cons.mp hi with rfl | hi
    · exact absurd rfl hne
    · exact ha.recorded i hi hne
  | queue hintake _ hrecord =>
    intro i hi hne
    rcases Multiset.mem_cons.mp hi with rfl | hi
    · rw [Receiver.recordOf?_eq, Option.map_eq_some_iff] at hrecord
      obtain ⟨mark, hmark, -⟩ := hrecord
      rw [hmark]
      rfl
    · exact hothers hintake i hi hne
  | refuse hintake => exact hothers hintake
  | overflow hintake => exact hothers hintake
  | answer hintake => exact hothers hintake
  | turn => exact ha.recorded

/-- A step keeps every record with its run. -/
lemma Sound.of_step (ha : a.Sound) (h : Step a m b) : b.Sound where
  size := by
    have hsize : b.history.size = a.history.size := by
      cases h <;> rfl
    rw [hsize]
    exact ha.size
  names := ((h.effect ha).nodup ha).1
  ids := ((h.effect ha).nodup ha).2
  fits := (h.effect ha).fits ha
  recorded := h.recorded ha

/-- Any number of steps keeps every record with its run. -/
lemma Sound.of_reaches (ha : a.Sound) (h : a.Reaches b) : b.Sound := by
  induction h with
  | refl => exact ha
  | tail _ hstep ih =>
    obtain ⟨m, hstep⟩ := hstep
    exact ih.of_step hstep

/-! ## The life of a record -/

/-- What the records say. -/
structure Orderly (a : Activity) : Prop where
  /-- A run is queued or running, or it came to its end. -/
  status : ∀ r ∈ a.history.runs, r.status ∈ "queued" :: "running" :: finalWords
  /-- A record says when its run ended exactly if it says how. -/
  finishedAt : ∀ r ∈ a.history.runs, r.finishedAt.isSome = true ↔ r.IsFinal
  /-- When all runs came to their ends, all records say how. -/
  settled : (∀ t ∈ a.runs, t.stage = .ended) → ∀ r ∈ a.history.runs, r.IsFinal

/-- What a step does to the records. -/
structure InOrder (a : Activity) (m : Move) (b : Activity) : Prop where
  /-- A record stays as it is; or its own run does the next thing, and it changes as records do; or
  another run is queued, and it is dropped. -/
  kept : ∀ {id r}, a.history.get? id = some r →
    b.history.get? id = some r ∨
      (m = .turn id ∧ ∃ s, b.history.get? id = some s ∧ r.Next s) ∨
      (b.history.get? id = none ∧ ∃ new ≠ id, m = .queue new)
  /-- A new record says that a run is queued, and this is what the step did. -/
  new : ∀ {id s}, a.history.get? id = none → b.history.get? id = some s →
    m = .queue id ∧ id ∉ a.ids ∧ s.status = "queued"

/-- What becomes of the records in the course of time. -/
structure Develops (a b : Activity) : Prop where
  /-- A record is dropped; or it changes as records do, any number of times, and is still about the
  same run.  If it says how the run ended, it does not change any more. -/
  kept : ∀ {id r}, a.history.get? id = some r →
    b.history.get? id = none ∨
      ∃ s, b.history.get? id = some s ∧ Relation.ReflTransGen Next r s ∧ r.SameRun s ∧
        (r.IsFinal → s = r)
  /-- The record of a run that was dropped does not come back. -/
  gone : ∀ {id}, id ∈ a.ids → a.history.get? id = none → b.history.get? id = none

/-- What the records say if each is that of a run. -/
lemma Sound.orderly (ha : a.Sound) : a.Orderly := by
  have hfits : ∀ r ∈ a.history.runs, ∃ t ∈ a.runs, t.stage.Fits r := by
    intro r hr
    obtain ⟨t, ht, -, hfits⟩ := ha.fits ((RunHistory.get?_eq_some_iff ha.names).mpr ⟨hr, rfl⟩)
    exact ⟨t, ht, hfits⟩
  refine ⟨fun r hr => ?_, fun r hr => ?_, fun hended r hr => ?_⟩
  · obtain ⟨t, -, hfits⟩ := hfits r hr
    exact hfits.status_mem
  · obtain ⟨t, -, hfits⟩ := hfits r hr
    exact hfits.isSome_finishedAt_iff
  · obtain ⟨t, ht, hfits⟩ := hfits r hr
    rw [hended t ht] at hfits
    exact hfits.1

/-- A step treats the records in order. -/
lemma Sound.inOrder (ha : a.Sound) (h : Step a m b) : InOrder a m b where
  kept := (h.effect ha).of_get?_eq_some ha
  new hr hs := by
    obtain ⟨hmove, hfresh, hstatus, -⟩ := (h.effect ha).of_get?_eq_none ha hr hs
    exact ⟨hmove, hfresh, hstatus⟩

/-- In the course of time no run is forgotten. -/
lemma Sound.ids_le (ha : a.Sound) (h : a.Reaches b) : a.ids ≤ b.ids := by
  induction h with
  | refl => exact le_rfl
  | tail hreach hstep ih =>
    obtain ⟨m, hstep⟩ := hstep
    exact ih.trans (hstep.effect (ha.of_reaches hreach)).ids_le

/-- In the course of time no record that was dropped comes back. -/
lemma Sound.gone (ha : a.Sound) (h : a.Reaches b) {id : String} (hid : id ∈ a.ids)
    (hr : a.history.get? id = none) : b.history.get? id = none := by
  induction h with
  | refl => exact hr
  | @tail c d hreach hstep ih =>
    obtain ⟨m, hstep⟩ := hstep
    have hc := ha.of_reaches hreach
    by_contra hsome
    obtain ⟨s, hs⟩ := Option.ne_none_iff_exists'.mp hsome
    -- a record that is new belongs to a run under a name that was not used before
    have hnew := ((hstep.effect hc).of_get?_eq_none hc ih hs).2.1
    exact hnew (Multiset.mem_of_le (ha.ids_le hreach) hid)

/-- In the course of time a record changes step by step, unless it is dropped. -/
lemma Sound.kept (ha : a.Sound) (h : a.Reaches b) {id : String} {r : RunRecord}
    (hr : a.history.get? id = some r) :
    b.history.get? id = none ∨
      ∃ s, b.history.get? id = some s ∧ Relation.ReflTransGen Next r s := by
  induction h with
  | refl => exact Or.inr ⟨r, hr, .refl⟩
  | @tail c d hreach hstep ih =>
    have hc := ha.of_reaches hreach
    rcases ih with hnone | ⟨s, hs, hnexts⟩
    · have hid : id ∈ c.ids := Multiset.mem_of_le (ha.ids_le hreach) (ha.mem_ids hr)
      exact Or.inl (hc.gone (.single hstep) hid hnone)
    · obtain ⟨m, hstep⟩ := hstep
      rcases (hstep.effect hc).of_get?_eq_some hc hs with hsame | ⟨-, t, ht, hnext⟩ | ⟨hnone, -⟩
      · exact Or.inr ⟨s, hsame, hnexts⟩
      · exact Or.inr ⟨t, ht, hnexts.tail hnext⟩
      · exact Or.inl hnone

/-- What becomes of the records if each is that of a run. -/
lemma Sound.develops (ha : a.Sound) (h : a.Reaches b) : Develops a b where
  kept hr := by
    rcases ha.kept h hr with hnone | ⟨s, hs, hnexts⟩
    · exact Or.inl hnone
    · exact Or.inr ⟨s, hs, hnexts, sameRun_of_reflTransGen hnexts,
        fun hfinal => hfinal.eq_of_reflTransGen hnexts⟩
  gone hid hr := ha.gone h hid hr

/-- A history that can hold runs, and any notifications and runs that follow one another in any
order.  At all times the records say what they should, every step treats them in order, and they
develop in order from then on. -/
theorem records_live_in_order {size : ℤ} (hsize : 0 ≤ size) {a : Activity}
    (ha : (initial size).Reaches a) :
    a.Orderly ∧ (∀ m b, Step a m b → InOrder a m b) ∧ ∀ b, a.Reaches b → Develops a b := by
  have hsound : a.Sound := (sound_initial hsize).of_reaches ha
  exact ⟨hsound.orderly, fun _ _ => hsound.inOrder, fun _ => hsound.develops⟩

/-- A run for a push to the main branch. -/
def mainRun (runId : String) : QueuedRun where
  runId
  workflow := buildAndPack
  event := { kind := "push", branch := .text "main" }

/-- The record of this run when it is queued. -/
def mainRecord (runId : String) : RunRecord where
  runId
  workflow := "ci"
  event := "push"
  branch := "main"
  status := "queued"
  createdAt := default

/-- A history of one run after two runs for a push: the first was dropped when the second was
queued, and crashed; the second came to its end later. -/
def afterTwoRuns : Activity where
  history :=
    { size := 1
      runs := [{ mainRecord "b" with status := "success", finishedAt := some default }] }
  tasks := {⟨mainRun "b", .ended⟩, ⟨mainRun "a", .ended⟩}

/-- The two runs start and end in turn. -/
lemma reaches_afterTwoRuns : (initial 1).Reaches afterTwoRuns := by
  let a := mainRun "a"
  let b := mainRun "b"
  let queuedA : RunHistory := { size := 1, runs := [mainRecord "a"] }
  let queuedB : RunHistory := { size := 1, runs := [mainRecord "b"] }
  let runningB : RunHistory := queuedB.update "b" [.status "running"]
  let twice : List Workflow := [buildAndPack, buildAndPack]
  have hswap : ∀ s t : Task, ({s, t} : Multiset Task) = t ::ₘ {s} :=
    fun s t => Multiset.cons_swap s t 0
  -- one notification queues both runs, and the second one drops the record of the first
  have haccept : Step (initial 1) .attend ⟨{ size := 1 }, {⟨a.event, twice, []⟩}, 0⟩ :=
    .accept a.event twice
  have hqueue : Step ⟨{ size := 1 }, {⟨a.event, twice, []⟩}, 0⟩ (.queue "a")
      ⟨queuedA, {⟨a.event, [buildAndPack], [a]⟩}, 0⟩ :=
    @Step.queue _ a.event buildAndPack [buildAndPack] [] 0 "a" default (mainRecord "a") rfl
      (by simp [ids, runs, Intake.tasks]) rfl rfl
  have hdrop : Step ⟨queuedA, {⟨a.event, [buildAndPack], [a]⟩}, 0⟩ (.queue "b")
      ⟨queuedB, {⟨a.event, [], [a, b]⟩}, 0⟩ :=
    @Step.queue _ a.event buildAndPack [] [a] 0 "b" default (mainRecord "b") rfl
      (by simp [ids, runs, Intake.tasks, tasksAt, a, mainRun]) rfl rfl
  have hanswer : Step ⟨queuedB, {⟨a.event, [], [a, b]⟩}, 0⟩ .attend
      ⟨queuedB, 0, {⟨a, .queued⟩, ⟨b, .queued⟩}⟩ :=
    @Step.answer _ a.event [a, b] 0 rfl
  -- the run without a record goes on like the other one
  have hstart : Step ⟨queuedB, 0, {⟨a, .queued⟩, ⟨b, .queued⟩}⟩ (.turn "a")
      ⟨queuedB, 0, {⟨a, .running⟩, ⟨b, .queued⟩}⟩ :=
    @Step.turn _ a _ _ _ {⟨b, .queued⟩} rfl .start
  have hstart' : Step ⟨queuedB, 0, {⟨a, .running⟩, ⟨b, .queued⟩}⟩ (.turn "b")
      ⟨runningB, 0, {⟨b, .running⟩, ⟨a, .running⟩}⟩ :=
    @Step.turn _ b _ _ _ {⟨a, .running⟩} (hswap _ _) .start
  have hcrash : Step ⟨runningB, 0, {⟨b, .running⟩, ⟨a, .running⟩}⟩ (.turn "a")
      ⟨runningB, 0, {⟨a, .ended⟩, ⟨b, .running⟩}⟩ :=
    @Step.turn _ a _ _ _ {⟨b, .running⟩} (hswap _ _)
      (.finish (.crashed "No space left on device") default)
  have hfinish : Step ⟨runningB, 0, {⟨a, .ended⟩, ⟨b, .running⟩}⟩ (.turn "b") afterTwoRuns :=
    @Step.turn _ b _ _ _ {⟨a, .ended⟩} (hswap _ _)
      (.finish (.finished { workflow := "ci", event := b.event }) default)
  exact .head ⟨_, haccept⟩ <| .head ⟨_, hqueue⟩ <| .head ⟨_, hdrop⟩ <| .head ⟨_, hanswer⟩ <|
    .head ⟨_, hstart⟩ <| .head ⟨_, hstart'⟩ <| .head ⟨_, hcrash⟩ <| .single ⟨_, hfinish⟩

/-- After the two runs, one of which crashed, the record that is left says how its run ended. -/
theorem records_final_after_two_runs :
    (∀ t ∈ afterTwoRuns.runs, t.stage = .ended) ∧
      ∀ r ∈ afterTwoRuns.history.runs, r.IsFinal := by
  obtain ⟨horderly, -, -⟩ := records_live_in_order (by decide) reaches_afterTwoRuns
  have hended : ∀ t ∈ afterTwoRuns.runs, t.stage = .ended := by simp [runs, afterTwoRuns]
  exact ⟨hended, horderly.settled hended⟩

end Activity

/-- If no run is under way before a request is served, all records say afterwards how their runs
ended. -/
theorem Receiver.isFinal_of_serve {τ : Type} [Timeline τ] {r r' : Receiver} {q : Request}
    {answer : Response} {host : Host τ} {w w' : World τ} {size : ℤ} (hsize : 0 ≤ size)
    {a : Activity} (ha : (Activity.initial size).Reaches a)
    (hended : ∀ t ∈ a.runs, t.stage = .ended) (hhistory : a.history = r.history)
    (hfresh : host.NamesFresh w.names {id | id ∈ a.ids})
    (h : r.serve q host w = (.ok (answer, r'), w')) : ∀ s ∈ r'.history.runs, s.IsFinal := by
  have hsound := (Activity.sound_initial hsize).of_reaches ha
  obtain ⟨queued, hserved⟩ := exists_reaches_of_serve hhistory (hhistory ▸ hsound.size) hfresh h
  refine (hsound.of_reaches hserved).orderly.settled fun t ht => ?_
  rw [Activity.runs, add_left_comm, Multiset.mem_add] at ht
  rcases ht with ht | ht
  · obtain ⟨run, -, rfl⟩ := Multiset.mem_map.mp ht
    rfl
  · exact hended t ht

end CiRunner
