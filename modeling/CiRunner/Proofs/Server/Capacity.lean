import CiRunner.Proofs.Server.Queueing
import CiRunner.Proofs.Server.RunTable

/-!
# The size of a history

The size of a history is a setting, and every integer is accepted for it.  Whatever the size, a
history never holds more runs than it says, and none if it is negative.

A size of zero is a history that forgets every run at once.  A negative size is not the same: when a
run is added, the oldest runs are dropped until no more are left than the history may hold, and
dropping fails once it is empty.  So exactly the sizes from zero on are safe, for a history and for
the receiver that remembers its runs in it (`safe_iff_size_not_negative`).
-/

namespace CiRunner

variable {τ : Type} {size : ℤ}

/-! ## Operations on a history -/

/-- A history of some size holds no more runs than the size says. -/
structure RunHistory.Fits (size : ℤ) (h : RunHistory) : Prop where
  /-- The history has the size. -/
  size_eq : h.size = size
  /-- Its runs are not too many. -/
  length_le : h.runs.length ≤ max size 0

/-- An operation is broken off: it adds a run, and the history may not even be empty. -/
def HistoryCall.IsBrokenOff (size : ℤ) (c : HistoryCall) : Prop := size < 0 ∧ ∃ r, c = .add r

namespace RunHistory.Fits

variable {h : RunHistory}

/-- A history without runs fits any size. -/
lemma empty (size : ℤ) : RunHistory.Fits size { size } := ⟨rfl, le_max_right ..⟩

/-- There are no runs in a history of negative size. -/
lemma eq_empty (hfits : h.Fits size) (hsize : size < 0) : h = { size } := by
  obtain ⟨hsize', hlength⟩ := hfits
  have hnil : h.runs = [] := List.eq_nil_of_length_eq_zero (by omega)
  rw [eq_of_size_eq (h := { size }) hsize', hnil]

/-- After a run was added, a history still fits its size. -/
lemma add (hfits : h.Fits size) (r : RunRecord) : (h.add r).2.Fits size := by
  refine ⟨hfits.size_eq, ?_⟩
  rw [add_eq, ← hfits.size_eq, ← Int.toNat_eq_max]
  exact Int.ofNat_le.mpr (length_trim_le ..)

/-- After a record was changed, a history still fits its size. -/
lemma update (hfits : h.Fits size) (id : String) (changes : List RunChange) :
    (h.update id changes).Fits size :=
  ⟨hfits.size_eq, (List.length_map ..).symm ▸ hfits.length_le⟩

open HistoryCall in
/-- One operation leaves a history that fits its size, and it is broken off only if it adds a run to
a history of negative size. -/
lemma perform (hfits : h.Fits size) (c : HistoryCall) :
    (onHistory h c).2.Fits size ∧ ((onHistory h c).1 = .added false ↔ c.IsBrokenOff size) := by
  cases c with
  | add r =>
    refine ⟨hfits.add r, ?_⟩
    simp [onHistory, IsBrokenOff, add_eq, hfits.size_eq]
  | update id changes => exact ⟨hfits.update id changes, by simp [onHistory, IsBrokenOff]⟩
  | get id => exact ⟨hfits, by simp [onHistory, IsBrokenOff]⟩
  | all => exact ⟨hfits, by simp [onHistory, IsBrokenOff]⟩

open HistoryCall in
/-- The same holds for operations one after another. -/
lemma inTurn (hfits : h.Fits size) (calls : List HistoryCall) :
    (inTurn onHistory h calls).2.Fits size ∧
      List.Forall₂ (fun c answer => answer = .added false ↔ c.IsBrokenOff size) calls
        (inTurn onHistory h calls).1 := by
  induction calls generalizing h with
  | nil => exact ⟨hfits, .nil⟩
  | cons c rest ih =>
    obtain ⟨hnext, hanswer⟩ := hfits.perform c
    obtain ⟨hend, hanswers⟩ := ih hnext
    exact ⟨hend, .cons hanswer hanswers⟩

end RunHistory.Fits

/-! ## Requests to a receiver -/

namespace Receiver

variable {r r' : Receiver} {q : Request} {e : Event} {host : Host τ} {w w' : World τ}

/-- Queueing runs leaves a history that fits its size. -/
lemma fits_of_queueRuns {h h' : RunHistory} (hfits : h.Fits size) {workflows : List Workflow}
    {result : Except NotificationFault Unit} {queued : List QueuedRun}
    (hqueue : queueRuns e h workflows host w = (.ok (result, h', queued), w')) :
    h'.Fits size := by
  induction workflows generalizing h h' result queued w w' with
  | nil =>
    cases hqueue
    exact hfits
  | cons wf rest ih =>
    simp only [queueRuns, RunM.bind_apply, RunM.freshName_apply, RunM.now_apply] at hqueue
    cases hrecord : recordOf? (host.freshName w.names) wf e (host.now w.stamps) with
    | none =>
      rw [hrecord] at hqueue
      cases hqueue
      exact hfits
    | some record =>
      rw [hrecord] at hqueue
      dsimp only at hqueue
      split at hqueue
      · obtain ⟨⟨result', h₁, others⟩, w₁, hrest⟩ := queueRuns_returns e (h.add record).2 rest host
          { w with names := w.names + 1, stamps := w.stamps + 1 }
        rw [RunM.bind_apply, hrest] at hqueue
        cases hqueue
        exact ih (hfits.add record) hrest
      · cases hqueue
        exact hfits.add record

/-- Answering a request leaves a history that fits its size. -/
lemma fits_of_handle (hfits : r.history.Fits size) {reply : Reply}
    (hhandle : r.handle q host w = (.ok reply, w')) : reply.history.Fits size := by
  obtain h | ⟨response, h⟩ := r.handle_cases q (τ := τ)
  swap
  · rw [h] at hhandle
    cases hhandle
    exact hfits
  rw [h, notify] at hhandle
  cases hdecide : Notification.decide r.settings.webhookSecret r.workflows q with
  | queue e started =>
    obtain ⟨⟨result, h', queued⟩, w₁, hqueue⟩ := queueRuns_returns e r.history started host w
    simp only [hdecide, RunM.bind_apply, hqueue] at hhandle
    have hfits' := fits_of_queueRuns hfits hqueue
    cases result with
    | ok _ =>
      cases hhandle
      exact hfits'
    | error fault =>
      cases hhandle
      exact hfits'
  | refuse | dismiss | unmatched | fault =>
    rw [hdecide] at hhandle
    cases hhandle
    exact hfits

/-- A notification that starts runs is broken off at the first of them if the size of the history is
negative. -/
lemma notify_of_size_neg (hfits : r.history.Fits size) (hsize : size < 0) (hstarts : r.Starts q e)
    (host : Host τ) (w : World τ) :
    r.notify q host w = (.ok ⟨.internalError, { size }, []⟩, w.numbered 1) := by
  obtain ⟨started, hdecide, hmark⟩ := starts_iff.mp hstarts
  obtain ⟨mark, hmark⟩ := Option.isSome_iff_exists.mp hmark
  obtain ⟨wf, rest, rfl⟩ := List.exists_cons_of_ne_nil
    (Notification.decide_eq_queue_iff.mp hdecide).2.2.2
  set record := QueuedRun.record mark ⟨host.freshName w.names, wf, e⟩ (host.now w.stamps)
    with hrecord
  have hadd : r.history.add record = (false, { size }) := by
    rw [← (hfits.add record).eq_empty hsize, RunHistory.add_eq, hfits.size_eq,
      decide_eq_false (not_le.mpr hsize)]
  simp only [notify, hdecide, queueRuns, RunM.bind_apply, RunM.freshName_apply, RunM.now_apply,
    recordOf?_eq, hmark, Option.map_some, ← hrecord, hadd, Bool.false_eq_true, if_false,
    RunM.pure_apply]
  rfl

/-- A receiver that is set up from the environment remembers no runs at first, and the size of its
history is the one of the environment. -/
lemma history_of_create {s : Settings} (hs : Settings.ofEnvironment? host.environment = some s)
    {workflows : Option (List Workflow)}
    (h : create none workflows host w = (.ok (.ok r), w')) :
    r.history = { size := s.historySize } := by
  obtain ⟨known, w₀, hread, h⟩ := RunM.bind_eq_ok_iff.mp h
  cases hread
  simp only [Option.none_or, hs] at h
  -- where the workflows come from makes no difference to the history
  cases workflows
  all_goals
    obtain ⟨_ | ws, w₁, -, h⟩ := RunM.bind_eq_ok_iff.mp h
    · cases h
    · dsimp only at h
      split at h <;> cases h <;> rfl

variable [Timeline τ]

/-- A run that comes to its end leaves a history that fits its size. -/
lemma fits_of_foldlM_execute (hfits : r.history.Fits size) {runs : List QueuedRun}
    (h : runs.foldlM execute r host w = (.ok r', w')) : r'.history.Fits size := by
  induction runs generalizing r w with
  | nil =>
    cases h
    exact hfits
  | cons run rest ih =>
    rw [List.foldlM_cons, RunM.bind_eq_ok_iff] at h
    obtain ⟨r₁, w₁, hrun, hrest⟩ := h
    obtain ⟨outcome, time, rfl⟩ := eq_of_execute hrun
    exact ih ((hfits.update ..).update ..) hrest

/-- Serving requests leaves a history that fits its size. -/
lemma fits_of_serveAll (hfits : r.history.Fits size) {requests : List Request}
    (h : r.serveAll requests host w = (.ok r', w')) : r'.history.Fits size := by
  induction requests generalizing r w with
  | nil =>
    cases h
    exact hfits
  | cons q rest ih =>
    rw [serveAll, List.foldlM_cons, RunM.bind_eq_ok_iff] at h
    obtain ⟨r₁, w₁, hserve, hrest⟩ := h
    obtain ⟨⟨answer, r₂⟩, w₂, hserve, ⟨⟩⟩ := RunM.bind_eq_ok_iff.mp hserve
    obtain ⟨reply, w₃, hhandle, -, hruns⟩ := serve_eq_ok_iff.mp hserve
    have hreply : reply.history.Fits size := fits_of_handle hfits hhandle
    exact ih (fits_of_foldlM_execute hreply hruns) hrest

/-! ## Safe sizes -/

open HistoryCall in
/-- Histories of every size that is accepted as a setting.  After each of any operations a history
holds no more runs than its size says, and none if it is negative.  An operation is broken off
exactly if it adds a run to a history of negative size; so no operation ever is, exactly if the size
is not negative.  The same goes for a receiver with this setting, whatever it has served before: its
history holds no more runs than that, and a notification that starts runs queues them if the size is
not negative; else it is broken off, and no run is queued or remembered. -/
theorem safe_iff_size_not_negative {host : Host τ} {s : Settings}
    (hs : Settings.ofEnvironment? host.environment = some s) :
    (∀ calls,
      (inTurn onHistory { size := s.historySize } calls).2.Fits s.historySize ∧
      List.Forall₂ (fun c answer => answer = .added false ↔ c.IsBrokenOff s.historySize) calls
        (inTurn onHistory { size := s.historySize } calls).1) ∧
    ((∀ calls, .added false ∉ (inTurn onHistory { size := s.historySize } calls).1) ↔
      0 ≤ s.historySize) ∧
    ∀ {workflows r w w₁}, create none workflows host w = (.ok (.ok r), w₁) →
      ∀ {requests r' w₂}, r.serveAll requests host w₁ = (.ok r', w₂) →
        r'.history.Fits s.historySize ∧
        ∀ {q e}, r'.Starts q e → ∃ reply w₃, r'.notify q host w₂ = (.ok reply, w₃) ∧
          if 0 ≤ s.historySize then r'.Queues e host w₂ reply
          else reply = ⟨.internalError, { size := s.historySize }, []⟩ := by
  have hempty := RunHistory.Fits.empty s.historySize
  refine ⟨hempty.inTurn, ⟨fun hsafe => ?_, fun hsize calls hmem => ?_⟩, ?_⟩
  · -- one run that is added shows it
    by_contra hneg
    have hbroken := (hempty.perform (.add default)).2.mpr ⟨not_le.mp hneg, default, rfl⟩
    exact hsafe [.add default] (List.mem_singleton.mpr hbroken.symm)
  · obtain ⟨hlength, hanswers⟩ := List.forall₂_iff_get.mp (hempty.inTurn calls).2
    obtain ⟨i, hi⟩ := List.mem_iff_get.mp hmem
    have hbroken := (hanswers i (hlength.symm ▸ i.isLt) i.isLt).mp hi
    exact absurd hsize (not_le.mpr hbroken.1)
  · intro workflows r w w₁ hcreate requests r' w₂ hserve
    have hfits : r'.history.Fits s.historySize :=
      fits_of_serveAll (history_of_create hs hcreate ▸ hempty) hserve
    refine ⟨hfits, fun {q e} hstarts => ?_⟩
    split
    · obtain ⟨started, hdecide, hmark⟩ := starts_iff.mp hstarts
      obtain ⟨mark, hmark⟩ := Option.isSome_iff_exists.mp hmark
      have hsize : 0 ≤ r'.history.size := hfits.size_eq ▸ ‹_›
      exact ⟨_, _, notify_of_mark hdecide hmark hsize host w₂, queues_of_mark hdecide hmark host w₂⟩
    · exact ⟨_, _, notify_of_size_neg hfits (not_le.mp ‹_›) hstarts host w₂, rfl⟩

/-- A host whose environment asks for a history of a negative size. -/
def hostOfNegativeSize : Host Float :=
  { numberingHost with environment := [("BRANCHCI_HISTORY_SIZE", "-1")] }

/-- The settings of the environment. -/
def negativeSize : Settings := { historySize := -1 }

/-- The receiver that is set up from the environment. -/
def ofNegativeSize : Receiver where
  settings := negativeSize
  workflows := [{ buildAndPack with triggers := [{ event := "push" }] }]
  history := { size := -1 }

/-- A push that starts its workflow breaks the receiver off, and the run is not queued. -/
theorem safe_iff_size_not_negative_of_push :
    ∃ e w w', create none (some ofNegativeSize.workflows) hostOfNegativeSize .initial =
        (.ok (.ok ofNegativeSize), w) ∧
      ofNegativeSize.Starts pushToMain e ∧
      ofNegativeSize.notify pushToMain hostOfNegativeSize w =
        (.ok ⟨.internalError, { size := -1 }, []⟩, w') := by
  have hsettings : Settings.ofEnvironment? hostOfNegativeSize.environment = some negativeSize := by
    decide +kernel
  obtain ⟨w, hcreate⟩ : ∃ w, create none (some ofNegativeSize.workflows) hostOfNegativeSize
      .initial = (.ok (.ok ofNegativeSize), w) := by
    simp only [create, RunM.bind_apply, RunM.read_apply, Option.none_or, hsettings]
    exact ⟨_, rfl⟩
  obtain ⟨e, hstarts⟩ : ∃ e, ofNegativeSize.Starts pushToMain e := by
    have hqueue : (match Notification.decide ofNegativeSize.settings.webhookSecret
        ofNegativeSize.workflows pushToMain with
      | .queue e _ => e.mark?.isSome
      | _ => false) = true := by decide +kernel
    split at hqueue
    · exact ⟨_, starts_iff.mpr ⟨_, ‹_›, hqueue⟩⟩
    · cases hqueue
  obtain ⟨-, -, hreceiver⟩ := safe_iff_size_not_negative hsettings
  have hserve : ofNegativeSize.serveAll [] hostOfNegativeSize w = (.ok ofNegativeSize, w) := rfl
  obtain ⟨-, hpush⟩ := hreceiver hcreate hserve
  obtain ⟨reply, w', hnotify, rfl⟩ := hpush hstarts
  exact ⟨e, w, w', hcreate, hstarts, hnotify⟩

open HistoryCall in
/-- A negative size is accepted as a setting, and adding a run to a history of this size is broken
off. -/
theorem negative_size_accepted_but_unsafe :
    Settings.ofEnvironment? [("BRANCHCI_HISTORY_SIZE", "-1")] = some { historySize := -1 } ∧
      .added false ∈ (inTurn onHistory { size := -1 } [.add default]).1 :=
  ⟨by decide +kernel, List.mem_singleton_self _⟩

end Receiver

end CiRunner
