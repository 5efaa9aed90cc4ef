import CiRunner.Proofs.Run.Cancellation
import CiRunner.Proofs.Run.GitCalls

/-!
# When a run is broken off from outside

The user can interrupt the program of a step, and Git while it answers a call, and the system can
refuse both.  A run that meets nothing of this kind goes on to its end or to a fault of another
kind, and one that does is ended by that very fault: nothing on the way hides it and nothing else
looks like it.

`World.Heeds` says this of a computation from one world to another.  What a world counts tells which
programs and which calls of Git a computation came to, so these can be looked up on the host.
-/

namespace CiRunner

open RunM

variable {τ : Type}

/-! ## Faults from outside -/

/-- The fault by which a program ends more than its step: it is refused, or the user interrupts
it. -/
def Command.breach? (p : Program τ) : Option Fault :=
  if p.missing then p.refusal.map .system
  else if p.interrupted then some (interruption p)
  else none

/-- A program is broken off from outside. -/
lemma Command.isOutside_of_breach? {p : Program τ} {fault : Fault}
    (h : breach? p = some fault) : fault.isOutside = true := by
  unfold breach? at h
  split at h
  · obtain ⟨reason, -, rfl⟩ := Option.map_eq_some_iff.mp h
    rfl
  · split at h
    · rw [← Option.some.inj h]
      exact isOutside_interruption p
    · cases h

/-- A fault breaks Git off at a call. -/
def Host.Breaks (host : Host τ) (fault : Fault) (call : GitCall) : Prop :=
  ∃ reply, host.git call.number call.args = some reply ∧ Git.breach? reply = some fault

/-- Between two worlds a fault breaks off a program that was asked for or a call of Git. -/
def Host.BreaksOff (host : Host τ) (fault : Fault) (w w' : World τ) : Prop :=
  (∃ n, w.attempts ≤ n ∧ n < w'.attempts ∧ Command.breach? (host.program n) = some fault) ∨
    ∃ call ∈ w.calls w', host.Breaks fault call

/-- What breaks a run off comes from outside. -/
lemma Host.BreaksOff.isOutside {host : Host τ} {fault : Fault} {w w' : World τ}
    (h : host.BreaksOff fault w w') : fault.isOutside = true := by
  rcases h with ⟨n, -, -, hn⟩ | ⟨call, -, reply, -, hbreach⟩
  · exact Command.isOutside_of_breach? hn
  · exact Git.isOutside_of_breach? hbreach

/-- Between two worlds the user interrupts a program that was started or a call of Git. -/
def Host.Interrupts (host : Host τ) (w w' : World τ) : Prop :=
  (∃ n, w.attempts ≤ n ∧ n < w'.attempts ∧
    (host.program n).missing = false ∧ (host.program n).interrupted = true) ∨
  ∃ call ∈ w.calls w', ∃ reply, host.git call.number call.args = some reply ∧
    reply.interrupted = true

/-- Where a runner may kill its programs, an interruption is what breaks a run off. -/
lemma Host.MayKill.interrupts_iff {host : Host τ} (h : host.MayKill) (w w' : World τ) :
    host.Interrupts w w' ↔ host.BreaksOff .interrupted w w' := by
  have hprogram : ∀ n, (host.program n).missing = false ∧ (host.program n).interrupted = true ↔
      Command.breach? (host.program n) = some .interrupted := by
    intro n
    cases hm : (host.program n).missing <;> cases hi : (host.program n).interrupted <;>
      simp [Command.breach?, hm, hi, h.interruption]
  have hgit : ∀ reply : GitReply, reply.interrupted = true ↔
      Git.breach? reply = some .interrupted := by
    intro reply
    cases hi : reply.interrupted <;> simp [Git.breach?, hi]
  simp only [Host.Interrupts, Host.BreaksOff, Host.Breaks, hprogram, hgit]

/-- No program was asked for between two worlds, and Git was not called. -/
structure World.Rests (w w' : World τ) : Prop where
  /-- No program was asked for. -/
  attempts_eq : w'.attempts = w.attempts
  /-- What was done is counted. -/
  counts : World.Counts (fun a => a.isGit = false) w w'

instance : IsPreorder (World τ) World.Rests where
  refl w := ⟨rfl, Std.Refl.refl (r := World.Counts _) w⟩
  trans _ _ _ h h' :=
    ⟨h'.attempts_eq.trans h.attempts_eq, trans_of (World.Counts _) h.counts h'.counts⟩

/-- A world after a computation that is ended by a fault from outside exactly if it met that. -/
structure World.Heeds (host : Host τ) (fault : Option Fault) (w w' : World τ) : Prop where
  /-- Programs are asked for one after another. -/
  attempts_le : w.attempts ≤ w'.attempts
  /-- Calls of Git are counted. -/
  counts : World.Counts (fun _ => True) w w'
  /-- The computation is ended by what breaks off a program or a call of Git. -/
  outside : ∀ e, e.isOutside = true → (fault = some e ↔ host.BreaksOff e w w')

variable {host : Host τ} {u v w : World τ} {fault : Option Fault}

/-- What breaks the way off does so on its first part or on its second. -/
lemma Host.breaksOff_trans (huv : World.Heeds host fault u v) (hle : v.attempts ≤ w.attempts)
    (hvw : World.Counts (fun _ => True) v w) (e : Fault) :
    host.BreaksOff e u w ↔ host.BreaksOff e u v ∨ host.BreaksOff e v w := by
  have hsplit : ∀ n, u.attempts ≤ n ∧ n < w.attempts ↔
      u.attempts ≤ n ∧ n < v.attempts ∨ v.attempts ≤ n ∧ n < w.attempts := by
    intro n
    have hfirst := huv.attempts_le
    omega
  simp only [Host.BreaksOff, huv.counts.calls_trans hvw, List.mem_append, ← and_assoc, hsplit,
    or_and_right, exists_or]
  exact or_or_or_comm ..

namespace World

/-- Where nothing is asked for, nothing is broken off. -/
lemma Rests.not_breaksOff (h : w.Rests v) (e : Fault) : ¬host.BreaksOff e w v := by
  rintro (⟨n, hle, hlt, -⟩ | ⟨call, hcall, -⟩)
  · rw [h.attempts_eq] at hlt
    exact absurd hlt (Nat.not_lt.mpr hle)
  · rw [h.counts.calls_eq_nil] at hcall
    cases hcall

/-- What asks for nothing is ended by nothing, or by a fault that does not come from outside. -/
lemma Rests.heeds (h : w.Rests v) (hfault : ∀ e ∈ fault, e.isOutside = false) :
    World.Heeds host fault w v where
  attempts_le := h.attempts_eq.ge
  counts := h.counts.mono fun _ _ => trivial
  outside e he := iff_of_false (fun heq => by simp [hfault e heq] at he) (h.not_breaksOff e)

/-- After a computation there may be more that asks for nothing, however it ended. -/
lemma Heeds.followed (h : World.Heeds host fault u v) (hrest : v.Rests w) :
    World.Heeds host fault u w := by
  have hcounts : World.Counts (fun _ => True) v w := hrest.counts.mono fun _ _ => trivial
  have hle : v.attempts ≤ w.attempts := hrest.attempts_eq.ge
  refine ⟨h.attempts_le.trans hle, trans_of (World.Counts _) h.counts hcounts, fun e he => ?_⟩
  rw [Host.breaksOff_trans h hle hcounts, or_iff_left (hrest.not_breaksOff e)]
  exact h.outside e he

/-- Where a runner may kill its programs, a computation is interrupted exactly if the user
interrupts a program or a call of Git. -/
lemma Heeds.interrupted_iff (h : World.Heeds host fault w v) (hmay : host.MayKill) :
    fault = some .interrupted ↔ host.Interrupts w v :=
  (h.outside .interrupted rfl).trans (hmay.interrupts_iff w v).symm

instance : Chains (World.Heeds host) where
  refl w := (Std.Refl.refl w : World.Rests w w).heeds nofun
  trans {fault u v w} h h' := by
    refine ⟨h.attempts_le.trans h'.attempts_le, trans_of (World.Counts _) h.counts h'.counts,
      fun e he => ?_⟩
    -- the first part had no fault, so nothing broke it off
    have hnone : ¬host.BreaksOff e u v := fun hi => nomatch (h.outside e he).mpr hi
    rw [Host.breaksOff_trans h h'.attempts_le h'.counts, or_iff_right hnone]
    exact h'.outside e he

end World

/-! ## Single steps -/

/-- An action that is no call of Git asks for nothing. -/
lemma World.rests_did {a : Action τ} (h : a.isGit = false) (w : World τ) : w.Rests (w.did [a]) :=
  ⟨rfl, World.counts_did (v := w) (List.forall_mem_singleton.mpr h)
    (List.forall_mem_singleton.mpr h) rfl rfl⟩

/-- So it is not broken off. -/
lemma RunM.act_heeds {a : Action τ} (h : a.isGit = false) :
    Ends host (World.Heeds host) (act a) :=
  fun w => (World.rests_did h w).heeds nofun

/-- A call of Git is ended by what breaks it off. -/
lemma Git.call_heeds (args : List String) (directory : Option String) :
    Ends host (World.Heeds host) (Git.call args directory).run := by
  intro w
  have hcounts : World.Counts (fun _ => True) w ((Git.call args directory).run host w).2 :=
    Git.call_counts trivial w
  obtain ⟨hcalls, -⟩ := Git.calls_call args directory host w
  have hattempts : ((Git.call args directory).run host w).2.attempts = w.attempts :=
    (Git.call_asksGit host args directory w).attempts_eq
  refine ⟨hattempts.ge, hcounts, fun e _ => ?_⟩
  have hiff : host.BreaksOff e w ((Git.call args directory).run host w).2 ↔
      host.Breaks e ⟨w.gitCalls, args⟩ := by
    have hno : ¬∃ n, w.attempts ≤ n ∧ n < w.attempts ∧
        Command.breach? (host.program n) = some e :=
      fun ⟨n, hle, hlt, _⟩ => absurd hlt (Nat.not_lt.mpr hle)
    simp only [Host.BreaksOff, hattempts, hcalls, List.mem_singleton, exists_eq_left,
      or_iff_right hno]
  rw [hiff, Git.call_eq, Host.Breaks]
  cases hreply : host.git w.gitCalls args with
  | none => simp
  | some reply =>
    cases hb : Git.breach? reply with
    | some fault => simp [hb]
    | none =>
      by_cases hcode : reply.exitCode = 0
      · simp [hb, hcode]
      · simp [hb, hcode]

/-- That a working directory cannot be made out does not come from outside. -/
lemma Sequence.isOutside_of_directoryOf {place : Location} {cwd : Value} {fault : Fault}
    (h : directoryOf place cwd = .error fault) : fault.isOutside = false := by
  unfold directoryOf at h
  split at h
  · split at h
    · split at h
      · cases h
        rfl
      · cases h
    · cases h
      rfl
  · cases h

variable [Timeline τ] (host) (c : Console) (ws : Workspace)

/-! ## Runs -/

namespace Sequence

omit [Timeline τ] in
/-- One program was asked for, and what ends the computation from outside is what breaks it off. -/
lemma heeds_of_asked {w w' : World τ} {fault : Option Fault} (hasked : w'.attempts = w.attempts + 1)
    (hcounts : World.Counts (fun a => a.isGit = false) w w')
    (hfault : ∀ e, fault = some e ↔ Command.breach? (host.program w.attempts) = some e) :
    World.Heeds host fault w w' := by
  refine ⟨hasked ▸ Nat.le_succ _, hcounts.mono fun _ _ => trivial, fun e _ => ?_⟩
  rw [hfault, Host.BreaksOff, hcounts.calls_eq_nil, hasked]
  constructor
  · exact fun h => Or.inl ⟨w.attempts, le_rfl, Nat.lt_succ_self _, h⟩
  · rintro (⟨n, hle, hlt, hn⟩ | ⟨call, hcall, -⟩)
    · rwa [Nat.le_antisymm (Nat.le_of_lt_succ hlt) hle] at hn
    · cases hcall

/-- The body of a step is ended from outside exactly by what breaks off its program or a call of Git
that it makes. -/
lemma runBody_heeds (base : Environment) (job : Job) (step : Step) (limit : Option τ) :
    Ends host (World.Heeds host) (runBody c ws base job step limit) := by
  intro w
  have hends := runBody_ends c ws base host job step limit w
  by_cases hstep : step.isAction = true
  · rw [runBody, if_pos hstep]
    exact runAction_ends (fun _ call _ => Git.call_heeds call.1 call.2) (fun _ => act_heeds rfl)
      job w
  generalize (runBody c ws base job step limit host w).1 = result at hends ⊢
  generalize (runBody c ws base job step limit host w).2 = w' at hends ⊢
  cases hends with
  | action haction => exact absurd haction hstep
  | noPlace hcommand hplace =>
    have hfault := isOutside_of_directoryOf hplace
    exact (Std.Refl.refl w : World.Rests w w).heeds (by simpa using hfault)
  | noDirectory => exact (Std.Refl.refl w : World.Rests w w).heeds nofun
  | hidden | unknownShell =>
    exact (Std.Refl.refl w : World.Rests w w).heeds (by simp [Fault.isOutside])
  | missing hcommand hplace hdirectory hshell hmissing hreason =>
    refine heeds_of_asked host rfl ⟨[], by simp, rfl, List.forall_mem_nil _⟩ fun e => ?_
    simp [Command.breach?, hmissing, hreason]
  | refused hcommand hplace hdirectory hshell hmissing hreason =>
    refine heeds_of_asked host rfl ⟨[], by simp, rfl, List.forall_mem_nil _⟩ fun e => ?_
    simp [Command.breach?, hmissing, hreason]
  | @started directory words p hcommand hplace hdirectory hshell hprogram hthere =>
    have hgit : ∀ a ∈ Action.spawn (1001 + w.started) (words ++ [step.run.getD ""]) directory
        (stepVariables host.environment base job step) ::
          Command.trace c (1001 + w.started) p limit, a.isGit = false :=
      List.forall_mem_cons.mpr
        ⟨rfl, fun a ha => (Command.kinds_of_mem_trace c _ p limit ha).2.1⟩
    refine heeds_of_asked host rfl (World.counts_did hgit hgit rfl rfl) fun e => ?_
    rw [hprogram]
    cases hi : p.interrupted <;> simp [Command.breach?, hthere, hi]

/-- A run is ended from outside exactly by what it meets. -/
theorem run_heeds (wf : Workflow) (e : Event) :
    Ends host (World.Heeds host) (run c wf e ws) :=
  have hremarks : Remarks host (World.Heeds host) :=
    ⟨fun _ => Ends.tell (act_heeds rfl), fun _ _ _ => act_heeds rfl, fun _ _ => act_heeds rfl⟩
  run_ends (hremarks.reports c) ws fun job _ step _ => runBody_heeds host c ws _ job step

end Sequence

/-! ## Triggers -/

namespace Trigger

omit [Timeline τ] in
/-- Around a run only Git can be broken off. -/
lemma encloses_heeds : Encloses c host (World.Heeds host) where
  broken hfault w := (Std.Refl.refl w : World.Rests w w).heeds (by simpa using hfault)
  git := Git.call_heeds
  note _ := act_heeds rfl
  remark _ := act_heeds rfl
  opened w tree parent := by
    have hrests : World.Rests w (Workspace.opened { w with tree } parent) :=
      ⟨rfl, World.counts_did (List.forall_mem_singleton.mpr rfl)
        (List.forall_mem_singleton.mpr rfl) rfl rfl⟩
    exact hrests.heeds nofun
  closed place h :=
    h.followed ⟨rfl, World.counts_did (List.forall_mem_singleton.mpr rfl)
      (List.forall_mem_singleton.mpr rfl) rfl rfl⟩

/-- A trigger is ended from outside exactly by what it meets. -/
theorem trigger_heeds (wf : Workflow) (e : Event) (o : RunOptions) :
    Ends host (World.Heeds host) (trigger c wf e o) :=
  (encloses_heeds host c).trigger_ends (fun ws => Sequence.run_heeds host c ws wf e)
    (fun _ => act_heeds rfl) o

end Trigger

end CiRunner
