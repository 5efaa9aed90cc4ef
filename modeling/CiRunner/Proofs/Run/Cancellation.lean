import CiRunner.Proofs.CommandLine.Preparation
import CiRunner.Proofs.Run.Isolation
import CiRunner.Proofs.Run.Course
import CiRunner.Proofs.Run.Rejections

/-!
# Cancelled runs

The user can interrupt a run at any step, while the output of its process is read or its end is
awaited.  The process is killed then and waited for, its timer is cancelled, and the interruption
goes on through everything that was to follow.  So a run never leaves a process behind that nobody
waits for, nor a timer that could still fire, however it ends.

This rests on the right of a runner to kill the processes that it started.  Where the system refuses
it, as for a process that has become one of another user, the refusal takes the place of the
interruption and the process is left alone; `Host.MayKill` rules this out.

`World.Settles` says this of a computation from one world to another.  It holds of the body of a
step by its cases and passes along chains of computations, up to the command line.  `World.Frees`
says less, that all is given back, and holds also where the standard streams reject what a run tells
and so break it off.
-/

namespace CiRunner

open RunM

variable {τ α : Type}

/-! ## What has to be given back -/

/-- Whether an action starts a process or a timer. -/
def Action.isStart : Action τ → Bool
  | spawn .. => true
  | startTimer .. => true
  | _ => false

/-- What starts nothing starts no process. -/
lemma Action.isSpawn_eq_false_of_isStart {a : Action τ} (h : a.isStart = false) :
    a.isSpawn = false := by
  cases a with
  | spawn => cases h
  | _ => rfl

/-- Telling something starts nothing. -/
lemma Action.isStart_of_isTell {a : Action τ} (h : a.isTell = true) : a.isStart = false := by
  cases a with
  | tell => rfl
  | _ => cases h

/-- A call of Git starts nothing that has to be given back. -/
lemma Action.isStart_of_isGit {a : Action τ} (h : a.isGit = true) : a.isStart = false := by
  cases a with
  | git => rfl
  | _ => cases h

/-- An action comes up in a log before another process is started or a step begins or ends. -/
def Soon (a : Action τ) (log : List (Action τ)) : Prop :=
  ∃ before after, log = before ++ a :: after ∧
    ∀ b ∈ before, b.isSpawn = false ∧ b.isMark = false

/-- What an action starts is over soon: a process is waited for, and a timer is cancelled. -/
def Action.IsOver : Action τ → List (Action τ) → Prop
  | spawn pid _ _ _, later => ∃ code, Soon (.wait pid code) later
  | startTimer pid _, later => Soon (.cancelTimer pid) later
  | _, _ => True

/-- All processes and timers that are started in a log are over soon. -/
def Released : List (Action τ) → Prop
  | [] => True
  | a :: log => a.IsOver log ∧ Released log

/-- What comes up soon does so in a longer log. -/
lemma Soon.append {a : Action τ} {log : List (Action τ)} (h : Soon a log)
    (more : List (Action τ)) : Soon a (log ++ more) := by
  obtain ⟨before, after, rfl, hbefore⟩ := h
  exact ⟨before, after ++ more, by simp, hbefore⟩

/-- What comes up at all does so soon if no process is started and no step begins or ends. -/
lemma Soon.of_mem {a : Action τ} {log : List (Action τ)} (h : a ∈ log)
    (hlog : ∀ b ∈ log, b.isSpawn = false ∧ b.isMark = false) : Soon a log := by
  obtain ⟨before, after, rfl⟩ := List.append_of_mem h
  exact ⟨before, after, rfl, fun b hb => hlog b (List.mem_append_left _ hb)⟩

/-- What is over in a log is over in a longer one. -/
lemma Action.IsOver.append {a : Action τ} {log : List (Action τ)} (h : a.IsOver log)
    (more : List (Action τ)) : a.IsOver (log ++ more) := by
  cases a with
  | spawn pid argv directory env =>
    obtain ⟨code, hcode⟩ := h
    exact ⟨code, hcode.append more⟩
  | startTimer pid length => exact Soon.append h more
  | _ => trivial

namespace Released

/-- One log after another. -/
lemma append {log more : List (Action τ)} (h : Released log) (hmore : Released more) :
    Released (log ++ more) := by
  induction log with
  | nil => exact hmore
  | cons a log ih => exact ⟨h.1.append more, ih h.2⟩

/-- A log in which nothing is started. -/
lemma of_not_isStart {log : List (Action τ)} (h : ∀ a ∈ log, a.isStart = false) :
    Released log := by
  induction log with
  | nil => trivial
  | cons a log ih =>
    obtain ⟨ha, hlog⟩ := List.forall_mem_cons.mp h
    refine ⟨?_, ih hlog⟩
    cases a <;> trivial

end Released

/-! ### Commands -/

namespace Command

variable [Timeline τ] (c : Console) (pid : ℕ) (p : Program τ) (limit : Option τ)

/-- After its start a process starts no other one, calls no Git and begins or ends no step. -/
lemma kinds_of_mem_trace {a : Action τ} (h : a ∈ trace c pid p limit) :
    a.isSpawn = false ∧ a.isGit = false ∧ a.isMark = false := by
  rcases isTell_or_isFollowUp_of_mem_trace h with ht | hf
  · cases a with
    | tell => exact ⟨rfl, rfl, rfl⟩
    | _ => cases ht
  · obtain ⟨hmark, hspawn, hgit⟩ := Action.kinds_of_isFollowUp hf
    exact ⟨hspawn, hgit, hmark⟩

variable {c pid p limit}

/-- From the end of its output on a process starts nothing. -/
lemma isStart_of_mem_conclusion {a : Action τ} (h : a ∈ conclusion pid p limit) :
    a.isStart = false := by
  simp only [conclusion, aftermath, List.mem_append, List.mem_cons, List.mem_ite_nil_right,
    List.not_mem_nil, or_false, mem_ending_iff] at h
  rcases h with ((⟨-, rfl | rfl⟩ | ⟨-, rfl⟩) | ⟨-, rfl⟩) |
    (⟨-, rfl⟩ | ⟨-, rfl | rfl⟩) | ⟨-, rfl⟩ <;> rfl

/-- Nor does it when it is stopped. -/
lemma isStart_of_mem_stopping {a : Action τ} (h : a ∈ stopping pid p limit) :
    a.isStart = false := by
  have hall : (stopping pid p limit).all (fun a => !a.isStart) = true := by
    unfold stopping
    split_ifs <;> rfl
  simpa using List.all_eq_true.mp hall a h

omit [Timeline τ] in
/-- A process is over soon if it is waited for and its timer is cancelled, whatever is told. -/
lemma released_of_ended {told rest : List (Action τ)} (htold : ∀ a ∈ told, a.isTell = true)
    (hstart : ∀ a ∈ rest, a.isStart = false) (hfollow : ∀ a ∈ rest, a.isFollowUp = true)
    (hwait : ∃ code, .wait pid code ∈ rest)
    (hcancel : limit.isSome = true → .cancelTimer pid ∈ rest) (argv : List String)
    (directory : Location) (env : Environment) :
    Released (.spawn pid argv directory env ::
      ((limit.map (.startTimer pid)).toList ++ (told ++ rest))) := by
  have hrest : ∀ a ∈ told ++ rest, a.isStart = false ∧ a.isMark = false := by
    intro a ha
    rcases List.mem_append.mp ha with ha | ha
    · have htell := htold a ha
      refine ⟨Action.isStart_of_isTell htell, ?_⟩
      cases a with
      | tell => rfl
      | _ => cases htell
    · exact ⟨hstart a ha, (Action.kinds_of_isFollowUp (hfollow a ha)).1⟩
  have hquiet : ∀ a ∈ told ++ rest, a.isSpawn = false ∧ a.isMark = false := fun a ha =>
    ⟨Action.isSpawn_eq_false_of_isStart (hrest a ha).1, (hrest a ha).2⟩
  have hreleased : Released (told ++ rest) := Released.of_not_isStart fun a ha => (hrest a ha).1
  obtain ⟨code, hcode⟩ := hwait
  have hwaits := List.mem_append_right told hcode
  cases limit with
  | none => exact ⟨⟨code, Soon.of_mem hwaits hquiet⟩, hreleased⟩
  | some t =>
    have hcancelled := Soon.of_mem (List.mem_append_right told (hcancel rfl)) hquiet
    refine ⟨⟨code, Soon.of_mem (List.mem_cons_of_mem _ hwaits) ?_⟩, hcancelled, hreleased⟩
    exact List.forall_mem_cons.mpr ⟨⟨rfl, rfl⟩, hquiet⟩

/-- A process that is not left alone is waited for, and its timer is cancelled. -/
lemma released_conclusion (hp : abandoned p = false) {told : List (Action τ)}
    (htold : ∀ a ∈ told, a.isTell = true) (argv : List String) (directory : Location)
    (env : Environment) :
    Released (.spawn pid argv directory env ::
      ((limit.map (.startTimer pid)).toList ++ (told ++ conclusion pid p limit))) := by
  refine released_of_ended htold (fun _ => isStart_of_mem_conclusion)
    (fun _ => isFollowUp_of_mem_conclusion) ⟨exitCode p (overruns p limit), ?_⟩ (fun h => ?_) argv
    directory env
  · simp [conclusion, mem_ending_iff, hp]
  · simp [conclusion, aftermath, h]

/-- A process that may be killed is waited for when it is broken off, and its timer is cancelled. -/
lemma released_stopping (hp : shield? p = none) {told : List (Action τ)}
    (htold : ∀ a ∈ told, a.isTell = true) (argv : List String) (directory : Location)
    (env : Environment) :
    Released (.spawn pid argv directory env ::
      ((limit.map (.startTimer pid)).toList ++ (told ++ stopping pid p limit))) := by
  refine released_of_ended htold (fun _ => isStart_of_mem_stopping)
    (fun _ => isFollowUp_of_mem_stopping) ⟨(remainder p).exitCode, ?_⟩ (fun h => ?_) argv
    directory env
  · simp [stopping, hp]
  · simp [stopping, h]

variable (c pid limit)

/-- The same holds of its whole trace. -/
lemma released_trace (hp : abandoned p = false) (argv : List String) (directory : Location)
    (env : Environment) : Released (.spawn pid argv directory env :: trace c pid p limit) := by
  rw [trace_eq_append]
  exact released_conclusion hp (by simp [Action.isTell]) argv directory env

/-- A process that the user interrupts before its end is killed and waited for, if it may be. -/
lemma kill_wait_infix_trace (hp : abandoned p = false) (h : p.interrupted = true)
    (hr : p.reaped = false) :
    [.kill pid, .wait pid (exitCode p (overruns p limit))] <:+: trace c pid p limit := by
  have hkill : (p.interrupted && !p.reaped) = true := by simp [h, hr]
  have hending : ending pid p limit = [.wait pid (exitCode p (overruns p limit))] := by
    simp [ending, hp]
  rw [trace, life, if_pos hkill, hending, List.append_assoc _ [_] [_], List.singleton_append]
  exact List.infix_append _ [_, _] (aftermath pid p limit)

end Command

/-! ## Settled worlds -/

/-- A log that ends with an interruption: a process is started, killed and waited for, and after its
start no other one is started, Git is not called, and no step begins or ends. -/
def CutShort (log : List (Action τ)) : Prop :=
  ∃ before pid argv directory env code after,
    log = before ++ .spawn pid argv directory env :: after ∧
    [.kill pid, .wait pid code] <:+: after ∧
    ∀ a ∈ after, a.isSpawn = false ∧ a.isGit = false ∧ a.isMark = false

/-- The program that was asked for after so many others is there, and the user interrupts it before
its end. -/
def Host.Cancels (host : Host τ) (n : ℕ) : Prop :=
  (host.program n).missing = false ∧ (host.program n).interrupted = true ∧
    (host.program n).reaped = false

/-- The system lets a runner kill the programs that the user interrupts. -/
def Host.MayKill (host : Host τ) : Prop :=
  ∀ n, (host.program n).interrupted = true → Command.shield? (host.program n) = none

/-- Where a runner may kill its programs, none is left alone. -/
lemma Host.MayKill.abandoned {host : Host τ} (h : host.MayKill) (n : ℕ) :
    Command.abandoned (host.program n) = false := by
  unfold Command.abandoned
  cases hi : (host.program n).interrupted with
  | false => rfl
  | true => simp [h n hi]

/-- An interruption stays one. -/
lemma Host.MayKill.interruption {host : Host τ} (h : host.MayKill) {n : ℕ}
    (hi : (host.program n).interrupted = true) :
    Command.interruption (host.program n) = .interrupted := by
  rw [Command.interruption, h n hi]

/-- A world after a computation that leaves nothing running: what it started is over, and if one of
its programs was interrupted, so was the computation. -/
structure World.Settles (host : Host τ) (fault : Option Fault) (w w' : World τ) : Prop where
  /-- Programs are asked for one after another. -/
  attempts_le : w.attempts ≤ w'.attempts
  /-- What was done. -/
  adds : ∃ log, w'.actions.toList = w.actions.toList ++ log ∧ Released log ∧
    ∀ n, w.attempts ≤ n → n < w'.attempts → host.Cancels n →
      fault = some .interrupted ∧ w'.attempts = n + 1 ∧ CutShort log

/-- More of what is neither a process nor a step may follow an interruption. -/
lemma CutShort.append {log : List (Action τ)} (h : CutShort log) {more : List (Action τ)}
    (hmore : ∀ a ∈ more, a.isSpawn = false ∧ a.isGit = false ∧ a.isMark = false) :
    CutShort (log ++ more) := by
  obtain ⟨before, pid, argv, directory, env, code, after, rfl, hkilled, hafter⟩ := h
  refine ⟨before, pid, argv, directory, env, code, after ++ more, by simp,
    hkilled.trans (List.prefix_append ..).isInfix, fun a ha => ?_⟩
  exact (List.mem_append.mp ha).elim (hafter a) (hmore a)

/-- Anything may come before an interruption. -/
lemma CutShort.prepend {log : List (Action τ)} (h : CutShort log) (earlier : List (Action τ)) :
    CutShort (earlier ++ log) := by
  obtain ⟨before, pid, argv, directory, env, code, after, rfl, hafter⟩ := h
  exact ⟨earlier ++ before, pid, argv, directory, env, code, after, by simp, hafter⟩

instance (host : Host τ) : Chains (World.Settles host) where
  refl w := ⟨le_rfl, [], by simp, trivial, fun n hle hlt => absurd hlt (Nat.not_lt.mpr hle)⟩
  trans := by
    intro fault u v w h h'
    obtain ⟨log, hlog, hreleased, hcancel⟩ := h.adds
    obtain ⟨more, hmore, hreleased', hcancel'⟩ := h'.adds
    refine ⟨h.attempts_le.trans h'.attempts_le, log ++ more, by rw [hmore, hlog, List.append_assoc],
      hreleased.append hreleased', fun n hle hlt hn => ?_⟩
    by_cases hfirst : n < v.attempts
    · cases (hcancel n hle hfirst hn).1
    · obtain ⟨hfault, hattempts, hcut⟩ := hcancel' n (Nat.le_of_not_lt hfirst) hlt hn
      exact ⟨hfault, hattempts, hcut.prepend log⟩

/-- Nothing is asked for and nothing is started. -/
def World.Idles (w w' : World τ) : Prop :=
  w'.attempts = w.attempts ∧ World.Adds (fun a => a.isStart = false) w w'

instance : IsPreorder (World τ) World.Idles where
  refl w := ⟨rfl, Std.Refl.refl (r := World.Adds fun a => a.isStart = false) w⟩
  trans _ _ _ h h' := ⟨h'.1.trans h.1, trans_of (World.Adds _) h.2 h'.2⟩

/-- Where nothing is started, nothing is left to be settled. -/
lemma World.Idles.settles {host : Host τ} {fault : Option Fault} {w w' : World τ}
    (h : World.Idles w w') : World.Settles host fault w w' := by
  obtain ⟨hattempts, log, hlog, hall⟩ := h
  refine ⟨hattempts.ge, log, hlog, Released.of_not_isStart hall, fun n hle hlt => ?_⟩
  omega

/-- After an interruption there may be more in which no process is started. -/
lemma World.Settles.followed {host : Host τ} {fault : Option Fault} {u v w : World τ}
    (h : World.Settles host fault u v) {more : List (Action τ)}
    (hattempts : w.attempts = v.attempts)
    (hmore : w.actions.toList = v.actions.toList ++ more)
    (hkinds : ∀ a ∈ more, a.isStart = false ∧ a.isGit = false ∧ a.isMark = false) :
    World.Settles host fault u w := by
  obtain ⟨log, hlog, hreleased, hcancel⟩ := h.adds
  refine ⟨hattempts ▸ h.attempts_le, log ++ more, by rw [hmore, hlog, List.append_assoc],
    hreleased.append (Released.of_not_isStart fun a ha => (hkinds a ha).1), fun n hle hlt hn => ?_⟩
  obtain ⟨hfault, hn', hcut⟩ := hcancel n hle (hattempts ▸ hlt) hn
  refine ⟨hfault, hattempts.trans hn', hcut.append fun a ha => ?_⟩
  obtain ⟨hstart, hgit, hmark⟩ := hkinds a ha
  exact ⟨Action.isSpawn_eq_false_of_isStart hstart, hgit, hmark⟩

namespace RunM

variable {host : Host τ}

/-- A computation that starts nothing settles. -/
lemma Leads.settles {m : RunM τ α} (h : Leads host World.Idles m) :
    Ends host (World.Settles host) m :=
  fun w => (h w).settles

/-- An action that starts nothing. -/
lemma act_idles {a : Action τ} (h : a.isStart = false) : Leads host World.Idles (act a) :=
  fun w => ⟨rfl, [a], by simp, List.forall_mem_singleton.mpr h⟩

end RunM

/-- Where Git is asked and the user is told something, nothing is started. -/
lemma World.AsksGit.idles {host : Host τ} {fault : Option Fault} {w w' : World τ}
    (h : World.AsksGit host fault w w') : World.Idles w w' := by
  obtain ⟨log, hlog, hall⟩ := h.adds
  refine ⟨h.attempts_eq, log, hlog, fun a ha => ?_⟩
  have hkind := hall a ha
  cases a with
  | git | tell => rfl
  | _ => cases hkind

/-- By inquiries nothing is started. -/
lemma World.AddsIdly.idles {w w' : World τ} (h : w.AddsIdly Action.IsInquiry w') :
    World.Idles w w' := by
  refine ⟨h.attempts_eq, h.adds.mono fun a ha => ?_⟩
  rcases ha with hgit | ⟨title, message, details, suggestion, rfl⟩
  · exact Action.isStart_of_isGit hgit
  · rfl

/-- A call of Git starts no process of a step. -/
lemma Git.call_idles (host : Host τ) (args : List String) (directory : Option String) :
    Leads host World.Idles (Git.call args directory).run :=
  fun w => (Git.call_asksGit host args directory w).idles

/-! ## Steps, jobs and runs -/

section Runs

variable [Timeline τ] (c : Console) (ws : Workspace) (base : Environment) {host : Host τ}
variable (hmay : host.MayKill)
include hmay

namespace Sequence

/-- The body of a step settles. -/
lemma runBody_settles (job : Job) (step : Step) (limit : Option τ) :
    Ends host (World.Settles host) (runBody c ws base job step limit) := by
  intro w
  have hends := runBody_ends c ws base host job step limit w
  generalize (runBody c ws base job step limit host w).1 = result at hends ⊢
  generalize (runBody c ws base job step limit host w).2 = w' at hends ⊢
  cases hends with
  | action hstep hasks => exact hasks.idles.settles
  | noPlace | hidden | noDirectory | unknownShell =>
    exact (Std.Refl.refl w : World.Idles w w).settles
  | missing hstep hplace hdirectory hshell hmissing
  | refused hstep hplace hdirectory hshell hmissing =>
    refine ⟨Nat.le_succ _, [], by simp, trivial, fun n hle hlt hn => ?_⟩
    obtain rfl : n = w.attempts := Nat.le_antisymm (Nat.le_of_lt_succ hlt) hle
    exact absurd hn.1 (by simp [hmissing])
  | @started directory words p hstep hplace hdirectory hshell hprogram hthere =>
    subst hprogram
    have hwaits := hmay.abandoned w.attempts
    refine ⟨Nat.le_succ _, _, World.did_actions .., Command.released_trace _ _ _ hwaits ..,
      fun n hle hlt hn => ?_⟩
    obtain rfl : n = w.attempts := Nat.le_antisymm (Nat.le_of_lt_succ hlt) hle
    obtain ⟨-, hi, hr⟩ := hn
    refine ⟨by simp [hi, hmay.interruption hi], rfl, ?_⟩
    exact ⟨[], _, _, _, _, _, _, rfl, Command.kill_wait_infix_trace c _ limit hwaits hi hr,
      fun a ha => Command.kinds_of_mem_trace c _ _ limit ha⟩

/-- A run settles. -/
theorem run_settles (wf : Workflow) (e : Event) :
    Ends host (World.Settles host) (run c wf e ws) :=
  have hremarks : Remarks host (World.Settles host) := ⟨fun _ => (act_idles rfl).settles,
    fun _ _ _ => (act_idles rfl).settles, fun _ _ => (act_idles rfl).settles⟩
  run_ends (hremarks.reports c) ws fun job _ step _ => runBody_settles c ws _ hmay job step

end Sequence

/-! ## Triggers -/

namespace Trigger

variable (wf : Workflow) (e : Event)

omit [Timeline τ] hmay in
/-- A trigger starts nothing around its run. -/
lemma frames_settles : Frames host World.Idles (World.Settles host) where
  part h := h.settles
  git := Git.call_idles host
  tell _ := Leads.tell (act_idles rfl)
  opened _ _ _ := ⟨rfl, [.makeTemporary _], World.did_actions .., List.forall_mem_singleton.mpr rfl⟩
  closed _ h := h.followed rfl (World.did_actions ..)
    (List.forall_mem_singleton.mpr ⟨rfl, rfl, rfl⟩)

/-- A trigger settles. -/
theorem trigger_settles (o : RunOptions) :
    Ends host (World.Settles host) (trigger c wf e o) :=
  frames_settles.trigger_ends (fun ws => Sequence.run_settles c ws hmay wf e) o

end Trigger

end Runs

/-! ## Streams that may reject something -/

/-- Whatever is started on the way from one world to another is over soon. -/
def World.Frees (w w' : World τ) : Prop :=
  ∃ log, w'.actions.toList = w.actions.toList ++ log ∧ Released log

instance : IsPreorder (World τ) World.Frees where
  refl w := ⟨[], by simp, trivial⟩
  trans _ _ _ h h' := by
    obtain ⟨log, hlog, hreleased⟩ := h
    obtain ⟨more, hmore, hreleased'⟩ := h'
    exact ⟨log ++ more, by rw [hmore, hlog, List.append_assoc], hreleased.append hreleased'⟩

/-- Where nothing is started, nothing has to be over. -/
lemma World.Adds.frees {P : Action τ → Prop} {w w' : World τ} (h : w.Adds P w')
    (hP : ∀ a, P a → a.isStart = false) : w.Frees w' := by
  obtain ⟨log, hlog, hall⟩ := h
  exact ⟨log, hlog, Released.of_not_isStart fun a ha => hP a (hall a ha)⟩

section Rejecting

variable [Streams] [Timeline τ] {host : Host τ}

omit [Streams] [Timeline τ] in
/-- An action that starts nothing. -/
lemma RunM.act_frees {a : Action τ} (h : a.isStart = false) : Leads host World.Frees (act a) :=
  fun _ => (World.adds_did rfl _).frees fun _ => by rintro rfl; exact h

omit [Timeline τ] in
/-- Telling something starts nothing, even if it is not taken. -/
lemma RunM.tell_frees (m : Message) : Leads host World.Frees (tell m) := fun w =>
  (tell_only_tells host m w).frees fun _ => Action.isStart_of_isTell

/-- A process that may be killed is over soon, also if it is broken off. -/
lemma Command.await_released (c : Console) (pid : ℕ) {p : Program τ} (hp : shield? p = none)
    (limit : Option τ) (w : World τ) :
    ∃ log, (await c pid p limit host w).2.actions.toList = w.actions.toList ++ log ∧
      ∀ argv directory env, Released (.spawn pid argv directory env :: log) := by
  obtain ⟨told, rest, hlog, htold, hrest⟩ := await_adds c pid p limit host w
  refine ⟨_, hlog, fun argv directory env => ?_⟩
  rcases hrest with rfl | rfl
  · have hwaits : abandoned p = false := by simp [abandoned, hp]
    exact released_conclusion hwaits htold argv directory env
  · exact released_stopping hp htold argv directory env

variable (hfree : ∀ n, Command.shield? (host.program n) = none) (c : Console)
include hfree

/-- A command leaves nothing running. -/
lemma Command.execute_frees (job : Job) (step : Step) (directory : Location) (env : Environment)
    (limit : Option τ) : Leads host World.Frees (execute c job step directory env limit) := by
  intro w
  unfold execute
  cases shellWords? step.shell with
  | none => exact Std.Refl.refl (r := World.Frees) w
  | some words =>
    dsimp only
    rw [RunM.bind_apply, spawn_eq]
    cases (host.program w.attempts).missing with
    | true =>
      cases (host.program w.attempts).refusal with
      | none => exact ⟨[], by simp, trivial⟩
      | some reason => exact ⟨[], by simp, trivial⟩
    | false =>
      simp only [Bool.false_eq_true, if_false, RunM.bind_apply]
      obtain ⟨log, hlog, hreleased⟩ := await_released c (1001 + w.started) (hfree w.attempts) limit
        (((w.asked 1).changed (host.program w.attempts).changes directory).did
          [.spawn (1001 + w.started) (words ++ [step.run.getD ""]) directory env])
      refine ⟨.spawn (1001 + w.started) (words ++ [step.run.getD ""]) directory env :: log, ?_,
        hreleased ..⟩
      generalize await c (1001 + w.started) (host.program w.attempts) limit host _ = ended at hlog ⊢
      rcases ended with ⟨_ | code, w'⟩
      all_goals simpa using hlog

omit [Timeline τ] hfree in
/-- The action of a step starts nothing. -/
lemma Sequence.runAction_frees (ws : Workspace) (job : Job) (step : Step) :
    Leads host World.Frees (runAction ws job step) :=
  have hgit : ∀ call : List String × Option String,
      Leads host World.Frees (Git.call call.1 call.2).run := fun call w =>
    (Git.call_adds_git host call.1 call.2 w).frees fun _ => Action.isStart_of_isGit
  runAction_leads (fun _ call _ => hgit call) tell_frees job

/-- The body of a step leaves nothing running. -/
lemma Sequence.runBody_frees (ws : Workspace) (base : Environment) (job : Job) (step : Step)
    (limit : Option τ) : Leads host World.Frees (runBody c ws base job step limit) := by
  unfold runBody runCommand
  split
  · exact runAction_frees ws job step
  · cases directoryOf ws.place step.cwd with
    | error fault => exact Leads.throw fault
    | ok directory =>
      refine Leads.get.bind fun w => ?_
      split
      · exact Leads.bind (fun w => Std.Refl.refl w) fun _ =>
          Command.execute_frees hfree c job step directory _ limit
      · refine Leads.bind (fun w => Std.Refl.refl w) fun _ => Leads.get.bind fun _ => ?_
        split
        · exact Leads.throw _
        · exact Leads.pure _

/-- A run leaves nothing running, also if it is broken off at what it tells. -/
lemma Sequence.run_frees (ws : Workspace) (wf : Workflow) (e : Event) :
    Leads host World.Frees (run c wf e ws) :=
  have hremarks : Remarks host (fun _ => World.Frees) :=
    ⟨tell_frees, fun _ _ _ => act_frees rfl, fun _ _ => act_frees rfl⟩
  run_ends (hremarks.reports c) ws fun job _ step _ => runBody_frees hfree c ws _ job step

end Rejecting

/-! ## The command line -/

namespace Commands

variable [Timeline τ] (c : Console) (host : Host τ)

/-- Running a workflow: either no trigger is come to, or it is started after nothing but questions,
and tells what the exit code is. -/
lemma run_cases (workflow : Option String) (kind : String) (branch sha : Option String)
    (o : RunOptions) (w : World τ) :
    World.Idles w ((run c workflow kind branch sha o).run host w).2 ∨
      ∃ wf e w₁, World.Idles w w₁ ∧ (run c workflow kind branch sha o).run host w =
        (finish c (Trigger.trigger c wf e o host w₁).1 >>= fun exit => pure (.ok exit)) host
          (Trigger.trigger c wf e o host w₁).2 := by
  have hfinds := prepare_finds workflow kind branch sha host w
  rw [run, run_of_prepare]
  generalize (prepare workflow kind branch sha).run host w = prepared at hfinds ⊢
  cases hfinds with
  | refused hlog | broken hlog => exact Or.inl hlog.idles
  | @found found w₁ hgit =>
    have hidles : World.Idles w w₁ := World.AddsIdly.idles (hgit.mono fun _ h => Or.inl h)
    exact Or.inr ⟨found.1, found.2, w₁, hidles, rfl⟩

omit [Timeline τ] in
/-- A fault other than an interruption is told, and the command has failed. -/
lemma finish_of_ne_interrupted {fault : Fault} (h : fault ≠ .interrupted) (w : World τ) :
    finish c (.error fault) host w =
      (.ok (.code failed), w.did [.tell (c.fault (faultKind fault) fault.message)]) := by
  cases fault with
  | interrupted => exact absurd rfl h
  | _ => rfl

omit [Timeline τ] in
/-- The end of a run: it is told how the run ended, with an exit code of its own for one that was
interrupted. -/
lemma finish_apply (result : Except Fault (Option RunResult)) (w : World τ) :
    ∃ exit more, finish c result host w = (.ok exit, w.did more) ∧
      (∀ a ∈ more, a.isStart = false ∧ a.isGit = false ∧ a.isMark = false) ∧
      (result = .error .interrupted → exit = .code interrupted) := by
  rcases result with fault | result
  · by_cases hfault : fault = .interrupted
    · subst hfault
      exact ⟨_, [.tell _], rfl, List.forall_mem_singleton.mpr ⟨rfl, rfl, rfl⟩, fun _ => rfl⟩
    · exact ⟨_, [.tell _], finish_of_ne_interrupted c host hfault w,
        List.forall_mem_singleton.mpr ⟨rfl, rfl, rfl⟩, fun h => absurd (Except.error.inj h) hfault⟩
  · exact ⟨_, [], (congrArg _ (World.did_nil w).symm), nofun, nofun⟩

variable {host} in
/-- Running a workflow settles, and an interruption is told by the exit code. -/
lemma run_settles (hmay : host.MayKill) (workflow : Option String) (kind : String)
    (branch sha : Option String) (o : RunOptions) (w : World τ) :
    ∃ fault, World.Settles host fault w ((run c workflow kind branch sha o).run host w).2 ∧
      (fault = some .interrupted →
        ((run c workflow kind branch sha o).run host w).1 = .ok (.ok (.code interrupted))) := by
  rcases run_cases c host workflow kind branch sha o w with hidle | ⟨wf, e, w₁, hidle, heq⟩
  · exact ⟨none, hidle.settles, nofun⟩
  have hsettles := Chains.trans hidle.settles (Trigger.trigger_settles c hmay wf e o w₁)
  obtain ⟨exit, more, hfinish, hkinds, hexit⟩ :=
    finish_apply c host (Trigger.trigger c wf e o host w₁).1 (Trigger.trigger c wf e o host w₁).2
  rw [heq, RunM.bind_apply, hfinish]
  refine ⟨_, hsettles.followed rfl (World.did_actions ..) hkinds, fun hfault => ?_⟩
  rw [hexit (faultOf_eq_some_iff.mp hfault)]
  rfl

end Commands

/-! ## No process and no timer is left -/

/-- Nothing that was started since another world is left running: every process was waited for and
every timer cancelled.  If the user interrupted a program, this is told, the program was killed, and
nothing was started after it. -/
structure World.Clears (w : World τ) (host : Host τ) (w' : World τ) (told : Prop) : Prop where
  /-- What was started is over. -/
  released : Released (w.added w')
  /-- A program that the user interrupts is the last one that is asked for. -/
  cancelled : ∀ n, w.attempts ≤ n → n < w'.attempts → host.Cancels n →
    told ∧ w'.attempts = n + 1 ∧ CutShort (w.added w')

/-- Where what was started is settled nothing is left, with a fault that is told. -/
lemma World.Settles.clears {host : Host τ} {fault : Option Fault} {w w' : World τ} {told : Prop}
    (h : World.Settles host fault w w') (htold : fault = some .interrupted → told) :
    w.Clears host w' told := by
  obtain ⟨log, hlog, hreleased, hcancel⟩ := h.adds
  rw [← World.added_eq hlog] at hreleased hcancel
  refine ⟨hreleased, fun n hle hlt hn => ?_⟩
  obtain ⟨hfault, hattempts, hcut⟩ := hcancel n hle hlt hn
  exact ⟨htold hfault, hattempts, hcut⟩

/-- A host on which the user interrupts the second program. -/
def interruptedHost : Host Float :=
  Host.scripted [{ duration := 1.0 }, { duration := 3.0, interrupted := true }]

/-- What comes of building and packing when the tests are interrupted, and the world after it. -/
def interruptedTest : Except Fault RunResult × World Float :=
  Sequence.run {} buildAndPack { kind := "push", branch := .text "main" }
    (Workspace.inPlace [] "/" "") interruptedHost World.initial

/-- What comes of building and packing when the build writes what the streams reject, and the world
after it. -/
def rejectedBuild : Except Fault RunResult × World Float :=
  @Sequence.run Float _ asciiStreams {} buildAndPack { kind := "push", branch := .text "main" }
    (Workspace.inPlace [] "/" "") (writingHost [195, 169, 10]) World.initial

end CiRunner
