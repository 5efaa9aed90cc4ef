import CiRunner.Proofs.Run.Course
import CiRunner.Proofs.Run.Isolation

/-!
# When processes are killed

A process is killed by its timer when its time is up, and by an interruption of the user.  Both are
meant for a process that is still there, and in both cases it is waited for afterwards.

The timer of a process is cancelled only after it was waited for, though, and it may fire in
between. And an interruption may come while the end of the process is awaited, so that the wait is
over before the process is killed.  Either way a process is killed that is gone, whose number may be
the one of another process by now.  In all runs there is no other way to do so
(`killed_after_end_iff_timer_late`): what is done about a process is the course of its program, and
numbers are given to one process after another.
-/

namespace CiRunner

open RunM

variable {τ α : Type}

/-! ## What is done about a process -/

/-- The process that an action is about. -/
def Action.process? : Action τ → Option ℕ
  | spawn pid .. => some pid
  | startTimer pid _ => some pid
  | fireTimer pid => some pid
  | cancelTimer pid => some pid
  | kill pid => some pid
  | wait pid _ => some pid
  | _ => none

/-- What is done about a process, in order. -/
def doneAbout (pid : ℕ) (log : List (Action τ)) : List (Action τ) :=
  log.filter fun a => a.process? = some pid

@[simp] lemma doneAbout_append (pid : ℕ) (log more : List (Action τ)) :
    doneAbout pid (log ++ more) = doneAbout pid log ++ doneAbout pid more :=
  List.filter_append ..

/-- One action about a process comes after another one in a log exactly if it does among what is
done about the process. -/
lemma pair_sublist_doneAbout_iff {pid : ℕ} {a b : Action τ} (ha : a.process? = some pid)
    (hb : b.process? = some pid) (log : List (Action τ)) :
    [a, b].Sublist (doneAbout pid log) ↔ [a, b].Sublist log := by
  refine ⟨fun h => h.trans List.filter_sublist, fun h => ?_⟩
  have hkept : doneAbout pid [a, b] = [a, b] := by simp [doneAbout, ha, hb]
  exact hkept ▸ h.filter _

/-- The numbers of the processes that a log is about lie in a range. -/
def NumbersWithin (low high : ℕ) (log : List (Action τ)) : Prop :=
  ∀ a ∈ log, ∀ pid ∈ a.process?, low ≤ pid ∧ pid < high

/-- Nothing is done about other processes. -/
lemma NumbersWithin.doneAbout_eq_nil {low high pid : ℕ} {log : List (Action τ)}
    (h : NumbersWithin low high log) (hpid : pid < low ∨ high ≤ pid) : doneAbout pid log = [] := by
  refine List.filter_eq_nil_iff.mpr fun a ha hprocess => ?_
  have hrange := h a ha pid (by simpa using hprocess)
  omega

/-! ## Courses of programs -/

section Courses

variable [Timeline τ] (pid : ℕ) (p : Program τ) (limit : Option τ)

namespace Command

/-- What is done about a process from its start to its end. -/
def course : List (Action τ) :=
  (limit.map (.startTimer pid)).toList ++
    (if overruns p limit then [.fireTimer pid, .kill pid] else []) ++
      if p.interrupted && !p.reaped then [.kill pid] else []

/-- The course of a process is about it, and it is not waited for. -/
lemma of_mem_course {a : Action τ} (h : a ∈ course pid p limit) :
    a.process? = some pid ∧ a.isWait = false := by
  simp only [course, List.mem_append, Option.mem_toList, List.mem_ite_nil_right] at h
  rcases h with (h | ⟨-, h⟩) | ⟨-, h⟩
  · obtain ⟨t, -, rfl⟩ := Option.map_eq_some_iff.mp h
    exact ⟨rfl, rfl⟩
  · rcases List.mem_pair.mp h with rfl | rfl <;> exact ⟨rfl, rfl⟩
  · obtain rfl := List.mem_singleton.mp h
    exact ⟨rfl, rfl⟩

/-- The aftermath of a process is about it, and it is not waited for again. -/
lemma of_mem_aftermath {a : Action τ} (h : a ∈ aftermath pid p limit) :
    a.process? = some pid ∧ a.isWait = false := by
  simp only [aftermath, List.mem_append, List.mem_ite_nil_right] at h
  rcases h with (⟨-, h⟩ | ⟨-, h⟩) | ⟨-, h⟩
  · obtain rfl := List.mem_singleton.mp h
    exact ⟨rfl, rfl⟩
  · rcases List.mem_pair.mp h with rfl | rfl <;> exact ⟨rfl, rfl⟩
  · obtain rfl := List.mem_singleton.mp h
    exact ⟨rfl, rfl⟩

/-- The trace of a process is its output in the middle of its course, its end and the aftermath. -/
lemma trace_eq (c : Console) : ∃ before after, course pid p limit = before ++ after ∧
    trace c pid p limit = before ++ (pieces p.output).map (fun piece => .tell (c.echo piece)) ++
      after ++ (ending pid p limit ++ aftermath pid p limit) :=
  ⟨_, _, List.append_assoc .., by simp only [trace, life, List.append_assoc]⟩

/-- The end of a process and its aftermath are about it. -/
lemma process?_of_mem_ending {a : Action τ}
    (h : a ∈ ending pid p limit ++ aftermath pid p limit) : a.process? = some pid := by
  rcases List.mem_append.mp h with h | h
  · rw [(mem_ending_iff.mp h).2]
    rfl
  · exact (of_mem_aftermath pid p limit h).1

/-- Every part of the trace of a process is its output or about the process. -/
lemma process?_of_mem_trace (c : Console) {a : Action τ} (h : a ∈ trace c pid p limit) :
    a.process? = none ∨ a.process? = some pid := by
  obtain ⟨before, after, hcourse, htrace⟩ := trace_eq pid p limit c
  have hall : ∀ b ∈ before ++ after, b.process? = some pid := fun b hb =>
    (of_mem_course pid p limit (hcourse ▸ hb)).1
  rw [htrace] at h
  rcases List.mem_append.mp h with h | h
  · rcases List.mem_append.mp h with h | h
    · rcases List.mem_append.mp h with h | h
      · exact Or.inr (hall a (List.mem_append_left _ h))
      · obtain ⟨piece, -, rfl⟩ := List.mem_map.mp h
        exact Or.inl rfl
    · exact Or.inr (hall a (List.mem_append_right _ h))
  · exact Or.inr (process?_of_mem_ending pid p limit h)

/-- What is done about a process is its course, its end and the aftermath. -/
lemma doneAbout_trace (c : Console) :
    doneAbout pid (trace c pid p limit) =
      course pid p limit ++ (ending pid p limit ++ aftermath pid p limit) := by
  have houtput : doneAbout pid ((pieces p.output).map fun piece => .tell (c.echo piece)) =
      ([] : List (Action τ)) := List.filter_eq_nil_iff.mpr fun a ha => by
    obtain ⟨piece, -, rfl⟩ := List.mem_map.mp ha
    simp [Action.process?]
  have hkept : ∀ {log : List (Action τ)}, (∀ a ∈ log, a.process? = some pid) →
      doneAbout pid log = log := fun hlog =>
    List.filter_eq_self.mpr fun a ha => decide_eq_true (hlog a ha)
  obtain ⟨before, after, hcourse, htrace⟩ := trace_eq pid p limit c
  have hafter : doneAbout pid (ending pid p limit ++ aftermath pid p limit) =
      ending pid p limit ++ aftermath pid p limit :=
    hkept fun a ha => process?_of_mem_ending pid p limit ha
  calc doneAbout pid (trace c pid p limit)
      = doneAbout pid (before ++ after) ++
          doneAbout pid (ending pid p limit ++ aftermath pid p limit) := by
        rw [htrace, doneAbout_append, doneAbout_append, doneAbout_append, houtput, List.append_nil,
          ← doneAbout_append]
    _ = course pid p limit ++ (ending pid p limit ++ aftermath pid p limit) := by
        rw [hafter, ← hcourse, hkept fun a ha => (of_mem_course pid p limit ha).1]

/-- In the aftermath a process is killed by an interruption that finds it waited for, and by a timer
that fires late. -/
lemma kill_mem_aftermath_iff : .kill pid ∈ aftermath pid p limit ↔
    p.interrupted = true ∧ p.reaped = true ∨ firesLate p limit = true := by
  simp [aftermath]

/-- The timer of a process fires in the aftermath if it fires late. -/
lemma fireTimer_mem_aftermath_iff :
    .fireTimer pid ∈ aftermath pid p limit ↔ firesLate p limit = true := by
  simp [aftermath]

end Command

end Courses

/-- A process of a host: it was started, and then what was done about it was the course, the end and
the aftermath of a program of the host, up to its time limit. -/
def Host.HasRun [Timeline τ] (host : Host τ) (pid : ℕ) (p : Program τ) (done : List (Action τ)) :
    Prop :=
  (∃ n, p = host.program n) ∧ ∃ argv directory env limit,
    done = .spawn pid argv directory env ::
      (Command.course pid p limit ++ (Command.ending pid p limit ++ Command.aftermath pid p limit))

/-- If a process is waited for only once, what comes after a wait comes after that one. -/
lemma exists_wait_sublist_iff {pid : ℕ} {code : ℤ} {b : Action τ} {before after : List (Action τ)}
    (hbefore : ∀ a ∈ before, a.isWait = false) (hafter : ∀ a ∈ after, a.isWait = false) :
    (∃ code', [.wait pid code', b].Sublist (before ++ .wait pid code :: after)) ↔ b ∈ after := by
  constructor
  · rintro ⟨code', h⟩
    induction before with
    | nil =>
      cases h with
      | cons _ h => cases hafter _ (h.subset List.mem_cons_self)
      | cons_cons _ h => exact List.singleton_sublist.mp h
    | cons a before ih =>
      obtain ⟨ha, hbefore⟩ := List.forall_mem_cons.mp hbefore
      cases h with
      | cons _ h => exact ih hbefore h
      | cons_cons _ h => cases ha
  · intro h
    exact ⟨code, ((List.singleton_sublist.mpr h).cons_cons _).trans (List.sublist_append_right ..)⟩

/-- What comes after the wait for a process is its aftermath.  A process that is left alone is not
waited for. -/
lemma Host.HasRun.exists_wait_sublist_iff [Timeline τ] {host : Host τ} {pid : ℕ} {p : Program τ}
    {done : List (Action τ)} (h : host.HasRun pid p done) :
    ∃ limit, ∀ b, (∃ code, [.wait pid code, b].Sublist done) ↔
      Command.abandoned p = false ∧ b ∈ Command.aftermath pid p limit := by
  obtain ⟨-, argv, directory, env, limit, rfl⟩ := h
  refine ⟨limit, fun b => ?_⟩
  have hbefore : ∀ a ∈ .spawn pid argv directory env :: Command.course pid p limit,
      a.isWait = false :=
    List.forall_mem_cons.mpr ⟨rfl, fun a ha => (Command.of_mem_course pid p limit ha).2⟩
  have hafter : ∀ a ∈ Command.aftermath pid p limit, a.isWait = false := fun a ha =>
    (Command.of_mem_aftermath pid p limit ha).2
  cases habandoned : Command.abandoned p with
  | false =>
    rw [Command.ending, habandoned, and_iff_right rfl]
    exact CiRunner.exists_wait_sublist_iff hbefore hafter
  | true =>
    refine iff_of_false ?_ (by simp)
    rintro ⟨code, hsublist⟩
    rw [Command.ending, habandoned, if_pos rfl, List.nil_append, ← List.cons_append] at hsublist
    rcases List.mem_append.mp (hsublist.subset List.mem_cons_self) with hwait | hwait
    · cases hbefore _ hwait
    · cases hafter _ hwait

/-! ## Numbers of processes -/

variable [Timeline τ]

/-- A world after a computation that has started processes under numbers of their own: what was done
about each of them is a run of a program. -/
structure World.Numbers (host : Host τ) (w w' : World τ) : Prop where
  /-- Processes are counted. -/
  started_le : w.started ≤ w'.started
  /-- What was done. -/
  adds : ∃ log, w'.actions.toList = w.actions.toList ++ log ∧
    NumbersWithin (1001 + w.started) (1001 + w'.started) log ∧
    ∀ pid, 1001 + w.started ≤ pid → pid < 1001 + w'.started →
      ∃ p, host.HasRun pid p (doneAbout pid log)

instance (host : Host τ) : IsPreorder (World τ) (World.Numbers host) where
  refl w := ⟨le_rfl, [], by simp, by simp [NumbersWithin], fun pid hle hlt => by omega⟩
  trans := by
    intro u v w h h'
    obtain ⟨log, hlog, hwithin, hruns⟩ := h.adds
    obtain ⟨more, hmore, hwithin', hruns'⟩ := h'.adds
    have hle := h.started_le
    have hle' := h'.started_le
    refine ⟨hle.trans hle', log ++ more, by rw [hmore, hlog, List.append_assoc], ?_, ?_⟩
    · intro a ha pid hpid
      rcases List.mem_append.mp ha with ha | ha
      · have := hwithin a ha pid hpid
        omega
      · have := hwithin' a ha pid hpid
        omega
    · intro pid hlow hhigh
      rw [doneAbout_append]
      -- the number was given to the process in one of the two parts
      by_cases hfirst : pid < 1001 + v.started
      · rw [hwithin'.doneAbout_eq_nil (Or.inl hfirst), List.append_nil]
        exact hruns pid hlow hfirst
      · rw [hwithin.doneAbout_eq_nil (Or.inr (Nat.le_of_not_lt hfirst)), List.nil_append]
        exact hruns' pid (Nat.le_of_not_lt hfirst) hhigh

omit [Timeline τ] in
/-- No process is started, and nothing is done about one. -/
def World.StartsNone (w w' : World τ) : Prop :=
  w'.started = w.started ∧ World.Adds (fun a => a.process? = none) w w'

omit [Timeline τ] in
instance : IsPreorder (World τ) World.StartsNone where
  refl w := ⟨rfl, Std.Refl.refl (r := World.Adds fun a => a.process? = none) w⟩
  trans _ _ _ h h' := ⟨h'.1.trans h.1, trans_of (World.Adds _) h.2 h'.2⟩

/-- Where no process is started, no number is given. -/
lemma World.StartsNone.numbers {host : Host τ} {w w' : World τ} (h : World.StartsNone w w') :
    World.Numbers host w w' := by
  obtain ⟨hstarted, log, hlog, hnone⟩ := h
  refine ⟨hstarted.ge, log, hlog, fun a ha pid hpid => ?_, fun pid hle hlt => ?_⟩
  · rw [hnone a ha] at hpid
    cases hpid
  · omega

omit [Timeline τ] in
/-- An action that is about no process. -/
lemma RunM.act_startsNone {host : Host τ} {a : Action τ} (h : a.process? = none) :
    Leads host World.StartsNone (act a) :=
  fun w => ⟨rfl, [a], by simp, List.forall_mem_singleton.mpr h⟩

omit [Timeline τ] in
/-- A call of Git is about no process of a step. -/
lemma Git.call_startsNone (host : Host τ) (args : List String) (directory : Option String) :
    Leads host World.StartsNone (Git.call args directory).run := by
  intro w
  rw [Git.call_eq]
  cases host.git w.gitCalls args with
  | none => exact ⟨rfl, [.git args directory], by simp, List.forall_mem_singleton.mpr rfl⟩
  | some reply => exact ⟨rfl, [.git args directory], by simp, List.forall_mem_singleton.mpr rfl⟩

/-! ## Steps, runs and triggers -/

section Runs

variable (c : Console) (ws : Workspace) (host : Host τ) (wf : Workflow) (e : Event)

omit [Timeline τ] in
/-- The action of a step starts no process. -/
lemma Sequence.runAction_startsNone (job : Job) (step : Step) :
    Leads host World.StartsNone (runAction ws job step) :=
  runAction_leads (fun _ call _ => Git.call_startsNone host call.1 call.2)
    (fun _ => act_startsNone rfl) job

/-- The body of a step starts at most one process, under the next number. -/
lemma Sequence.runBody_numbers (base : Environment) (job : Job) (step : Step) (limit : Option τ) :
    Leads host (World.Numbers host) (runBody c ws base job step limit) := by
  intro w
  by_cases haction : step.isAction = true
  · rw [runBody, if_pos haction]
    exact (runAction_startsNone ws host job step w).numbers
  have hends := runBody_ends c ws base host job step limit w
  generalize (runBody c ws base job step limit host w).1 = result at hends
  generalize (runBody c ws base job step limit host w).2 = w' at hends ⊢
  cases hends with
  | action hstep => exact absurd hstep haction
  | noPlace | hidden | noDirectory | unknownShell => exact Std.Refl.refl w
  | missing | refused => exact World.StartsNone.numbers ⟨rfl, [], by simp, by simp⟩
  | @started directory words p hstep hplace hdirectory hshell hprogram hthere =>
    -- the process gets the next number, and the whole trace is about it
    refine ⟨Nat.le_succ _, _, World.did_actions .., fun a ha number hnumber => ?_,
      fun number hlow hhigh => ?_⟩
    · have hprocess : a.process? = none ∨ a.process? = some (1001 + w.started) := by
        rcases List.mem_cons.mp ha with rfl | ha
        · exact Or.inr rfl
        · exact Command.process?_of_mem_trace _ p limit c ha
      obtain rfl : 1001 + w.started = number := by
        rcases hprocess with hnone | hsome
        · rw [hnone] at hnumber
          cases hnumber
        · exact Option.some.inj (hsome.symm.trans hnumber)
      exact ⟨le_rfl, Nat.lt_succ_self _⟩
    · obtain rfl : number = 1001 + w.started := Nat.le_antisymm (Nat.le_of_lt_succ hhigh) hlow
      have hdone : ∀ (argv : List String) (env : Environment),
          doneAbout (1001 + w.started) (.spawn (1001 + w.started) argv directory env ::
            Command.trace c (1001 + w.started) p limit) =
          .spawn (1001 + w.started) argv directory env ::
            doneAbout (1001 + w.started) (Command.trace c (1001 + w.started) p limit) :=
        fun argv env => List.filter_cons_of_pos (decide_eq_true rfl)
      rw [hdone, Command.doneAbout_trace]
      exact ⟨p, ⟨_, hprogram.symm⟩, _, _, _, limit, rfl⟩

/-- A run starts its processes under numbers of their own. -/
lemma Sequence.run_numbers : Leads host (World.Numbers host) (run c wf e ws) := by
  have hremarks : Remarks host fun _ => World.Numbers host :=
    ⟨fun m w => (Leads.tell (act_startsNone rfl) w : World.StartsNone w (tell m host w).2).numbers,
      fun _ _ _ w => (act_startsNone rfl w).numbers,
      fun _ _ w => (act_startsNone rfl w).numbers⟩
  exact run_ends (hremarks.reports c) ws fun job _ step _ => runBody_numbers c ws host _ job step

namespace Trigger

/-- A trigger starts no process around its run. -/
lemma frames_numbers : Frames host World.StartsNone fun _ => World.Numbers host where
  part h := h.numbers
  git := Git.call_startsNone host
  tell _ := Leads.tell (act_startsNone rfl)
  opened _ _ _ := ⟨rfl, [.makeTemporary _], World.did_actions .., List.forall_mem_singleton.mpr rfl⟩
  closed {_ _ v} place h := by
    have hclosed : World.StartsNone v (Workspace.closed v place) :=
      ⟨rfl, [.removeTemporary place], World.did_actions .., List.forall_mem_singleton.mpr rfl⟩
    exact trans_of (World.Numbers host) h hclosed.numbers

/-- A trigger starts its processes under numbers of their own. -/
lemma trigger_numbers (o : RunOptions) :
    Leads host (World.Numbers host) (trigger c wf e o) :=
  (frames_numbers host).trigger_ends (fun ws => Sequence.run_numbers c ws host wf e) o

end Trigger

end Runs

/-! ## Processes that are gone -/

/-- How the processes are killed that were started since another world. -/
structure World.Signals (host : Host τ) (w w' : World τ) : Prop where
  /-- Whatever is done about a process, the process has run. -/
  runs : ∀ a ∈ w.added w', ∀ pid ∈ a.process?, ∃ p, host.HasRun pid p (doneAbout pid (w.added w'))
  /-- No process is killed before it is started. -/
  started : ∀ pid, .kill pid ∈ w.added w' → ∃ argv directory env,
    [.spawn pid argv directory env, .kill pid].Sublist (w.added w')
  /-- A process is killed after it was waited for exactly if its timer fires after that, or if the
  user interrupts it when it was waited for. -/
  late : ∀ pid, (∃ code, [.wait pid code, .kill pid].Sublist (w.added w')) ↔
    (∃ code, [.wait pid code, .fireTimer pid].Sublist (w.added w')) ∨
      ∃ p, host.HasRun pid p (doneAbout pid (w.added w')) ∧ p.interrupted = true ∧ p.reaped = true
  /-- So no such process is killed if no timer fires while it is cancelled, and no interruption
  finds a process that was waited for. -/
  inTime : (∀ n, (host.program n).firesLate = false) →
    (∀ n, (host.program n).interrupted = true → (host.program n).reaped = false) →
      ∀ pid code, ¬[.wait pid code, .kill pid].Sublist (w.added w')

/-- Where processes have numbers of their own, only late timers and late interruptions kill those
that are gone. -/
lemma World.Numbers.signals {host : Host τ} {w w' : World τ} (h : World.Numbers host w w') :
    World.Signals host w w' := by
  obtain ⟨-, log, hlog, hwithin, hruns⟩ := h
  rw [← World.added_eq hlog] at hwithin hruns
  set log' := w.added w'
  have hrun : ∀ a ∈ log', ∀ pid ∈ a.process?, ∃ p, host.HasRun pid p (doneAbout pid log') :=
    fun a ha pid hpid => hruns pid (hwithin a ha pid hpid).1 (hwithin a ha pid hpid).2
  have hafter : ∀ {pid p}, host.HasRun pid p (doneAbout pid log') →
      ∃ limit, ∀ b, b.process? = some pid → ((∃ code, [.wait pid code, b].Sublist log') ↔
        Command.abandoned p = false ∧ b ∈ Command.aftermath pid p limit) := by
    intro pid p hp
    obtain ⟨limit, hiff⟩ := hp.exists_wait_sublist_iff
    refine ⟨limit, fun b hb => (exists_congr fun code => ?_).trans (hiff b)⟩
    exact (pair_sublist_doneAbout_iff rfl hb log').symm
  have hwaited : ∀ {pid code b}, [.wait pid code, b].Sublist log' →
      ∃ p, host.HasRun pid p (doneAbout pid log') :=
    fun h => hrun _ (h.subset List.mem_cons_self) _ rfl
  refine ⟨hrun, fun pid hkill => ?_, fun pid => ⟨?_, ?_⟩, fun hclean hearly pid code h => ?_⟩
  · obtain ⟨p, -, argv, directory, env, limit, hdone⟩ := hrun _ hkill pid rfl
    refine ⟨argv, directory, env, (pair_sublist_doneAbout_iff rfl rfl log').mp ?_⟩
    have hmem : .kill pid ∈ doneAbout pid log' :=
      List.mem_filter.mpr ⟨hkill, decide_eq_true rfl⟩
    rw [hdone] at hmem ⊢
    exact (List.singleton_sublist.mpr ((List.mem_cons.mp hmem).resolve_left nofun)).cons_cons _
  · rintro ⟨code, h⟩
    obtain ⟨p, hp⟩ := hwaited h
    obtain ⟨limit, hiff⟩ := hafter hp
    obtain ⟨hends, hkill⟩ := (hiff _ rfl).mp ⟨code, h⟩
    rcases (Command.kill_mem_aftermath_iff pid p limit).mp hkill with hreaped | hlate
    · exact Or.inr ⟨p, hp, hreaped⟩
    · have hfires := (Command.fireTimer_mem_aftermath_iff pid p limit).mpr hlate
      exact Or.inl ((hiff _ rfl).mpr ⟨hends, hfires⟩)
  · rintro (⟨code, h⟩ | ⟨p, hp, hi, hr⟩)
    · obtain ⟨p, hp⟩ := hwaited h
      obtain ⟨limit, hiff⟩ := hafter hp
      obtain ⟨hends, hfires⟩ := (hiff _ rfl).mp ⟨code, h⟩
      have hlate := (Command.fireTimer_mem_aftermath_iff pid p limit).mp hfires
      exact (hiff _ rfl).mpr
        ⟨hends, (Command.kill_mem_aftermath_iff pid p limit).mpr (Or.inr hlate)⟩
    · obtain ⟨limit, hiff⟩ := hafter hp
      exact (hiff _ rfl).mpr ⟨by simp [Command.abandoned, hr],
        (Command.kill_mem_aftermath_iff pid p limit).mpr (Or.inl ⟨hi, hr⟩)⟩
  · obtain ⟨p, hp⟩ := hwaited h
    obtain ⟨limit, hiff⟩ := hafter hp
    obtain ⟨⟨n, rfl⟩, -⟩ := hp
    rcases (Command.kill_mem_aftermath_iff pid _ limit).mp ((hiff _ rfl).mp ⟨code, h⟩).2 with
      ⟨hi, hr⟩ | hlate
    · exact Bool.false_ne_true ((hearly n hi).symm.trans hr)
    · simp [Command.firesLate, hclean n] at hlate

/-- Runs and triggers kill a process that they have waited for only through its timer, or for an
interruption that comes while they wait.  Whatever is done about a process, it was started under a
number of its own and went the course of a program: up to the wait for it, it is killed by its timer
if its time is up, and by an interruption of the user.  After the wait it is killed exactly if its
timer fires late, while it is cancelled, or if an interruption finds it waited for; if neither
happens, no process is killed that is gone. -/
theorem killed_after_end_iff_timer_late (c : Console) (host : Host τ) (w : World τ) :
    (∀ wf e ws, w.Signals host (Sequence.run c wf e ws host w).2) ∧
      ∀ wf e o, w.Signals host (Trigger.trigger c wf e o host w).2 :=
  ⟨fun wf e ws => (Sequence.run_numbers c ws host wf e w).signals,
    fun wf e o => (Trigger.trigger_numbers c host wf e o w).signals⟩

/-- What was done in a run of one step with a time limit whose timer fires late. -/
def lateTimerLog : List (Action Float) :=
  World.initial.added (Sequence.run {}
    { name := "ci"
      jobs := [{ name := "check"
                 steps := [{ name := "Test", run := some "make", timeoutMinutes := some 1.0 }] }] }
    { kind := "push", branch := .text "main" } (Workspace.inPlace [] "/" "")
    (Host.scripted [{ duration := 1.0, firesLate := true }]) World.initial).2

/-- The process that was waited for, with its code, or that was killed. -/
def Action.ended? : Action τ → Option (ℕ × Option ℤ)
  | wait pid code => some (pid, some code)
  | kill pid => some (pid, none)
  | _ => none

/-- The process exits long before its limit and is waited for, and then it is killed. -/
theorem late_timer_kills_process_gone : [.wait 1001 0, .kill 1001].Sublist lateTimerLog := by
  have hended : [some (1001, some 0), some (1001, none)].Sublist
      (lateTimerLog.map Action.ended?) := by decide +kernel
  obtain ⟨pair, hsublist, hpair⟩ := List.sublist_map_iff.mp hended
  obtain ⟨a, rest, rfl, ha, hrest⟩ := List.map_eq_cons_iff.mp hpair.symm
  obtain ⟨b, rest, rfl, hb, hnil⟩ := List.map_eq_cons_iff.mp hrest
  obtain rfl := List.map_eq_nil_iff.mp hnil
  cases a <;> cases ha
  cases b <;> cases hb
  exact hsublist

end CiRunner
