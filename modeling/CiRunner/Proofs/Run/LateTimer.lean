import CiRunner.Proofs.Run.Agreement
import CiRunner.Proofs.Run.StepLog

/-!
# Timers that fire late

A timer that is still pending when the process has exited is cancelled.  If it fires at that very
moment, the process is dead already, and what came of it should not depend on the timer.  This file
compares a run on any host with the run on the same host where all timers are cancelled cleanly.

The two runs do the same up to the first command that exits with another code than zero and whose
timer fires late.  There they part: with the late timer the step is reported as timed out, without
its exit code and its hint.  Since a failure ends the run, the entry of this step is all that
differs in the end.  `LateFailure` says of a log that there is such a command.
-/

namespace CiRunner

variable {τ : Type}

/-- The same host, where every timer that is still pending is cancelled cleanly. -/
def Host.cancelsCleanly (host : Host τ) : Host τ :=
  { host with program := fun n => { host.program n with firesLate := false } }

/-! ## Late failures in a log -/

/-- Some process exits by itself with another code than zero, and its timer fires right after. -/
def LateFailure (log : List (Action τ)) : Prop :=
  ∃ pid code, code ≠ 0 ∧ [.wait pid code, .fireTimer pid] <:+: log

/-- A late failure is there at once. -/
def LateFailure.Now (a : Action τ) (log : List (Action τ)) : Prop :=
  ∃ pid code, code ≠ 0 ∧ a = .wait pid code ∧ log.head? = some (.fireTimer pid)

namespace LateFailure

lemma not_nil : ¬LateFailure ([] : List (Action τ)) := by
  rintro ⟨pid, code, -, h⟩
  simp at h

/-- In a late failure some process ends. -/
lemma exists_wait {log : List (Action τ)} (h : LateFailure log) :
    ∃ pid code, .wait pid code ∈ deeds log := by
  obtain ⟨pid, code, -, hinfix⟩ := h
  have hmem : .wait pid code ∈ log := hinfix.subset List.mem_cons_self
  exact ⟨pid, code, List.mem_filter.mpr ⟨hmem, rfl⟩⟩

/-- A late failure is there at once or comes later. -/
lemma cons_iff (a : Action τ) (log : List (Action τ)) :
    LateFailure (a :: log) ↔ Now a log ∨ LateFailure log := by
  constructor
  · rintro ⟨pid, code, hcode, h⟩
    rcases List.infix_cons_iff.mp h with h | h
    · obtain ⟨rfl, hrest⟩ := List.cons_prefix_cons.mp h
      refine Or.inl ⟨pid, code, hcode, rfl, ?_⟩
      cases log with
      | nil => simp at hrest
      | cons b log =>
        obtain ⟨rfl, -⟩ := List.cons_prefix_cons.mp hrest
        rfl
    · exact Or.inr ⟨pid, code, hcode, h⟩
  · rintro (⟨pid, code, hcode, rfl, hhead⟩ | ⟨pid, code, hcode, h⟩)
    · cases log with
      | nil => simp at hhead
      | cons b log =>
        cases hhead
        exact ⟨pid, code, hcode, List.infix_cons_iff.mpr (Or.inl ⟨log, rfl⟩)⟩
    · exact ⟨pid, code, hcode, List.infix_cons_iff.mpr (Or.inr h)⟩

/-- Other actions than the end of a process do not matter. -/
lemma cons_of_not_wait {a : Action τ} (ha : a.isWait = false) (log : List (Action τ)) :
    LateFailure (a :: log) ↔ LateFailure log := by
  rw [cons_iff, or_iff_right]
  rintro ⟨pid, code, -, rfl, -⟩
  cases ha

/-- Actions before the end of a process do not matter. -/
lemma append_of_not_wait {log : List (Action τ)} (h : ∀ a ∈ log, a.isWait = false)
    (more : List (Action τ)) : LateFailure (log ++ more) ↔ LateFailure more := by
  induction log with
  | nil => rfl
  | cons a log ih =>
    obtain ⟨ha, hlog⟩ := List.forall_mem_cons.mp h
    rw [List.cons_append, cons_of_not_wait ha, ih hlog]

/-- Without the end of a process there is no late failure. -/
lemma not_of_not_wait {log : List (Action τ)} (h : ∀ a ∈ log, a.isWait = false) :
    ¬LateFailure log := by
  rw [← List.append_nil log, append_of_not_wait h]
  exact not_nil

/-- A late failure lies in one of two logs, unless a timer fires where the second one begins. -/
lemma append_iff {more : List (Action τ)} (hmore : ∀ pid, more.head? ≠ some (.fireTimer pid))
    (log : List (Action τ)) : LateFailure (log ++ more) ↔ LateFailure log ∨ LateFailure more := by
  induction log with
  | nil => simp [not_nil]
  | cons a log ih =>
    have hnow : Now a (log ++ more) ↔ Now a log := by
      cases log with
      | nil =>
        constructor
        · rintro ⟨pid, code, -, -, hhead⟩
          exact absurd hhead (hmore pid)
        · rintro ⟨pid, code, -, -, hhead⟩
          cases hhead
      | cons b log => rfl
    rw [List.cons_append, cons_iff, cons_iff, ih, hnow, or_assoc]

/-- Neither of two logs begins with a timer, nor do both together. -/
lemma head?_append {log more : List (Action τ)} (hlog : ∀ pid, log.head? ≠ some (.fireTimer pid))
    (hmore : ∀ pid, more.head? ≠ some (.fireTimer pid)) (pid : ℕ) :
    (log ++ more).head? ≠ some (.fireTimer pid) := by
  cases log with
  | nil => exact hmore pid
  | cons a log => exact hlog pid

/-- The marks of a step and what is told with them do not matter. -/
lemma step_iff (opened : Message) (job step : String) (start : τ) (log : List (Action τ))
    (r : StepResult) (stop : τ) (closed : Message) :
    LateFailure (([.tell opened, .beginStep job step start] ++ log) ++
      [.endStep r stop, .tell closed]) ↔ LateFailure log := by
  have hend : ¬LateFailure [.endStep r stop, .tell closed] := by
    refine not_of_not_wait fun a ha => ?_
    rcases List.mem_pair.mp ha with rfl | rfl <;> rfl
  rw [append_iff (by simp), or_iff_left hend, append_of_not_wait]
  intro a ha
  rcases List.mem_pair.mp ha with rfl | rfl <;> rfl

end LateFailure

/-! ## One command -/

section Command

variable [Timeline τ]

/-- The aftermath of a process that is not interrupted begins with the timer if that fires late. -/
lemma Command.head?_aftermath (pid : ℕ) {p : Program τ} (hp : p.interrupted = false)
    (limit : Option τ) :
    (aftermath pid p limit).head? = some (.fireTimer pid) ↔ firesLate p limit = true := by
  unfold aftermath
  cases firesLate p limit <;> cases limit.isSome <;> simp [hp]

/-- A process that is not interrupted has a late failure exactly if its timer fires late and its
code is not zero. -/
lemma lateFailure_trace_iff (argv : List String) (directory : Location) (env : Environment)
    (c : Console) (pid : ℕ) {p : Program τ} (hp : p.interrupted = false) (limit : Option τ) :
    LateFailure (.spawn pid argv directory env :: Command.trace c pid p limit) ↔
      Command.firesLate p limit = true ∧
        Command.exitCode p (Command.overruns p limit) ≠ 0 := by
  have hbefore : ∀ a ∈ Command.life c pid p limit, a.isWait = false :=
    fun _ ha => (Command.isTell_or_isFollowUp_of_mem_life ha).2
  have hafter : ¬LateFailure (Command.aftermath pid p limit) :=
    LateFailure.not_of_not_wait fun _ ha =>
      (Command.isFollowUp_of_mem_aftermath ha).2
  have hending : Command.ending pid p limit =
      [.wait pid (Command.exitCode p (Command.overruns p limit))] := by
    simp [Command.ending, Command.abandoned, hp]
  rw [LateFailure.cons_of_not_wait rfl, Command.trace, hending, List.append_assoc,
    LateFailure.append_of_not_wait hbefore, List.singleton_append, LateFailure.cons_iff,
    or_iff_left hafter]
  constructor
  · rintro ⟨pid', code, hcode, hwait, hhead⟩
    cases hwait
    exact ⟨(Command.head?_aftermath pid hp limit).mp hhead, hcode⟩
  · rintro ⟨hlate, hcode⟩
    exact ⟨pid, _, hcode, rfl, (Command.head?_aftermath pid hp limit).mpr hlate⟩

end Command

/-! ## One step -/

/-- What is reported of a step that failed by itself when its timer fires late: a step that timed
out, without the exit code and the hint. -/
def StepResult.asTimedOut (s : StepResult) (command : String) : StepResult :=
  { s with
    exitCode := none
    hint := none
    error := some ({ job := s.job, step := s.name, command, exitCode := none,
                     outputTail := s.outputTail, timedOut := true } : CommandFailure).text }

/-- What came of a step, and what would have come of it if its timer had been cancelled cleanly. -/
inductive StepTwins (log : List (Action τ)) :
    Except Fault StepResult → Except Fault StepResult → Prop
  /-- The same. -/
  | same {result : Except Fault StepResult} (h : ∀ s, result = .ok s → ¬LateFailure log) :
      StepTwins log result result
  /-- A failure that is reported as a timeout. -/
  | late {s : StepResult} {code : ℤ} {command : String} (h : LateFailure log)
      (hstatus : s.status = .failure) (hcode : s.exitCode = some code) (hzero : code ≠ 0) :
      StepTwins log (.ok (s.asTimedOut command)) (.ok s)

namespace Sequence

variable [Timeline τ] (host : Host τ) {w w₀ : World τ} (c : Console) (ws : Workspace)
variable (base : Environment) (job : Job)

/-- What comes of the body of a step with its own timer and with a timer that is cancelled
cleanly. -/
inductive BodyTwins (job : Job) (step : Step) (log : List (Action τ)) :
    Except Fault Outcome → Except Fault Outcome → Prop
  /-- The same. -/
  | same {result : Except Fault Outcome} (h : ∀ o, result = .ok o → ¬LateFailure log) :
      BodyTwins job step log result result
  /-- A failure that is taken for a timeout. -/
  | late {code : ℤ} {tail : String} (h : LateFailure log) (hzero : code ≠ 0) :
      BodyTwins job step log (.ok (Command.verdict job step true code tail))
        (.ok (Command.verdict job step false code tail))

omit [Timeline τ] in
/-- The verdict on a command depends on a late timer only if its code is not zero. -/
lemma verdict_twins {step : Step} {log : List (Action τ)} {overran late : Bool} {code : ℤ}
    (tail : String) (hlate : late = true → overran = false)
    (hlog : LateFailure log ↔ late = true ∧ code ≠ 0) :
    BodyTwins job step log (.ok (Command.verdict job step (overran || late) code tail))
      (.ok (Command.verdict job step overran code tail)) := by
  cases late with
  | false =>
    rw [Bool.or_false]
    exact .same fun _ _ h => Bool.false_ne_true (hlog.mp h).1
  | true =>
    rw [hlate rfl, Bool.false_or]
    by_cases hzero : code = 0
    · have hsuccess : ∀ t, Command.verdict job step t code tail = .success := fun t => by
        rw [Command.verdict, if_pos hzero]
      rw [hsuccess, hsuccess]
      exact .same fun _ _ h => (hlog.mp h).2 hzero
    · exact .late (hlog.mpr ⟨rfl, hzero⟩) hzero

/-- A command whose timer is cancelled cleanly does the same, but for a late failure. -/
lemma runCommand_twins (step : Step) (limit : Option τ) (hw : w.Alike w₀) :
    ∃ log, (runCommand c ws base job step limit host w).2.actions.toList =
        w.actions.toList ++ log ∧
      (runCommand c ws base job step limit host w).2.Alike
        (runCommand c ws base job step limit host.cancelsCleanly w₀).2 ∧
      BodyTwins job step log (runCommand c ws base job step limit host w).1
        (runCommand c ws base job step limit host.cancelsCleanly w₀).1 := by
  -- the case is the same on both hosts, since neither the directory nor the shell depends on them
  rcases runCommand_cases ws base job step limit w.tree host.hides with
    ⟨result, -, hrun⟩ | ⟨directory, words, -, -, hwords, hrun⟩
  all_goals rw [hrun c host w rfl rfl, hrun c host.cancelsCleanly w₀ rfl hw.tree_eq]
  · exact ⟨[], by simp, hw, .same fun _ _ => LateFailure.not_nil⟩
  have hclean : host.cancelsCleanly.program w₀.attempts =
      { host.program w.attempts with firesLate := false } := by
    rw [hw.attempts_eq]
    rfl
  cases hm : (host.program w.attempts).missing with
  | true =>
    rw [Command.execute_missing _ _ _ _ _ _ hwords hm,
      Command.execute_missing _ _ _ _ _ _ hwords (by rw [hclean]; exact hm), hclean]
    exact ⟨[], by simp, hw.asked 0, .same fun _ _ => LateFailure.not_nil⟩
  | false =>
    rw [Command.execute_started _ _ _ _ _ _ hwords rfl hm,
      Command.execute_started _ _ _ _ _ _ hwords hclean hm]
    set p := host.program w.attempts with hp
    refine ⟨_, World.did_actions .., (((hw.asked 1).changed _ _).later _).did _ _, ?_⟩
    have hearly : Command.firesLate { p with firesLate := false } limit = false := by
      simp [Command.firesLate]
    cases hi : p.interrupted with
    | true => exact .same fun o ho => by simp at ho
    | false =>
      have hiff := lateFailure_trace_iff (words ++ [step.run.getD ""]) directory
        (stepVariables host.environment base job step) c (1001 + w.started) hi limit
      have hover : Command.firesLate p limit = true → Command.overruns p limit = false := by
        intro hlate
        simp only [Command.firesLate, Bool.and_eq_true, Bool.not_eq_true'] at hlate
        exact hlate.1.2
      simp only [Bool.false_eq_true, if_false, hearly, Bool.or_false]
      exact verdict_twins job _ hover hiff

/-- The body of a step whose timer is cancelled cleanly does the same, but for a late failure. -/
lemma runBody_twins (step : Step) (limit : Option τ) (hw : w.Alike w₀) :
    ∃ log, (runBody c ws base job step limit host w).2.actions.toList = w.actions.toList ++ log ∧
      (runBody c ws base job step limit host w).2.Alike
        (runBody c ws base job step limit host.cancelsCleanly w₀).2 ∧
      BodyTwins job step log (runBody c ws base job step limit host w).1
        (runBody c ws base job step limit host.cancelsCleanly w₀).1 := by
  unfold runBody
  by_cases hstep : step.isAction = true
  · simp only [hstep, if_true]
    obtain ⟨log, hlog, hbody, -⟩ := runAction_log ws job step host w hstep
    have hgit : host.cancelsCleanly.git = host.git := rfl
    have hdirectory : host.cancelsCleanly.directory = host.directory := rfl
    obtain ⟨hresult, hworld⟩ := runAction_agrees hgit hdirectory ws job step w w₀ hw.alikeIn
    refine ⟨log, hlog, hworld.alike, ?_⟩
    rw [hresult]
    refine .same fun _ _ hlate => ?_
    obtain ⟨pid, code, hwait⟩ := hlate.exists_wait
    simp [hbody.wait_command pid code hwait] at hstep
  · simp only [hstep, Bool.false_eq_true, if_false]
    exact runCommand_twins host c ws base job step limit hw

omit [Timeline τ] in
/-- What is reported of a command that failed, and of one that is taken for a timeout. -/
lemma resultOf_verdict (step : Step) (duration : Float) {code : ℤ} (hzero : code ≠ 0)
    (tail : String) :
    let s := resultOf job step duration (Command.verdict job step false code tail)
    s.status = .failure ∧ s.exitCode = some code ∧
      resultOf job step duration (Command.verdict job step true code tail) =
        s.asTimedOut (step.run.getD "") := by
  simp [Command.verdict, hzero, resultOf, StepResult.asTimedOut]

/-- A step whose timer is cancelled cleanly is reported the same, but for a late failure. -/
theorem runStep_twins (deadline : Option τ) (step : Step) (hw : w.Alike w₀) :
    ∃ log, (runStep c ws base job deadline step host w).2.actions.toList =
        w.actions.toList ++ log ∧ (∀ pid, log.head? ≠ some (.fireTimer pid)) ∧
      (runStep c ws base job deadline step host w).2.Alike
        (runStep c ws base job deadline step host.cancelsCleanly w₀).2 ∧
      StepTwins log (runStep c ws base job deadline step host w).1
        (runStep c ws base job deadline step host.cancelsCleanly w₀).1 := by
  set opening : List (Action τ) := [.tell (c.stepStarted step.name step.display),
    .beginStep job.name step.name w.clock] with hopening
  have hstart : (w.did opening).Alike (w₀.did opening) := hw.did _ _
  obtain ⟨log, hlog, hworld, hbody⟩ := runBody_twins host c ws base job step
    (stepLimit step deadline w.clock) hstart
  rw [runStep_eq, runStep_eq, hw.clock_eq, ← hopening]
  generalize runBody c ws base job step (stepLimit step deadline w.clock) host (w.did opening) =
    ended at hlog hworld hbody ⊢
  generalize runBody c ws base job step (stepLimit step deadline w.clock) host.cancelsCleanly
    (w₀.did opening) = ended₀ at hworld hbody ⊢
  obtain ⟨result, w'⟩ := ended
  obtain ⟨result₀, w₀'⟩ := ended₀
  dsimp only at hlog hworld hbody
  rw [World.did_actions, List.append_assoc] at hlog
  cases hbody with
  | same h =>
    cases result with
    | error e => exact ⟨_, hlog, by simp [hopening], hworld, .same fun s hs => by cases hs⟩
    | ok outcome =>
      dsimp only
      rw [hworld.clock_eq]
      refine ⟨_, by rw [World.did_actions, hlog, List.append_assoc], by simp [hopening],
        hworld.did _ _, .same fun s hs => ?_⟩
      rw [hopening, LateFailure.step_iff]
      exact h outcome rfl
  | @late code tail h hzero =>
    dsimp only
    rw [hworld.clock_eq]
    refine ⟨_, by rw [World.did_actions, hlog, List.append_assoc], by simp [hopening],
      hworld.did _ _, ?_⟩
    obtain ⟨hstatus, hcode, htimed⟩ := resultOf_verdict job step
      (Timeline.seconds (Timeline.minus w'.clock w.clock)) hzero tail
    rw [htimed]
    exact .late (by rw [hopening, LateFailure.step_iff]; exact h) hstatus hcode hzero

end Sequence

/-! ## All steps -/

/-- What came of some steps, and what would have come of them if all timers had been cancelled
cleanly. -/
inductive RunTwins (log : List (Action τ)) :
    Except Fault (List StepResult) → Except Fault (List StepResult) → Prop
  /-- The same. -/
  | same {result : Except Fault (List StepResult)} (h : ∀ rs, result = .ok rs → ¬LateFailure log) :
      RunTwins log result result
  /-- The same but for a failure that is reported as a timeout. -/
  | late {before after : List StepResult} {s : StepResult} {code : ℤ} {command : String}
      (h : LateFailure log) (hstatus : s.status = .failure) (hcode : s.exitCode = some code)
      (hzero : code ≠ 0) :
      RunTwins log (.ok (before ++ s.asTimedOut command :: after)) (.ok (before ++ s :: after))

/-- Only the late failures of a log matter. -/
lemma RunTwins.congr {log more : List (Action τ)} {result result₀ : Except Fault (List StepResult)}
    (h : RunTwins log result result₀) (hiff : LateFailure log ↔ LateFailure more) :
    RunTwins more result result₀ := by
  cases h with
  | same h => exact .same fun rs hrs hlate => h rs hrs (hiff.mpr hlate)
  | late h hstatus hcode hzero => exact .late (hiff.mp h) hstatus hcode hzero

/-- Steps that are the same before others make no difference. -/
lemma RunTwins.append {log more : List (Action τ)} {result result₀ : Except Fault (List StepResult)}
    (h : RunTwins more result result₀) (hlog : ¬LateFailure log)
    (hmore : ∀ pid, more.head? ≠ some (.fireTimer pid)) (rs : List StepResult) :
    RunTwins (log ++ more) (result.map (rs ++ ·)) (result₀.map (rs ++ ·)) := by
  have hiff : LateFailure more ↔ LateFailure (log ++ more) := by
    rw [LateFailure.append_iff hmore, or_iff_right hlog]
  refine RunTwins.congr ?_ hiff
  cases h with
  | same h =>
    refine .same fun all hall => ?_
    cases result with
    | error e => cases hall
    | ok tail => exact h tail rfl
  | @late before after s code command h hstatus hcode hzero =>
    have hout : RunTwins more (.ok ((rs ++ before) ++ s.asTimedOut command :: after))
      (.ok ((rs ++ before) ++ s :: after)) := .late h hstatus hcode hzero
    rw [List.append_assoc, List.append_assoc] at hout
    exact hout

/-- A computation gives the same results if all timers are cancelled cleanly, but for a late
failure. -/
def RunM.Twins (host : Host τ) (m : RunM τ (List StepResult)) : Prop :=
  ∀ w w₀, World.Alike w w₀ → ∃ log, (m host w).2.actions.toList = w.actions.toList ++ log ∧
    (∀ pid, log.head? ≠ some (.fireTimer pid)) ∧
    World.Alike (m host w).2 (m host.cancelsCleanly w₀).2 ∧
    RunTwins log (m host w).1 (m host.cancelsCleanly w₀).1

namespace Sequence

variable [Timeline τ] (host : Host τ) (c : Console) (ws : Workspace) (base : Environment)

/-- The steps of a job, one after another. -/
theorem runSteps_twins (job : Job) (deadline : Option τ) (steps : List Step) :
    RunM.Twins host (runSteps c ws base job deadline steps) := by
  induction steps with
  | nil =>
    exact fun w w₀ hw => ⟨[], by simp [runSteps], by simp, hw, .same fun _ _ => LateFailure.not_nil⟩
  | cons step rest ih =>
    intro w w₀ hw
    obtain ⟨log, hlog, hhead, hworld, hstep⟩ :=
      runStep_twins host c ws base job deadline step hw
    rw [runSteps_cons, runSteps_cons]
    generalize runStep c ws base job deadline step host w = ended at hlog hworld hstep ⊢
    generalize runStep c ws base job deadline step host.cancelsCleanly w₀ = ended₀
      at hworld hstep ⊢
    obtain ⟨result, w'⟩ := ended
    obtain ⟨result₀, w₀'⟩ := ended₀
    dsimp only at hlog hworld hstep
    cases hstep with
    | same h =>
      cases result with
      | error e => exact ⟨log, hlog, hhead, hworld, .same fun _ hs => by cases hs⟩
      | ok r =>
        by_cases hfailure : isFailure r = true
        · simp only [hfailure, if_true]
          exact ⟨log, hlog, hhead, hworld, .same fun _ _ => h r rfl⟩
        · obtain ⟨more, hmore, hmorehead, hend, htwins⟩ := ih w' w₀' hworld
          simp only [hfailure, Bool.false_eq_true, if_false]
          refine ⟨log ++ more, by rw [hmore, hlog, List.append_assoc],
            LateFailure.head?_append hhead hmorehead, hend, ?_⟩
          exact htwins.append (h r rfl) hmorehead [r]
    | @late s code command h hstatus hcode hzero =>
      have hfailure : isFailure s = true := by simp [isFailure, hstatus]
      have htimed : isFailure (s.asTimedOut command) = true := hfailure
      -- the run ends here on both hosts, so that nothing after the step can differ
      simp only [hfailure, htimed, if_true]
      have hout : RunTwins log (.ok ([] ++ s.asTimedOut command :: rest.map (skipped job)))
        (.ok ([] ++ s :: rest.map (skipped job))) := .late h hstatus hcode hzero
      exact ⟨log, hlog, hhead, hworld, hout⟩

/-- The steps of a job. -/
lemma runJob_twins (job : Job) : RunM.Twins host (runJob c ws base job) := by
  intro w w₀ hw
  rw [runJob_eq, runJob_eq, hw.clock_eq]
  obtain ⟨log, hlog, hhead, hworld, htwins⟩ := runSteps_twins host c ws base job
    (job.timeoutMinutes.map fun m => Timeline.plus w.clock (Timeline.ofMinutes m)) job.steps _ _
    (hw.did [.tell (Console.jobStarted job.name job.runsOn)]
      [.tell (Console.jobStarted job.name job.runsOn)])
  rw [World.did_actions, List.append_assoc] at hlog
  exact ⟨_, hlog, by simp, hworld, htwins.congr (LateFailure.cons_of_not_wait rfl _).symm⟩

/-- Jobs, one after another. -/
theorem runJobs_twins (jobs : List Job) : RunM.Twins host (runJobs c ws base jobs) := by
  induction jobs with
  | nil =>
    exact fun w w₀ hw => ⟨[], by simp [runJobs], by simp, hw, .same fun _ _ => LateFailure.not_nil⟩
  | cons job rest ih =>
    intro w w₀ hw
    obtain ⟨log, hlog, hhead, hworld, hjob⟩ := runJob_twins host c ws base job w w₀ hw
    rw [runJobs_cons, runJobs_cons]
    generalize runJob c ws base job host w = ended at hlog hworld hjob ⊢
    generalize runJob c ws base job host.cancelsCleanly w₀ = ended₀ at hworld hjob ⊢
    obtain ⟨result, w'⟩ := ended
    obtain ⟨result₀, w₀'⟩ := ended₀
    dsimp only at hlog hworld hjob
    cases hjob with
    | same h =>
      cases result with
      | error e => exact ⟨log, hlog, hhead, hworld, .same fun _ hs => by cases hs⟩
      | ok rs =>
        by_cases hfailure : rs.any isFailure = true
        · simp only [hfailure, if_true]
          exact ⟨log, hlog, hhead, hworld, .same fun _ _ => h rs rfl⟩
        · obtain ⟨more, hmore, hmorehead, hend, htwins⟩ := ih w' w₀' hworld
          simp only [hfailure, Bool.false_eq_true, if_false]
          refine ⟨log ++ more, by rw [hmore, hlog, List.append_assoc],
            LateFailure.head?_append hhead hmorehead, hend, ?_⟩
          exact htwins.append (h rs rfl) hmorehead rs
    | @late before after s code command h hstatus hcode hzero =>
      have hfailure : (before ++ s :: after).any isFailure = true :=
        any_isFailure_iff.mpr ⟨s, by simp, hstatus⟩
      have htimed : (before ++ s.asTimedOut command :: after).any isFailure = true :=
        any_isFailure_iff.mpr ⟨s.asTimedOut command, by simp, hstatus⟩
      simp only [hfailure, htimed, if_true, List.append_assoc, List.cons_append]
      exact ⟨log, hlog, hhead, hworld, .late h hstatus hcode hzero⟩

end Sequence

/-! ## The whole run -/

/-- A run on a host, and the run on the same host with all timers cancelled cleanly.  Both end with
the same fault or both come to their end, and then they have the same results exactly if no command
had exited with another code than zero when its timer fired.  Else the results differ in one entry:
the failure of that command is reported as a timeout, without the exit code and the hint. -/
theorem run_cancelled_cleanly [Timeline τ] (c : Console) (wf : Workflow) (e : Event)
    (ws : Workspace) (host : Host τ) (w : World τ) :
    ∃ log, (Sequence.run c wf e ws host w).2.actions.toList = w.actions.toList ++ log ∧
      (∀ fault, (Sequence.run c wf e ws host w).1 = .error fault →
        (Sequence.run c wf e ws host.cancelsCleanly w).1 = .error fault) ∧
      ∀ r, (Sequence.run c wf e ws host w).1 = .ok r →
        ∃ r₀, (Sequence.run c wf e ws host.cancelsCleanly w).1 = .ok r₀ ∧
          (r = r₀ ↔ ¬LateFailure log) ∧
          (LateFailure log → ∃ before s after code command, r₀.steps = before ++ s :: after ∧
            s.status = .failure ∧ s.exitCode = some code ∧ code ≠ 0 ∧
            r.steps = before ++ s.asTimedOut command :: after) := by
  set opening : List (Action τ) := [.tell (Console.runStarted wf.name e wf.steps.length)]
    with hopening
  obtain ⟨log, hlog, -, -, htwins⟩ := Sequence.runJobs_twins host c ws
    (runVariables wf e ws.place) wf.jobs _ _ (World.Alike.refl (w.did opening))
  have hiff : LateFailure log ↔ LateFailure (opening ++ log) :=
    (LateFailure.cons_of_not_wait rfl _).symm
  rw [World.did_actions, List.append_assoc] at hlog
  rw [Sequence.run_eq, Sequence.run_eq]
  refine ⟨opening ++ log, hlog, ?_⟩
  replace htwins := htwins.congr hiff
  generalize (Sequence.runJobs c ws (runVariables wf e ws.place) wf.jobs host (w.did opening)).1 =
    result at htwins ⊢
  generalize (Sequence.runJobs c ws (runVariables wf e ws.place) wf.jobs host.cancelsCleanly
    (w.did opening)).1 = result₀ at htwins ⊢
  cases htwins with
  | same h =>
    refine ⟨fun fault hfault => hfault, fun r hr => ⟨r, hr, ?_⟩⟩
    cases result with
    | error e => cases hr
    | ok rs =>
      have hnone := h rs rfl
      exact ⟨iff_of_true rfl hnone, fun hlate => absurd hlate hnone⟩
  | @late before after s code command h hstatus hcode hzero =>
    refine ⟨fun fault hfault => (by cases hfault), fun r hr => ⟨_, rfl, ?_⟩⟩
    cases hr
    refine ⟨iff_of_false (fun heq => ?_) (not_not_intro h), fun _ =>
      ⟨before, s, after, code, command, rfl, hstatus, hcode, hzero, rfl⟩⟩
    have hsteps : before ++ s.asTimedOut command :: after = before ++ s :: after :=
      congrArg RunResult.steps heq
    have hentry : s.asTimedOut command = s := (List.cons.inj (List.append_cancel_left hsteps)).1
    rw [← hentry] at hcode
    cases hcode

/-- A workflow with one step that has a time limit. -/
def limitedTest : Workflow where
  name := "ci"
  jobs := [{ name := "check"
             steps := [{ name := "Test", run := some "cargo test", timeoutMinutes := some 1.0 }] }]

/-- What a run of one step with a time limit reports of it. -/
def limitedReport (host : Host Float) : Option (List (Option ℤ × Option String × Option String)) :=
  (Sequence.run {} limitedTest { kind := "push", branch := .text "main" }
    (Workspace.inPlace [] "/" "") host World.initial).1.toOption.map fun r =>
      r.steps.map fun s => (s.exitCode, s.error, s.hint)

/-- A command that is not found exits long before its limit, but a late timer makes a timeout of
it. -/
theorem not_found_reported_as_timeout :
    let host := Host.scripted [{ exitCode := 127, duration := 1.0, firesLate := true }]
    limitedReport host = some [(none, some "[check] step 'Test' timed out: cargo test", none)] ∧
      limitedReport host.cancelsCleanly =
        some [(some 127, some "[check] step 'Test' failed (exit=127): cargo test",
          some "Install the Rust toolchain (https://rustup.rs) or fix PATH.")] := by
  decide +kernel

end CiRunner
