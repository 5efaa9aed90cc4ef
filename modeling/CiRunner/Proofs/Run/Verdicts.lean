import CiRunner.Proofs.Run.Course

/-!
# The verdict on a command

A command whose shell is known and whose directory is there has one process, unless its shell is
missing.  The verdict on it depends on two things that the log of the step shows: the code with
which the process exits, and whether its timer has fired.  A code of zero is a success even if the
timer has fired.

A shell that is there can still be refused by the system, for the words or the variables it is given
or for want of a permission.  This is no verdict on a command: it breaks the run off
(`run_returns_unless_defect`), so it is left out here.

The equations of such a step come first.  They are also what is needed to tell which part of the log
is the output of the process.
-/

namespace CiRunner

open RunM

variable {τ : Type}

/-! ## Steps with a process -/

/-- A command with a known shell, in a directory that is there. -/
structure Step.CanStart (ws : Workspace) (tree : FileTree) (step : Step) : Prop where
  /-- The step is a command. -/
  command : step.isAction = false
  /-- Its shell is known. -/
  shell : step.shell = "bash" ∨ step.shell = "sh"
  /-- Its directory is there. -/
  directory : ∃ place, Sequence.directoryOf ws.place step.cwd = .ok place ∧ tree.isDir place = true

/-- The words of a known shell. -/
lemma Step.CanStart.words {ws : Workspace} {tree : FileTree} {step : Step}
    (h : step.CanStart ws tree) : ∃ words, Command.shellWords? step.shell = some words := by
  rcases h.shell with hshell | hshell
  · exact ⟨_, by rw [hshell]; rfl⟩
  · exact ⟨_, by rw [hshell]; rfl⟩

/-- What is wrong with a command whose shell cannot be started. -/
def Command.noShell (job : Job) (step : Step) : Diagnosis where
  kind := "shell_unavailable"
  job := job.name
  step := some step.name
  message := step.shell ++ " is not available"
  details := [("shell", .text step.shell)]

namespace Sequence

/-- What is done at the begin of a step. -/
def opening (c : Console) (job : Job) (step : Step) (time : τ) : List (Action τ) :=
  [.tell (c.stepStarted step.name step.display), .beginStep job.name step.name time]

/-- What is done at the end of a step. -/
def closing (c : Console) (r : StepResult) (time : τ) : List (Action τ) :=
  [.endStep r time, .tell (c.stepFinished r)]

variable [Timeline τ] (c : Console) (ws : Workspace) (base : Environment) (job : Job)
variable (deadline : Option τ) {step : Step} {host : Host τ} {w : World τ}

/-- A step whose body comes to an outcome comes to a result. -/
lemma runStep_of_ok {outcome : Outcome} {w' : World τ} {log : List (Action τ)}
    (hbody : runBody c ws base job step (stepLimit step deadline w.clock) host
      (w.did (opening c job step w.clock)) = (.ok outcome, w'))
    (hlog : w'.actions.toList = w.actions.toList ++ log) :
    ∃ r duration, (runStep c ws base job deadline step host w).1 = .ok r ∧
      r = resultOf job step duration outcome ∧
      w.added (runStep c ws base job deadline step host w).2 = log ++ closing c r w'.clock := by
  have hrun := runStep_eq c ws base job deadline step host w
  unfold opening at hbody
  rw [hbody] at hrun
  rw [hrun]
  refine ⟨_, _, rfl, rfl, World.added_eq ?_⟩
  rw [World.did_actions, hlog, List.append_assoc, closing]

/-- A step whose body is broken off is broken off. -/
lemma runStep_of_error {fault : Fault} {w' : World τ} {log : List (Action τ)}
    (hbody : runBody c ws base job step (stepLimit step deadline w.clock) host
      (w.did (opening c job step w.clock)) = (.error fault, w'))
    (hlog : w'.actions.toList = w.actions.toList ++ log) :
    (runStep c ws base job deadline step host w).1 = .error fault ∧
      w.added (runStep c ws base job deadline step host w).2 = log := by
  have hrun := runStep_eq c ws base job deadline step host w
  unfold opening at hbody
  rw [hbody] at hrun
  rw [hrun]
  exact ⟨rfl, World.added_eq hlog⟩

variable (host) in
/-- A command with a known shell, in a directory that is there, is executed. -/
lemma runBody_of_canStart (h : step.CanStart ws w.tree) (limit : Option τ) :
    ∃ directory words, Command.shellWords? step.shell = some words ∧
      runBody c ws base job step limit host w =
        Command.execute c job step directory (stepVariables host.environment base job step) limit
          host w := by
  obtain ⟨directory, hplace, hdirectory⟩ := h.directory
  obtain ⟨words, hwords⟩ := h.words
  refine ⟨directory, words, hwords, ?_⟩
  rw [runBody, h.command]
  exact runCommand_of_isDir c base job limit host hplace hdirectory

/-- A command whose shell is missing is refused, and nothing is started. -/
lemma runStep_missing (h : step.CanStart ws w.tree)
    (hmissing : (host.program w.attempts).missing = true)
    (hrefusal : (host.program w.attempts).refusal = none) :
    ∃ r duration, (runStep c ws base job deadline step host w).1 = .ok r ∧
      r = resultOf job step duration (.refused (Command.noShell job step)) ∧
      w.added (runStep c ws base job deadline step host w).2 =
        opening c job step w.clock ++ closing c r w.clock := by
  let opened := w.did (opening c job step w.clock)
  obtain ⟨directory, words, hwords, hbody⟩ := runBody_of_canStart c ws base job host
    (w := opened) h (stepLimit step deadline w.clock)
  have habsence : Command.absence job step (host.program opened.attempts) =
      .ok (.refused (Command.noShell job step)) := by
    rw [Command.absence, show (host.program opened.attempts).refusal = none from hrefusal]
    rfl
  rw [Command.execute_missing (w := opened) c job step directory _ _ hwords hmissing, habsence]
    at hbody
  have hlog : (opened.asked 0).actions.toList =
      w.actions.toList ++ opening c job step w.clock := World.did_actions ..
  obtain ⟨r, duration, hended, hr, hadded⟩ := runStep_of_ok c ws base job deadline hbody hlog
  exact ⟨r, duration, hended, hr, hadded⟩

/-- The process of a command is started and followed to its end. -/
lemma runBody_started (h : step.CanStart ws w.tree)
    (hthere : (host.program w.attempts).missing = false) (limit : Option τ) :
    let p := host.program w.attempts
    let pid := 1001 + w.started
    ∃ argv directory env w',
      runBody c ws base job step limit host (w.did (opening c job step w.clock)) =
        (if p.interrupted then .error (Command.interruption p)
          else .ok (Command.verdict job step
            (Command.overruns p limit || Command.firesLate p limit)
            (Command.exitCode p (Command.overruns p limit))
            (Command.tail (Command.pieces p.output))), w') ∧
      w'.actions.toList = w.actions.toList ++ (opening c job step w.clock ++
        .spawn pid argv directory env :: Command.trace c pid p limit) := by
  intro p pid
  let opened := w.did (opening c job step w.clock)
  obtain ⟨directory, words, hwords, hbody⟩ := runBody_of_canStart c ws base job host
    (w := opened) h limit
  rw [Command.execute_started (w := opened) c job step directory _ limit hwords (p := p) rfl
    hthere] at hbody
  refine ⟨words ++ [step.run.getD ""], directory, stepVariables host.environment base job step, _,
    hbody, ?_⟩
  rw [World.did_actions, World.later_actions, World.changed_actions, World.asked_actions,
    World.did_actions, List.append_assoc]
  rfl

end Sequence

/-! ## Processes -/

/-- How the process of a command ends, as the log of its step shows it. -/
structure Program.Ends (p : Program τ) (pid : ℕ) (log : List (Action τ)) (code : ℤ) : Prop where
  /-- The process exits with the code, and with no other one. -/
  wait_iff : ∀ other, .wait pid other ∈ log ↔ other = code
  /-- It is killed when its timer fires, and only then. -/
  kill_iff : .kill pid ∈ log ↔ .fireTimer pid ∈ log
  /-- The code is that of a killed process if the process does not survive that. -/
  code_of_fired : .fireTimer pid ∈ log → p.survivesKill = false → code = Command.killedCode
  /-- Else it is its own. -/
  code_of_own : .fireTimer pid ∉ log ∨ p.survivesKill = true → code = p.exitCode

namespace Command

variable [Timeline τ] {c : Console} {pid : ℕ} {p : Program τ} {limit : Option τ}

/-- A timer that does not fire late fires exactly if the process takes too long. -/
lemma fireTimer_mem_trace (hlate : firesLate p limit = false) :
    .fireTimer pid ∈ trace c pid p limit ↔ overruns p limit = true := by
  simp [trace, life, mem_ending_iff, aftermath, hlate]

/-- A process that is not interrupted is killed by its timer alone. -/
lemma kill_mem_trace (hquiet : p.interrupted = false) (hlate : firesLate p limit = false) :
    .kill pid ∈ trace c pid p limit ↔ overruns p limit = true := by
  simp [trace, life, mem_ending_iff, aftermath, hquiet, hlate]

/-- A process that is not interrupted exits with one code. -/
lemma wait_mem_trace (hquiet : p.interrupted = false) (hlate : firesLate p limit = false)
    (code : ℤ) :
    .wait pid code ∈ trace c pid p limit ↔ code = exitCode p (overruns p limit) := by
  simp [trace, life, mem_ending_iff, abandoned, aftermath, hquiet, hlate]

/-- What a step does with a process is done while it is run, not at the begin or the end of the
step. -/
lemma mem_log_iff {job : Job} {step : Step} {start stop : τ} {argv : List String}
    {directory : Location} {env : Environment} {r : StepResult} {a : Action τ}
    (ha : a.isFollowUp = true) :
    a ∈ Sequence.opening c job step start ++
        .spawn pid argv directory env :: trace c pid p limit ++ Sequence.closing c r stop ↔
      a ∈ trace c pid p limit := by
  have hopening : a ∉ Sequence.opening c job step start := by
    intro h
    rcases List.mem_pair.mp h with rfl | rfl <;> cases ha
  have hclosing : a ∉ Sequence.closing c r stop := by
    intro h
    rcases List.mem_pair.mp h with rfl | rfl <;> cases ha
  have hspawn : a ≠ .spawn pid argv directory env := by
    rintro rfl
    cases ha
  simp only [List.mem_append, List.mem_cons, hopening, hclosing, hspawn, false_or, or_false]

end Command

/-- The process of a step ends as its program does, unless the user interrupts it or its timer fires
late. -/
lemma Program.ends_of_trace [Timeline τ] {c : Console} {pid : ℕ} {p : Program τ} {limit : Option τ}
    {log : List (Action τ)} (hquiet : p.interrupted = false)
    (hlate : Command.firesLate p limit = false)
    (hlog : ∀ a : Action τ, a.isFollowUp = true → (a ∈ log ↔ a ∈ Command.trace c pid p limit)) :
    p.Ends pid log (Command.exitCode p (Command.overruns p limit)) ∧
      (.fireTimer pid ∈ log ↔ Command.overruns p limit = true) := by
  have hfire : .fireTimer pid ∈ log ↔ Command.overruns p limit = true :=
    (hlog _ rfl).trans (Command.fireTimer_mem_trace hlate)
  have hkill : .kill pid ∈ log ↔ Command.overruns p limit = true :=
    (hlog _ rfl).trans (Command.kill_mem_trace hquiet hlate)
  refine ⟨⟨fun other => ?_, hkill.trans hfire.symm, fun hfired hdies => ?_, fun hown => ?_⟩, hfire⟩
  · exact (hlog _ rfl).trans (Command.wait_mem_trace hquiet hlate other)
  · rw [Command.exitCode, hfire.mp hfired, hdies]
    rfl
  · rw [hfire] at hown
    rcases hown with hown | hown
    · rw [Command.exitCode, Bool.eq_false_iff.mpr hown]
      rfl
    · rw [Command.exitCode, hown]
      simp

/-! ## Verdicts -/

/-- The verdict on a command whose process exits with a code after its timer has fired or not. -/
structure Verdict (job : Job) (step : Step) (fired : Prop) (code : ℤ) (r : StepResult) : Prop where
  /-- The command succeeds exactly if the code is zero. -/
  success_iff : r.status = .success ∧ r.exitCode = some 0 ↔ code = 0
  /-- Any other code is that of the failure, with a hint if a tool is missing that has a name. -/
  of_exit : code ≠ 0 → ¬fired → r.status = .failure ∧ r.exitCode = some code ∧
    (r.hint.isSome ↔ code = 127 ∧ Hint.tool (step.run.getD "") r.outputTail ≠ "")
  /-- If time has run out, that is the failure instead. -/
  of_timeout : code ≠ 0 → fired → r.status = .failure ∧ r.exitCode = none ∧ r.hint = none ∧
    r.error = some ("[" ++ job.name ++ "] step '" ++ step.name ++ "' " ++ "timed out: " ++
      step.run.getD "")

/-- There is advice for every tool that has a name. -/
lemma Hint.isSome_of?_iff (command output : String) :
    (of? command output).isSome ↔ tool command output ≠ "" := by
  unfold of? forTool
  cases hknown : known.lookup (tool command output) with
  | some advice =>
    refine iff_of_true rfl fun hempty => ?_
    rw [hempty] at hknown
    cases hknown
  | none =>
    dsimp only
    split <;> simp [*]

/-- The result of a command is its verdict. -/
lemma Command.verdict_resultOf (job : Job) {step : Step} (hstep : step.isAction = false)
    (timedOut : Bool) (code : ℤ) (tail : String) (duration : Float) :
    Verdict job step (timedOut = true) code
      (Sequence.resultOf job step duration (verdict job step timedOut code tail)) := by
  unfold verdict
  by_cases hzero : code = 0
  · rw [if_pos hzero]
    refine ⟨iff_of_true ⟨rfl, ?_⟩ hzero, fun hcode => absurd hzero hcode,
      fun hcode => absurd hzero hcode⟩
    simp [Sequence.resultOf, hstep]
  rw [if_neg hzero]
  cases timedOut with
  | true =>
    exact ⟨iff_of_false (fun h => by cases h.1) hzero, fun _ hnot => absurd rfl hnot,
      fun _ _ => ⟨rfl, rfl, rfl, rfl⟩⟩
  | false =>
    refine ⟨iff_of_false (fun h => by cases h.1) hzero, fun _ _ => ⟨rfl, rfl, ?_⟩,
      fun _ hfired => by cases hfired⟩
    dsimp only [Sequence.resultOf]
    by_cases hmissing : code = notFoundCode
    · simp only [Bool.false_eq_true, if_false, if_pos hmissing, Hint.isSome_of?_iff]
      exact (and_iff_right hmissing).symm
    · simp only [Bool.false_eq_true, if_false, if_neg hmissing]
      exact iff_of_false (by simp) fun h => hmissing h.1

/-- A program that runs for two minutes, and that nobody can kill. -/
def stubborn : Program Float where
  exitCode := 127
  duration := 120.0
  survivesKill := true

/-- A job with a test that is given one minute. -/
def minuteTest : Job where
  name := "check"
  steps := [{ name := "Test", run := some "cargo test", timeoutMinutes := some 1.0 }]

end CiRunner
