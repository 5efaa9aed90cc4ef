import CiRunner.Proofs.Run.StepLog

/-!
# What the body of a step comes to

The body of a step is its action or its command.  `BodyEnds` lists everything it can come to, with
the world that it leaves behind: an action only asks Git and tells what it did; a command is not
started, because of its directory, its shell, a shell that is missing or a system that refuses it,
or its process is followed to the end.  Whatever is shown about the steps of a run is shown by going
through these cases.
-/

namespace CiRunner

variable {τ : Type}

/-! ## Actions -/

/-- Whether an action calls Git or tells the user something. -/
def Action.isGitOrTell (a : Action τ) : Bool := a.isGit || a.isTell

/-- A world after Git was called and the user told something.  It takes no time and starts nothing,
and only what breaks a call of Git off can break it off. -/
structure World.AsksGit (host : Host τ) (fault : Option Fault) (w w' : World τ) : Prop where
  /-- No time has passed. -/
  clock_eq : w'.clock = w.clock
  /-- No process was asked for. -/
  attempts_eq : w'.attempts = w.attempts
  /-- What was done. -/
  adds : World.Adds (fun a => a.isGitOrTell = true) w w'
  /-- A fault is that of a call of Git. -/
  broken : ∀ e ∈ fault, ∃ n args reply, host.git n args = some reply ∧ Git.breach? reply = some e

instance (host : Host τ) : RunM.Chains (World.AsksGit host) where
  refl w := ⟨rfl, rfl, Std.Refl.refl (r := World.Adds _) w, by simp⟩
  trans h h' := ⟨h'.clock_eq.trans h.clock_eq, h'.attempts_eq.trans h.attempts_eq,
    trans_of (World.Adds _) h.adds h'.adds, h'.broken⟩

/-- A call of Git. -/
lemma Git.call_asksGit (host : Host τ) (args : List String) (directory : Option String) :
    RunM.Ends host (World.AsksGit host) (Git.call args directory).run := by
  intro w
  rw [Git.call_eq]
  cases hreply : host.git w.gitCalls args with
  | none =>
    exact ⟨rfl, rfl, ⟨[.git args directory], by simp, by simp [Action.isGitOrTell, Action.isGit]⟩,
      by simp⟩
  | some reply =>
    refine ⟨rfl, rfl, ⟨[.git args directory], by simp, by simp [Action.isGitOrTell, Action.isGit]⟩,
      ?_⟩
    intro e he
    cases hb : Git.breach? reply with
    | some fault =>
      simp only [hb, faultOf_error, Option.mem_some_iff] at he
      exact ⟨w.gitCalls, args, reply, hreply, he ▸ hb⟩
    | none => by_cases hcode : reply.exitCode = 0 <;> simp [hb, hcode] at he

/-- The action of a step asks Git and tells what was done. -/
lemma Sequence.runAction_asksGit (host : Host τ) (ws : Workspace) (job : Job) (step : Step) :
    RunM.Ends host (World.AsksGit host) (runAction ws job step) := by
  have htell (m : Message) : RunM.Ends host (World.AsksGit host) (RunM.tell m) :=
    fun w => ⟨rfl, rfl, ⟨[.tell m], by simp, by simp [Action.isGitOrTell, Action.isTell]⟩, by simp⟩
  exact runAction_ends (fun _ call _ => Git.call_asksGit host call.1 call.2) htell job

/-! ## Bodies -/

variable [Timeline τ] (c : Console) (ws : Workspace) (base : Environment) (host : Host τ)
variable (job : Job) (step : Step) (limit : Option τ)

/-- What the body of a step comes to in a world, and the world that it leaves behind. -/
inductive BodyEnds (w : World τ) : Except Fault Outcome → World τ → Prop
  /-- An action asks Git. -/
  | action {result : Except Fault Outcome} {w' : World τ} (hstep : step.isAction = true)
      (hasks : World.AsksGit host (faultOf result) w w') : BodyEnds w result w'
  /-- The directory of a command is no place. -/
  | noPlace {fault : Fault} (hstep : step.isAction = false)
      (hplace : Sequence.directoryOf ws.place step.cwd = .error fault) :
      BodyEnds w (.error fault) w
  /-- The system refuses to look at the directory of a command. -/
  | hidden {directory : Location} {reason : Refusal} (hstep : step.isAction = false)
      (hplace : Sequence.directoryOf ws.place step.cwd = .ok directory)
      (hnone : w.tree.isDir directory = false)
      (hreason : host.hides w.tree directory = some reason) :
      BodyEnds w (.error (.directoryHidden reason)) w
  /-- There is no such directory. -/
  | noDirectory {directory : Location} (hstep : step.isAction = false)
      (hplace : Sequence.directoryOf ws.place step.cwd = .ok directory)
      (hnone : w.tree.isDir directory = false)
      (hreason : host.hides w.tree directory = none) :
      BodyEnds w (.ok (.refused {
        kind := "cwd_not_found", job := job.name, step := some step.name
        message := "working directory not found: " ++ directory.text })) w
  /-- The shell of a command is not known. -/
  | unknownShell {directory : Location} (hstep : step.isAction = false)
      (hplace : Sequence.directoryOf ws.place step.cwd = .ok directory)
      (hdirectory : w.tree.isDir directory = true)
      (hshell : Command.shellWords? step.shell = none) :
      BodyEnds w (.error (.unknownShell step.shell)) w
  /-- The shell of a command is missing. -/
  | missing {directory : Location} {words : List String} (hstep : step.isAction = false)
      (hplace : Sequence.directoryOf ws.place step.cwd = .ok directory)
      (hdirectory : w.tree.isDir directory = true)
      (hshell : Command.shellWords? step.shell = some words)
      (hmissing : (host.program w.attempts).missing = true)
      (hreason : (host.program w.attempts).refusal = none) :
      BodyEnds w (.ok (.refused {
        kind := "shell_unavailable", job := job.name, step := some step.name
        message := step.shell ++ " is not available"
        details := [("shell", .text step.shell)] })) (w.asked 0)
  /-- The system refuses to start the shell of a command. -/
  | refused {directory : Location} {words : List String} {reason : Refusal}
      (hstep : step.isAction = false)
      (hplace : Sequence.directoryOf ws.place step.cwd = .ok directory)
      (hdirectory : w.tree.isDir directory = true)
      (hshell : Command.shellWords? step.shell = some words)
      (hmissing : (host.program w.attempts).missing = true)
      (hreason : (host.program w.attempts).refusal = some reason) :
      BodyEnds w (.error (.system reason)) (w.asked 0)
  /-- The process of a command is started and followed to its end. -/
  | started {directory : Location} {words : List String} {p : Program τ}
      (hstep : step.isAction = false)
      (hplace : Sequence.directoryOf ws.place step.cwd = .ok directory)
      (hdirectory : w.tree.isDir directory = true)
      (hshell : Command.shellWords? step.shell = some words)
      (hprogram : host.program w.attempts = p) (hthere : p.missing = false) :
      BodyEnds w
        (if p.interrupted then .error (Command.interruption p)
          else .ok (Command.verdict job step (Command.overruns p limit || Command.firesLate p limit)
            (Command.exitCode p (Command.overruns p limit))
            (Command.tail (Command.pieces p.output))))
        ((((w.asked 1).changed p.changes directory).later (Command.runTime p limit)).did
          (.spawn (1001 + w.started) (words ++ [step.run.getD ""]) directory
              (stepVariables host.environment base job step) ::
            Command.trace c (1001 + w.started) p limit))

/-- The body of a step comes to one of these. -/
theorem Sequence.runBody_ends (w : World τ) :
    BodyEnds c ws base host job step limit w (runBody c ws base job step limit host w).1
      (runBody c ws base job step limit host w).2 := by
  unfold runBody
  cases hstep : step.isAction with
  | true =>
    rw [if_pos rfl]
    exact .action hstep (runAction_asksGit host ws job step w)
  | false =>
    rw [if_neg (by simp)]
    cases hplace : directoryOf ws.place step.cwd with
    | error fault =>
      simp only [runCommand, hplace]
      exact .noPlace hstep hplace
    | ok directory =>
      cases hdirectory : w.tree.isDir directory with
      | false =>
        cases hreason : host.hides w.tree directory with
        | some reason =>
          rw [runCommand_of_hides c base job limit host hplace hdirectory hreason]
          exact .hidden hstep hplace hdirectory hreason
        | none =>
          rw [runCommand_of_not_isDir c base job limit host hplace hdirectory hreason]
          exact .noDirectory hstep hplace hdirectory hreason
      | true =>
        rw [runCommand_of_isDir c base job limit host hplace hdirectory]
        cases hshell : Command.shellWords? step.shell with
        | none =>
          rw [Command.execute_unknownShell _ _ _ _ _ _ hshell]
          exact .unknownShell hstep hplace hdirectory hshell
        | some words =>
          cases hmissing : (host.program w.attempts).missing with
          | true =>
            rw [Command.execute_missing _ _ _ _ _ _ hshell hmissing, Command.absence]
            cases hreason : (host.program w.attempts).refusal with
            | none => exact .missing hstep hplace hdirectory hshell hmissing hreason
            | some reason => exact .refused hstep hplace hdirectory hshell hmissing hreason
          | false =>
            rw [Command.execute_started _ _ _ _ _ _ hshell rfl hmissing]
            exact .started hstep hplace hdirectory hshell rfl hmissing

end CiRunner
