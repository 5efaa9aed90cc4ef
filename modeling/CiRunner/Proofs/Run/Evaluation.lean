import CiRunner.Run.Trigger
import Mathlib

/-!
# Evaluating computations on a host

A computation takes a host and a world to a result and a world.  This file gives the equation of
every primitive computation, and from these the equations of the two things a run does outside
itself, commands and calls of Git, and of the way in which steps and jobs follow one another.
Later files use these equations and never look into a computation again.

The actions of a world only grow.  `World.did` adds actions to a world, so that the equations show
which actions a computation adds.
-/

namespace CiRunner

variable {τ α β : Type}

/-! ## Worlds in which more was done -/

namespace World

/-- A world in which some actions were done last. -/
def did (w : World τ) (log : List (Action τ)) : World τ :=
  { w with actions := w.actions ++ log.toArray }

/-- A world some time later. -/
def later [Timeline τ] (w : World τ) (t : τ) : World τ :=
  { w with clock := Timeline.plus w.clock t }

/-- A world in which the files were changed from a directory. -/
def changed (w : World τ) (f : FileTree.Change) (directory : Location) : World τ :=
  { w with tree := f directory w.tree }

/-- A world in which one more process was asked for, and started or not. -/
def asked (w : World τ) (started : Nat) : World τ :=
  { w with attempts := w.attempts + 1, started := w.started + started }

/-- A world in which Git was called once more. -/
def called (w : World τ) : World τ := { w with gitCalls := w.gitCalls + 1 }

/-- The actions of a world come before those that are added. -/
@[simp] lemma did_actions (w : World τ) (log : List (Action τ)) :
    (w.did log).actions.toList = w.actions.toList ++ log := by
  simp [did]

@[simp] lemma did_nil (w : World τ) : w.did [] = w := by
  simp [did]

/-- Actions added one after the other are added together. -/
@[simp] lemma did_did (w : World τ) (log more : List (Action τ)) :
    (w.did log).did more = w.did (log ++ more) := by
  simp [did, Array.append_assoc]

variable (w : World τ) (log : List (Action τ))

/-! The parts of a world do not matter to one another. -/

@[simp] lemma did_clock : (w.did log).clock = w.clock := rfl

@[simp] lemma did_tree : (w.did log).tree = w.tree := rfl

@[simp] lemma did_attempts : (w.did log).attempts = w.attempts := rfl

@[simp] lemma did_started : (w.did log).started = w.started := rfl

@[simp] lemma did_gitCalls : (w.did log).gitCalls = w.gitCalls := rfl

@[simp] lemma asked_actions (n : ℕ) : (w.asked n).actions = w.actions := rfl

@[simp] lemma asked_tree (n : ℕ) : (w.asked n).tree = w.tree := rfl

@[simp] lemma asked_clock (n : ℕ) : (w.asked n).clock = w.clock := rfl

@[simp] lemma asked_attempts (n : ℕ) : (w.asked n).attempts = w.attempts + 1 := rfl

@[simp] lemma later_actions [Timeline τ] (t : τ) : (w.later t).actions = w.actions := rfl

@[simp] lemma later_tree [Timeline τ] (t : τ) : (w.later t).tree = w.tree := rfl

@[simp] lemma later_clock [Timeline τ] (t : τ) :
    (w.later t).clock = Timeline.plus w.clock t := rfl

@[simp] lemma later_attempts [Timeline τ] (t : τ) : (w.later t).attempts = w.attempts := rfl

@[simp] lemma changed_actions (f : FileTree.Change) (directory : Location) :
    (w.changed f directory).actions = w.actions := rfl

@[simp] lemma changed_tree (f : FileTree.Change) (directory : Location) :
    (w.changed f directory).tree = f directory w.tree := rfl

@[simp] lemma changed_clock (f : FileTree.Change) (directory : Location) :
    (w.changed f directory).clock = w.clock := rfl

@[simp] lemma changed_attempts (f : FileTree.Change) (directory : Location) :
    (w.changed f directory).attempts = w.attempts := rfl

@[simp] lemma called_clock : w.called.clock = w.clock := rfl

@[simp] lemma called_attempts : w.called.attempts = w.attempts := rfl

@[simp] lemma called_actions : w.called.actions = w.actions := rfl

@[simp] lemma called_tree : w.called.tree = w.tree := rfl

@[simp] lemma later_did [Timeline τ] (t : τ) : (w.did log).later t = (w.later t).did log := rfl

@[simp] lemma changed_did (f : FileTree.Change) (directory : Location) :
    (w.did log).changed f directory = (w.changed f directory).did log := rfl

@[simp] lemma asked_did (n : ℕ) : (w.did log).asked n = (w.asked n).did log := rfl

@[simp] lemma called_did : (w.did log).called = w.called.did log := rfl

end World

/-! ## A host on which everything is known -/

/-- A host without Git on which one program after another does as it is told, and further ones do
nothing for a second. -/
def Host.scripted (programs : List (Program Float)) : Host Float where
  program n := programs.getD n { duration := 1.0 }
  git _ _ := none
  environment := []
  directory := []
  temporary := ["tmp"]
  script _ := []
  now _ := default
  freshName _ := ""

/-- A host whose first program writes something. -/
def writingHost (output : List UInt8) : Host Float := Host.scripted [{ output, duration := 1.0 }]

/-- Streams whose encoding has the characters up to 127. -/
@[reducible] def asciiStreams : Streams where
  rejects _ m :=
    if m.text.toList.all fun c => c.toNat < 128 then none
    else some { reason := { kind := .notEncodable, message := "ordinal not in range(128)" } }

/-- A world without files in which nothing has happened. -/
def World.initial : World Float := { clock := 0.0, tree := ⟨[]⟩ }

/-- A workflow that builds and tests in one job and packs in another. -/
def buildAndPack : Workflow where
  name := "ci"
  jobs := [
    { name := "check"
      steps := [{ name := "Build", run := some "make" },
        { name := "Test", run := some "make test" }] },
    { name := "pack", steps := [{ name := "Pack", run := some "make dist" }] }]

/-! ## Primitive computations -/

namespace RunM

/-- One computation after another: a fault of the first ends both. -/
@[simp] lemma bind_apply (m : RunM τ α) (f : α → RunM τ β) (host : Host τ) (w : World τ) :
    (m >>= f) host w =
      match m host w with
      | (.ok a, w') => f a host w'
      | (.error e, w') => (.error e, w') := by
  change ExceptT.bind (m host) (fun a => f a host) w = _
  simp only [ExceptT.bind, ExceptT.mk, bind, StateT.bind]
  rcases m host w with ⟨_ | _, _⟩ <;> rfl

/-- A computation after another one gives a value exactly if both do. -/
lemma bind_eq_ok_iff {m : RunM τ α} {f : α → RunM τ β} {host : Host τ} {w w' : World τ} {b : β} :
    (m >>= f) host w = (.ok b, w') ↔
      ∃ a w₁, m host w = (.ok a, w₁) ∧ f a host w₁ = (.ok b, w') := by
  rw [bind_apply]
  constructor
  · intro h
    split at h
    · exact ⟨_, _, ‹_›, h⟩
    · cases congrArg Prod.fst h
  · rintro ⟨a, w₁, hm, hf⟩
    rw [hm]
    exact hf

/-- A function applied to what comes of a computation. -/
@[simp] lemma map_apply (m : RunM τ α) (f : α → β) (host : Host τ) (w : World τ) :
    (f <$> m) host w =
      match m host w with
      | (.ok a, w') => (.ok (f a), w')
      | (.error e, w') => (.error e, w') := by
  change ExceptT.map f (m host) w = _
  simp only [ExceptT.map, ExceptT.mk, bind, StateT.bind]
  rcases m host w with ⟨_ | _, _⟩ <;> rfl

/-- A function applied at the end of a computation changes only its value. -/
lemma bind_pure_apply (m : RunM τ α) (f : α → β) (host : Host τ) (w : World τ) :
    (m >>= fun a => pure (f a)) host w = ((m host w).1.map f, (m host w).2) := by
  rw [bind_apply]
  rcases m host w with ⟨_ | _, _⟩ <;> rfl

variable (host : Host τ) (w : World τ)

@[simp] lemma pure_apply (a : α) : (pure a : RunM τ α) host w = (.ok a, w) := rfl

@[simp] lemma throw_apply (e : Fault) : (throw e : RunM τ α) host w = (.error e, w) := rfl

@[simp] lemma get_apply : (get : RunM τ (World τ)) host w = (.ok w, w) := rfl

@[simp] lemma set_apply (w' : World τ) : (set w' : RunM τ PUnit) host w = (.ok ⟨⟩, w') := rfl

@[simp] lemma modify_apply (f : World τ → World τ) :
    (modify f : RunM τ PUnit) host w = (.ok ⟨⟩, f w) := rfl

@[simp] lemma read_apply : (read : RunM τ (Host τ)) host w = (.ok host, w) := rfl

@[simp] lemma clock_apply : (clock : RunM τ τ) host w = (.ok w.clock, w) := rfl

@[simp] lemma act_apply (a : Action τ) : act a host w = (.ok (), w.did [a]) := rfl

@[simp] lemma tell_apply (m : Message) : tell m host w = (.ok (), w.did [.tell m]) := rfl

@[simp] lemma log_apply (level text : String) :
    log level text host w = (.ok (), w.did [.log level text]) := rfl

@[simp] lemma now_apply :
    now host w = (.ok (host.now w.stamps), { w with stamps := w.stamps + 1 }) := rfl

@[simp] lemma freshName_apply :
    freshName host w = (.ok (host.freshName w.names), { w with names := w.names + 1 }) := rfl

@[simp] lemma change_apply (f : FileTree.Change) (directory : Location) :
    change f directory host w = (.ok (), w.changed f directory) := rfl

@[simp] lemma pass_apply [Timeline τ] (t : τ) :
    pass t host w = (.ok (), w.later t) := rfl

@[simp] lemma resolve_apply (path : String) :
    resolve path host w = (.ok ((Path.ofText path).resolve host.directory), w) := rfl

/-- Trying a computation gives its fault as a value. -/
lemma attempt_apply (m : RunM τ α) (host : Host τ) (w : World τ) :
    attempt m host w = (.ok (m host w).1, (m host w).2) := rfl

/-- Telling one thing after another adds one action for each. -/
@[simp] lemma forM_tell_apply (f : α → Message) (l : List α) (host : Host τ) (w : World τ) :
    (forM l fun a => tell (f a) : RunM τ PUnit) host w =
      (.ok ⟨⟩, w.did (l.map fun a => .tell (f a))) := by
  induction l generalizing w with
  | nil => simp
  | cons a rest ih => simp [ih]

end RunM

/-! ## Faults from outside -/

/-- Whether a fault comes from outside: the user interrupts something, or the system refuses it. -/
def Fault.isOutside : Fault → Bool
  | interrupted => true
  | system _ => true
  | _ => false

/-- A call of Git is broken off from outside. -/
lemma Git.isOutside_of_breach? {reply : GitReply} {fault : Fault} (h : breach? reply = some fault) :
    fault.isOutside = true := by
  unfold breach? at h
  split at h
  · cases h
    rfl
  · obtain ⟨reason, -, rfl⟩ := Option.map_eq_some_iff.mp h
    rfl

/-- What comes of an interruption of a process comes from outside. -/
lemma Command.isOutside_interruption (p : Program τ) : (interruption p).isOutside = true := by
  unfold interruption
  split <;> rfl

/-! ## Commands -/

namespace Command

/-- Starting a process makes its changes and adds one action; a program that is missing or refused
is only asked for. -/
lemma spawn_eq (argv : List String) (directory : Location) (env : Environment) (host : Host τ)
    (w : World τ) :
    spawn argv directory env host w =
      if (host.program w.attempts).missing then
        (match (host.program w.attempts).refusal with
          | some reason => .error (.system reason)
          | none => .ok none, w.asked 0)
      else
        (.ok (some (1001 + w.started, host.program w.attempts)),
          ((w.asked 1).changed (host.program w.attempts).changes directory).did
            [.spawn (1001 + w.started) argv directory env]) := by
  cases hm : (host.program w.attempts).missing with
  | true =>
    cases hr : (host.program w.attempts).refusal <;> simp [spawn, hm, hr, World.asked]
  | false =>
    simp [spawn, hm, World.asked, World.changed]
    rfl

variable [Timeline τ]

/-- How long a process runs under a time limit, which ends it if it may be killed. -/
def runTime (p : Program τ) (limit : Option τ) : τ :=
  if overruns p limit && (shield? p).isNone then (limit.map Timeline.due).getD p.duration
  else p.duration

/-- A process is left alone: the user interrupts it, and it may not be killed. -/
def abandoned (p : Program τ) : Bool := p.interrupted && !p.reaped && (shield? p).isSome

/-- The actions of a process from its start until it is waited for. -/
def life (c : Console) (pid : Nat) (p : Program τ) (limit : Option τ) : List (Action τ) :=
  (limit.map (Action.startTimer pid)).toList ++
    (pieces p.output).map (fun piece => Action.tell (c.echo piece)) ++
    (if overruns p limit then [Action.fireTimer pid, Action.kill pid] else []) ++
    if p.interrupted && !p.reaped then [Action.kill pid] else []

/-- The wait for a process, unless it is left alone. -/
def ending (pid : Nat) (p : Program τ) (limit : Option τ) : List (Action τ) :=
  if abandoned p then [] else [.wait pid (exitCode p (overruns p limit))]

/-- The actions after the wait for a process: an interruption that finds it waited for kills it
nevertheless, and its timer fires late or is cancelled. -/
def aftermath (pid : Nat) (p : Program τ) (limit : Option τ) : List (Action τ) :=
  (if p.interrupted && p.reaped then [Action.kill pid] else []) ++
    (if firesLate p limit then [Action.fireTimer pid, Action.kill pid] else []) ++
    if limit.isSome then [Action.cancelTimer pid] else []

/-- The actions of a process from the end of its output to the end of its timer. -/
def conclusion (pid : Nat) (p : Program τ) (limit : Option τ) : List (Action τ) :=
  (if overruns p limit then [Action.fireTimer pid, Action.kill pid] else []) ++
    (if p.interrupted && !p.reaped then [Action.kill pid] else []) ++ ending pid p limit ++
    aftermath pid p limit

/-- The actions of a process from its start to the end of its timer. -/
def trace (c : Console) (pid : Nat) (p : Program τ) (limit : Option τ) : List (Action τ) :=
  life c pid p limit ++ ending pid p limit ++ aftermath pid p limit

omit [Timeline τ] in
/-- Stopping an interrupted process kills it before or after the wait. -/
lemma stop_apply (pid : Nat) (p : Program τ) (code : Int) (host : Host τ) (w : World τ) :
    stop pid p code host w =
      (.ok (), w.did ((if p.reaped then [] else [.kill pid]) ++
        (if !p.reaped && (shield? p).isSome then [] else [.wait pid code]) ++
        if p.reaped then [.kill pid] else [])) := by
  cases hr : p.reaped <;> cases hs : shield? p <;> simp [stop, hr, hs]

/-- Cancelling a timer makes it fire if it does so late. -/
lemma cancelTimer_apply (pid : Nat) (p : Program τ) (limit : Option τ) (host : Host τ)
    (w : World τ) :
    cancelTimer pid p limit host w =
      (.ok (), w.did ((if firesLate p limit then [.fireTimer pid, .kill pid] else []) ++
        if limit.isSome then [.cancelTimer pid] else [])) := by
  cases hl : firesLate p limit <;> cases limit <;> simp [cancelTimer, fireTimer, hl]

/-- Letting a process run takes its time, and kills it if its time is up. -/
lemma runOut_apply (pid : Nat) (p : Program τ) (limit : Option τ) (host : Host τ) (w : World τ) :
    runOut pid p limit host w =
      (.ok (), (w.later (runTime p limit)).did
        (if overruns p limit then [.fireTimer pid, .kill pid] else [])) := by
  cases limit with
  | none => simp [runOut, runTime, overruns]
  | some t =>
    cases ho : Timeline.within (Timeline.due t) p.duration <;> cases hs : shield? p <;>
      simp [runOut, runTime, overruns, fireTimer, ho, hs]

omit [Timeline τ] in
/-- A time limit starts a timer. -/
lemma startTimer_apply (pid : Nat) (limit : Option τ) (host : Host τ) (w : World τ) :
    startTimer pid limit host w =
      (.ok (), w.did (limit.map (Action.startTimer pid)).toList) := by
  cases limit <;> simp [startTimer]

/-- Awaiting the end of a process takes its time and gives its code, unless the user interrupts it.
-/
lemma conclude_eq (pid : Nat) (p : Program τ) (limit : Option τ) (host : Host τ) (w : World τ) :
    conclude pid p limit host w =
      (if p.interrupted then .error (interruption p) else .ok (exitCode p (overruns p limit)),
        (w.later (runTime p limit)).did (conclusion pid p limit)) := by
  cases hi : p.interrupted with
  | false =>
    simp [conclude, hi, runOut_apply, cancelTimer_apply, conclusion, ending, abandoned, aftermath]
  | true =>
    cases hr : p.reaped <;> cases hs : shield? p <;>
      simp [conclude, hi, hr, hs, runOut_apply, stop_apply, cancelTimer_apply, conclusion, ending,
        abandoned, aftermath]

/-- Following a process takes its time, leaves its trace and gives its code, unless the user
interrupts it. -/
lemma await_eq (c : Console) (pid : Nat) (p : Program τ) (limit : Option τ) (host : Host τ)
    (w : World τ) :
    await c pid p limit host w =
      (if p.interrupted then .error (interruption p) else .ok (exitCode p (overruns p limit)),
        (w.later (runTime p limit)).did (trace c pid p limit)) := by
  simp [await, RunM.attempt_apply, startTimer_apply, conclude_eq, trace, life, conclusion]

/-- What comes of a shell that cannot be started: a missing one refuses the step, and one that the
system refuses ends the run. -/
def absence (job : Job) (step : Step) (p : Program τ) : Except Fault Outcome :=
  match p.refusal with
  | some reason => .error (.system reason)
  | none => .ok (.refused {
      kind := "shell_unavailable", job := job.name, step := some step.name
      message := step.shell ++ " is not available"
      details := [("shell", .text step.shell)] })

omit [Timeline τ] in
/-- It is no success. -/
lemma absence_ne_success (job : Job) (step : Step) (p : Program τ) :
    absence job step p ≠ .ok .success := by
  unfold absence
  split <;> simp

section Execute

variable (c : Console) (job : Job) (step : Step) (directory : Location) (env : Environment)
variable (limit : Option τ) {host : Host τ} {w : World τ}

/-- A shell that is not known ends the run before anything is done. -/
lemma execute_unknownShell (hs : shellWords? step.shell = none) :
    execute c job step directory env limit host w = (.error (.unknownShell step.shell), w) := by
  simp [execute, hs]

/-- A shell that cannot be started is only asked for. -/
lemma execute_missing {words : List String} (hs : shellWords? step.shell = some words)
    (hm : (host.program w.attempts).missing = true) :
    execute c job step directory env limit host w =
      (absence job step (host.program w.attempts), w.asked 0) := by
  cases hr : (host.program w.attempts).refusal <;> simp [execute, hs, spawn_eq, hm, hr, absence]

/-- What comes of a command whose process is started and followed to its end. -/
lemma execute_started {words : List String} (hs : shellWords? step.shell = some words)
    {p : Program τ} (hp : host.program w.attempts = p) (hm : p.missing = false) :
    execute c job step directory env limit host w =
      (if p.interrupted then .error (interruption p)
        else .ok (verdict job step (overruns p limit || firesLate p limit)
          (exitCode p (overruns p limit)) (tail (pieces p.output))),
        (((w.asked 1).changed p.changes directory).later (runTime p limit)).did
          (.spawn (1001 + w.started) (words ++ [step.run.getD ""]) directory env ::
            trace c (1001 + w.started) p limit)) := by
  simp only [execute, hs, RunM.bind_apply, spawn_eq, hp, hm]
  cases hi : p.interrupted <;> simp [await_eq, hi]

end Execute

end Command

/-! ## Calls of Git -/

namespace Git

/-- The directory a call works in, as it is resolved on a host. -/
def placeOf (host : Host τ) (args : List String) (directory : Option String) : Location :=
  if args.head? = some "clone" then (Path.ofText (args.getLast?.getD ".")).resolve host.directory
  else (Path.ofText (directory.getD ".")).resolve host.directory

lemma workingDirectory_apply (args : List String) (directory : Option String) (host : Host τ)
    (w : World τ) :
    workingDirectory args directory host w = (.ok (placeOf host args directory), w) := by
  unfold workingDirectory placeOf
  split <;> simp

/-- What comes of a call of Git: it is recorded, and an installed Git makes its changes before it
is broken off, fails or answers. -/
lemma call_eq (args : List String) (directory : Option String) (host : Host τ) (w : World τ) :
    (call args directory).run host w =
      match host.git w.gitCalls args with
      | none => (.ok (.error .missing), w.called.did [.git args directory])
      | some reply =>
        (match breach? reply with
          | some fault => .error fault
          | none =>
            if reply.exitCode ≠ 0 then .ok (.error (.failed args reply.exitCode reply.error))
            else .ok (.ok (Text.trim reply.output)),
          (w.called.changed reply.changes (placeOf host args directory)).did
            [.git args directory]) := by
  simp only [call, ExceptT.run, ExceptT.mk, RunM.bind_apply, RunM.act_apply, RunM.get_apply,
    RunM.modify_apply, RunM.read_apply, World.did_gitCalls]
  cases hr : host.git w.gitCalls args with
  | none => simp; rfl
  | some reply =>
    cases hb : breach? reply <;> by_cases hc : reply.exitCode = 0 <;>
      simp [workingDirectory_apply, hb, hc] <;> rfl

end Git

/-! ## Steps and runs -/

namespace Sequence

variable [Timeline τ]

/-- A step is its body between its marks; a fault of the body leaves out the last mark. -/
lemma runStep_eq (c : Console) (ws : Workspace) (base : Environment) (job : Job)
    (deadline : Option τ) (step : Step) (host : Host τ) (w : World τ) :
    runStep c ws base job deadline step host w =
      match runBody c ws base job step (stepLimit step deadline w.clock) host
          (w.did [.tell (c.stepStarted step.name step.display),
            .beginStep job.name step.name w.clock]) with
      | (.error e, w') => (.error e, w')
      | (.ok outcome, w') =>
        let r := resultOf job step (Timeline.seconds (Timeline.minus w'.clock w.clock)) outcome
        (.ok r, w'.did [.endStep r w'.clock, .tell (c.stepFinished r)]) := by
  simp only [runStep, RunM.bind_apply, RunM.tell_apply, RunM.clock_apply, RunM.act_apply,
    World.did_did, World.did_clock, List.singleton_append]
  rcases runBody c ws base job step (stepLimit step deadline w.clock) host _ with ⟨e | outcome, w'⟩
  · rfl
  · simp

section Commands

variable {ws : Workspace} {step : Step} {directory : Location} (c : Console) (base : Environment)
variable (job : Job) (limit : Option τ) (host : Host τ) {w : World τ}
variable (hplace : directoryOf ws.place step.cwd = .ok directory)
include hplace

/-- A command is executed in a directory that is there. -/
lemma runCommand_of_isDir (hdirectory : w.tree.isDir directory = true) :
    runCommand c ws base job step limit host w =
      Command.execute c job step directory (stepVariables host.environment base job step) limit host
        w := by
  simp [runCommand, hplace, hdirectory]

/-- A directory that the system refuses to look at breaks a command off. -/
lemma runCommand_of_hides (hnone : w.tree.isDir directory = false) {reason : Refusal}
    (hreason : host.hides w.tree directory = some reason) :
    runCommand c ws base job step limit host w = (.error (.directoryHidden reason), w) := by
  simp [runCommand, hplace, hnone, hreason]

/-- A command is refused if there is no such directory. -/
lemma runCommand_of_not_isDir (hnone : w.tree.isDir directory = false)
    (hreason : host.hides w.tree directory = none) :
    runCommand c ws base job step limit host w =
      (.ok (.refused {
        kind := "cwd_not_found", job := job.name, step := some step.name
        message := "working directory not found: " ++ directory.text }), w) := by
  simp [runCommand, hplace, hnone, hreason]

end Commands

/-- A command is not started if its directory or its shell is wrong, whatever the console and the
programs of the host are like and whatever was done before; else it is executed. -/
lemma runCommand_cases (ws : Workspace) (base : Environment) (job : Job) (step : Step)
    (limit : Option τ) (t : FileTree) (hides : FileTree → Location → Option Refusal) :
    (∃ result : Except Fault Outcome, result ≠ .ok .success ∧
      ∀ (c : Console) (host : Host τ) (w : World τ), host.hides = hides → w.tree = t →
        runCommand c ws base job step limit host w = (result, w)) ∨
    ∃ directory words, directoryOf ws.place step.cwd = .ok directory ∧ t.isDir directory = true ∧
      Command.shellWords? step.shell = some words ∧
      ∀ (c : Console) (host : Host τ) (w : World τ), host.hides = hides → w.tree = t →
        runCommand c ws base job step limit host w =
          Command.execute c job step directory (stepVariables host.environment base job step) limit
            host w := by
  cases hd : directoryOf ws.place step.cwd with
  | error fault =>
    refine Or.inl ⟨.error fault, by simp, fun c host w _ _ => ?_⟩
    simp [runCommand, hd]
  | ok directory =>
    cases hdir : t.isDir directory with
    | false =>
      cases hreason : hides t directory with
      | some reason =>
        refine Or.inl ⟨.error (.directoryHidden reason), by simp, ?_⟩
        rintro c host w rfl rfl
        exact runCommand_of_hides c base job limit host hd hdir hreason
      | none =>
        refine Or.inl ⟨.ok (.refused {
          kind := "cwd_not_found", job := job.name, step := some step.name
          message := "working directory not found: " ++ directory.text }), by simp, ?_⟩
        rintro c host w rfl rfl
        exact runCommand_of_not_isDir c base job limit host hd hdir hreason
    | true =>
      cases hwords : Command.shellWords? step.shell with
      | none =>
        refine Or.inl ⟨.error (.unknownShell step.shell), by simp, ?_⟩
        rintro c host w - rfl
        rw [runCommand_of_isDir c base job limit host hd hdir,
          Command.execute_unknownShell _ _ _ _ _ _ hwords]
      | some words =>
        refine Or.inr ⟨directory, words, rfl, hdir, rfl, ?_⟩
        rintro c host w - rfl
        exact runCommand_of_isDir c base job limit host hd hdir

/-- The steps of a job: the first one, and the others unless it fails. -/
lemma runSteps_cons (c : Console) (ws : Workspace) (base : Environment) (job : Job)
    (deadline : Option τ) (step : Step) (rest : List Step) (host : Host τ) (w : World τ) :
    runSteps c ws base job deadline (step :: rest) host w =
      match runStep c ws base job deadline step host w with
      | (.error e, w') => (.error e, w')
      | (.ok r, w') =>
        if isFailure r then (.ok (r :: rest.map (skipped job)), w')
        else ((runSteps c ws base job deadline rest host w').1.map (r :: ·),
          (runSteps c ws base job deadline rest host w').2) := by
  rw [runSteps, RunM.bind_apply]
  rcases runStep c ws base job deadline step host w with ⟨e | r, w'⟩
  · rfl
  cases hr : isFailure r with
  | true => simp [hr]
  | false =>
    simp only [hr, Bool.false_eq_true, if_false]
    exact RunM.bind_pure_apply ..

/-- A job tells that it was started and runs its steps up to its deadline. -/
lemma runJob_eq (c : Console) (ws : Workspace) (base : Environment) (job : Job) (host : Host τ)
    (w : World τ) :
    runJob c ws base job host w =
      runSteps c ws base job
        (job.timeoutMinutes.map fun m => Timeline.plus w.clock (Timeline.ofMinutes m)) job.steps
        host (w.did [.tell (Console.jobStarted job.name job.runsOn)]) := by
  simp only [runJob, RunM.bind_apply, RunM.tell_apply, RunM.clock_apply, World.did_clock]

/-- Jobs: the first one, and the others unless one of its steps fails. -/
lemma runJobs_cons (c : Console) (ws : Workspace) (base : Environment) (job : Job)
    (rest : List Job) (host : Host τ) (w : World τ) :
    runJobs c ws base (job :: rest) host w =
      match runJob c ws base job host w with
      | (.error e, w') => (.error e, w')
      | (.ok rs, w') =>
        if rs.any isFailure then
          (.ok (rs ++ rest.flatMap fun j => j.steps.map (skipped j)), w')
        else ((runJobs c ws base rest host w').1.map (rs ++ ·),
          (runJobs c ws base rest host w').2) := by
  rw [runJobs, RunM.bind_apply]
  rcases runJob c ws base job host w with ⟨e | rs, w'⟩
  · rfl
  cases hrs : rs.any isFailure with
  | true => simp [hrs]
  | false =>
    simp only [hrs, Bool.false_eq_true, if_false]
    exact RunM.bind_pure_apply ..

/-- A run tells that it was started and gives the results of its jobs. -/
lemma run_eq (c : Console) (wf : Workflow) (e : Event) (ws : Workspace) (host : Host τ)
    (w : World τ) :
    run c wf e ws host w =
      ((runJobs c ws (runVariables wf e ws.place) wf.jobs host
          (w.did [.tell (Console.runStarted wf.name e wf.steps.length)])).1.map
          fun steps => { workflow := wf.name, event := e, steps },
        (runJobs c ws (runVariables wf e ws.place) wf.jobs host
          (w.did [.tell (Console.runStarted wf.name e wf.steps.length)])).2) := by
  unfold run
  rw [RunM.bind_apply, RunM.tell_apply]
  exact RunM.bind_pure_apply ..

end Sequence

end CiRunner
