import CiRunner.Run.Failure
import CiRunner.Run.Host

/-!
# Running a command

A command is started in a shell, its output is passed on piece by piece, and its end is awaited.  A
time limit starts a timer, which kills the command when it fires.  A failure names the exit code, or
says that time ran out if the timer fired and the command did not exit with zero nevertheless.

A command that the user interrupts, or whose output cannot be passed on, is killed and waited for.
If it may not be killed, which the system says by a refusal, nobody waits for it, and the refusal
takes the place of what broke it off.

`execute` formalises `_execute`, its kills are those of `_kill` and its timer is the one that calls
`_expire`.
-/

namespace CiRunner

open CiRunner.Text

/-- What came of a step. -/
inductive Outcome where
  /-- The step did what it had to do. -/
  | success
  /-- Its command failed. -/
  | failed (failure : CommandFailure)
  /-- It could not be run. -/
  | refused (diagnosis : Diagnosis)
  deriving Repr

namespace Command

/-- The words that start a shell, before the command. -/
def shellWords? (shell : String) : Option (List String) :=
  if shell = "bash" then some ["bash", "--noprofile", "--norc", "-eo", "pipefail", "-c"]
  else if shell = "sh" then some ["sh", "-e", "-c"]
  else none

/-- How many lines of the output of a failed command are kept. -/
def tailLength : Nat := 40

/-- The code with which a shell reports that a command was not found. -/
def notFoundCode : Int := 127

/-- The code of a process that was killed. -/
def killedCode : Int := -9

/-- The pieces of an output: its lines with their line feeds. -/
def pieces (output : List UInt8) : List String :=
  feeds (String.ofList (unifyLineEnds (Utf8.decodeLossy output)))

/-- The last pieces of an output. -/
def tail (pieces : List String) : String :=
  String.join (pieces.drop (pieces.length - tailLength))

/-- What comes of a command that exited with a code. -/
def verdict (job : Job) (step : Step) (timedOut : Bool) (code : Int) (tail : String) : Outcome :=
  let command := step.run.getD ""
  if code = 0 then .success
  else if timedOut then
    .failed { job := job.name, step := step.name, command, exitCode := none, outputTail := tail,
              timedOut := true }
  else
    .failed { job := job.name, step := step.name, command, exitCode := some code,
              outputTail := tail,
              hint := if code = notFoundCode then Hint.of? command tail else none }

variable {τ : Type} [Timeline τ] [Streams]

/-- Whether a process is still running when its time is up. -/
def overruns (p : Program τ) (limit : Option τ) : Bool :=
  match limit with
  | some t => Timeline.within (Timeline.due t) p.duration
  | none => false

/-- Why a process may not be killed. -/
def shield? (p : Program τ) : Option Refusal := if p.survivesKill then p.shield else none

/-- The code a process exits with. -/
def exitCode (p : Program τ) (killed : Bool) : Int :=
  if killed && !p.survivesKill then killedCode else p.exitCode

/-- Starts a program, unless it is missing: the number of its process and what it does.  One that is
refused ends more than its step. -/
def spawn (argv : List String) (directory : Location) (env : Environment) :
    RunM τ (Option (Nat × Program τ)) := do
  let w ← get
  let p := (← read).program w.attempts
  if p.missing then
    set { w with attempts := w.attempts + 1 }
    match p.refusal with
    | some reason => throw (.system reason)
    | none => return none
  else
    let pid := 1001 + w.started
    set { w with attempts := w.attempts + 1, started := w.started + 1 }
    RunM.act (.spawn pid argv directory env)
    RunM.change p.changes directory
    return some (pid, p)

/-- Starts a timer for a process that has a time limit. -/
def startTimer (pid : Nat) (limit : Option τ) : RunM τ Unit :=
  match limit with
  | some t => RunM.act (.startTimer pid t)
  | none => return ()

/-- The timer of a process fires, which kills the process. -/
def fireTimer (pid : Nat) : RunM τ Unit := do
  RunM.act (.fireTimer pid)
  RunM.act (.kill pid)

/-- Lets the time pass that a process takes, or that it is given if it takes longer and may be
killed. -/
def runOut (pid : Nat) (p : Program τ) (limit : Option τ) : RunM τ Unit :=
  match limit with
  | some t =>
    if Timeline.within (Timeline.due t) p.duration then do
      RunM.pass (if (shield? p).isSome then p.duration else Timeline.due t)
      fireTimer pid
    else RunM.pass p.duration
  | none => RunM.pass p.duration

/-- Whether a timer that has not fired yet fires while it is cancelled. -/
def firesLate (p : Program τ) (limit : Option τ) : Bool :=
  limit.isSome && !overruns p limit && p.firesLate

/-- Cancels the timer of a process that has a time limit. -/
def cancelTimer (pid : Nat) (p : Program τ) (limit : Option τ) : RunM τ Unit := do
  if firesLate p limit then fireTimer pid
  if limit.isSome then RunM.act (.cancelTimer pid)

/-- What an interruption of a process comes to: a refusal of the signal takes its place. -/
def interruption (p : Program τ) : Fault :=
  match shield? p with
  | some reason => .system reason
  | none => .interrupted

/-- Kills a process that was interrupted, and waits for it if that was not done before. -/
def stop (pid : Nat) (p : Program τ) (code : Int) : RunM τ Unit := do
  if p.reaped then
    RunM.act (.wait pid code)
    RunM.act (.kill pid)
  else
    RunM.act (.kill pid)
    if (shield? p).isNone then RunM.act (.wait pid code)

/-- What is left of a program whose process is killed while its output is read. -/
def remainder (p : Program τ) : Program τ :=
  if p.survivesKill && p.shield.isNone then p
  else { p with duration := Timeline.zero, exitCode := killedCode }

/-- Kills a process whose output cannot be passed on, and waits for it unless it may not be killed.
-/
def breakOff (pid : Nat) (p : Program τ) (limit : Option τ) (fault : Fault) : RunM τ Int := do
  RunM.act (.kill pid)
  if (shield? p).isNone then
    runOut pid (remainder p) limit
    RunM.act (.wait pid (remainder p).exitCode)
  cancelTimer pid (remainder p) limit
  throw (((shield? p).map .system).getD fault)

/-- Awaits the end of a process whose output was passed on, and gives its code. -/
def conclude (pid : Nat) (p : Program τ) (limit : Option τ) : RunM τ Int := do
  let code := exitCode p (overruns p limit)
  runOut pid p limit
  if p.interrupted then
    stop pid p code
    cancelTimer pid p limit
    throw (interruption p)
  else
    RunM.act (.wait pid code)
    cancelTimer pid p limit
    return code

/-- Follows a process to its end: passes on its output, and gives its code. -/
def await (c : Console) (pid : Nat) (p : Program τ) (limit : Option τ) : RunM τ Int := do
  startTimer pid limit
  match ← RunM.attempt ((pieces p.output).forM fun piece => RunM.tell (c.echo piece)) with
  | .error fault => breakOff pid p limit fault
  | .ok _ => conclude pid p limit

/-- Runs the command of a step. -/
def execute (c : Console) (job : Job) (step : Step) (directory : Location) (env : Environment)
    (limit : Option τ) : RunM τ Outcome := do
  match shellWords? step.shell with
  | none => throw (.unknownShell step.shell)
  | some words =>
    match ← spawn (words ++ [step.run.getD ""]) directory env with
    | none =>
      return .refused {
        kind := "shell_unavailable", job := job.name, step := some step.name
        message := step.shell ++ " is not available", details := [("shell", .text step.shell)] }
    | some (pid, p) =>
      let code ← await c pid p limit
      return verdict job step (overruns p limit || firesLate p limit) code (tail (pieces p.output))

end Command

end CiRunner
