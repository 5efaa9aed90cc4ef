import CiRunner.Run.Host

/-!
# Calls of Git

Everything a run asks of Git goes through `Git.call`, which records the call, trims the answer and
tells apart a call that failed from a missing Git.  A call that the user interrupts or the system
refuses is neither: it breaks off what it is made for.

`call` formalises `_git`.  The functions over it are `is_work_tree`, `head_sha`, `current_branch`,
`is_dirty`, `clone` and `checkout`.
-/

namespace CiRunner

open CiRunner.Text

namespace Git

/-- Why a call of Git has no answer. -/
inductive Failure where
  /-- Git is not installed. -/
  | missing
  /-- Git exited with another code than zero. -/
  | failed (args : List String) (code : Int) (error : String)
  deriving DecidableEq, Repr

/-- A computation that calls Git. -/
abbrev GitM (τ : Type) := ExceptT Failure (RunM τ)

variable {τ : Type}

/-- Why a call has no answer at all: the user interrupts it, or it is refused. -/
def breach? (reply : GitReply) : Option Fault :=
  if reply.interrupted then some .interrupted else reply.refusal.map .system

/-- The directory a call works in: that of a clone is named last. -/
def workingDirectory (args : List String) (directory : Option String) : RunM τ Location :=
  if args.head? = some "clone" then RunM.resolve (args.getLast?.getD ".")
  else RunM.resolve (directory.getD ".")

/-- Calls Git, maybe in a directory. -/
def call (args : List String) (directory : Option String) : GitM τ String := ExceptT.mk do
  RunM.act (.git args directory)
  let count := (← get).gitCalls
  modify fun w => { w with gitCalls := w.gitCalls + 1 }
  match (← read).git count args with
  | none => return .error .missing
  | some reply =>
    RunM.change reply.changes (← workingDirectory args directory)
    match breach? reply with
    | some fault => throw fault
    | none =>
      if reply.exitCode ≠ 0 then return .error (.failed args reply.exitCode reply.error)
      else return .ok (trim reply.output)

/-- Whether a directory lies in a working tree of Git; without Git it does not. -/
def isWorkTree (directory : String) : RunM τ Bool := do
  match ← (call ["rev-parse", "--is-inside-work-tree"] (some directory)).run with
  | .ok answer => return answer == "true"
  | .error _ => return false

/-- The commit that is checked out. -/
def headCommit (directory : Option String) : GitM τ String :=
  call ["rev-parse", "HEAD"] directory

/-- The branch that is checked out, if there is one. -/
def currentBranch (directory : Option String) : GitM τ (Option String) := do
  let name ← call ["rev-parse", "--abbrev-ref", "HEAD"] directory
  return if name = "HEAD" then none else some name

/-- Whether there are changes that are not committed. -/
def isDirty (directory : Option String) : GitM τ Bool := do
  let status ← call ["status", "--porcelain"] directory
  return status != ""

/-- Clones a repository without checking anything out. -/
def clone (source destination : String) : GitM τ Unit := do
  let _ ← call ["clone", "--no-checkout", "--quiet", source, destination] none
  return ()

/-- Checks out what a reference names, without a branch. -/
def detach (reference directory : String) : GitM τ Unit := do
  let _ ← call ["checkout", "--quiet", "--detach", reference] (some directory)
  return ()

/-- Fetches what a reference names, and checks it out. -/
def fetchAndDetach (reference directory : String) : GitM τ Unit := do
  let _ ← call ["fetch", "--quiet", "origin", reference] (some directory)
  detach "FETCH_HEAD" directory

/-- Checks out what a reference names, after fetching it if it is not there. -/
def checkout (reference directory : String) : GitM τ Unit := ExceptT.mk do
  match ← (detach reference directory).run with
  | .error (.failed ..) => (fetchAndDetach reference directory).run
  | answer => return answer

/-! ### The text of a failure -/

/-- The names of the signals that can end a process, by number. -/
def signalNames : List (Nat × String) := [
  (1, "SIGHUP"), (2, "SIGINT"), (3, "SIGQUIT"), (4, "SIGILL"), (5, "SIGTRAP"), (6, "SIGABRT"),
  (7, "SIGBUS"), (8, "SIGFPE"), (9, "SIGKILL"), (10, "SIGUSR1"), (11, "SIGSEGV"), (12, "SIGUSR2"),
  (13, "SIGPIPE"), (14, "SIGALRM"), (15, "SIGTERM"), (16, "SIGSTKFLT"), (17, "SIGCHLD"),
  (18, "SIGCONT"), (19, "SIGSTOP"), (20, "SIGTSTP"), (21, "SIGTTIN"), (22, "SIGTTOU"),
  (23, "SIGURG"), (24, "SIGXCPU"), (25, "SIGXFSZ"), (26, "SIGVTALRM"), (27, "SIGPROF"),
  (28, "SIGWINCH"), (29, "SIGIO"), (30, "SIGPWR"), (31, "SIGSYS"), (34, "SIGRTMIN"),
  (64, "SIGRTMAX")]

/-- How a process ended with a code other than zero. -/
def exitText (code : Int) : String :=
  match code with
  | .ofNat n => "returned non-zero exit status " ++ toString n ++ "."
  | .negSucc n =>
    match signalNames.lookup (n + 1) with
    | some name => "died with <Signals." ++ name ++ ": " ++ toString (n + 1) ++ ">."
    | none => "died with unknown signal " ++ toString (n + 1) ++ "."

/-- The text of a failure to a user. -/
def Failure.message : Failure → String
  | missing => "git command not found. Please install Git."
  | failed args code error =>
    let reason :=
      if trim error = "" then
        "Command '[" ++ join ", " (("git" :: args).map quoted) ++ "]' " ++ exitText code
      else trim error
    "git " ++ join " " (args.take 2) ++ " failed: " ++ reason

end Git

end CiRunner
