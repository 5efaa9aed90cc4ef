import CiRunner.Calendar.Moment
import CiRunner.FileTree.Tree
import CiRunner.Run.Console
import CiRunner.Workflow.Files

/-!
# The host of a run

A run happens on a host: it starts processes, calls Git, reads a clock, changes files and tells its
user about it.  What processes and Git do is not known beforehand, so a `Host` gives their behaviour
as functions of how often they were used before.  A `World` holds what has happened so far, in
particular the `Action`s in their order.  `RunM` is a computation on a host.

A message is for one of the standard streams, which may not take it.  The streams are those of the
instance of `Streams`.  `Streams.unlimited` take every text, and what is said of a run without
naming its streams is said of a run on these.

Time is measured on any scale with the operations of `Timeline`.
-/

namespace CiRunner

open CiRunner.Text

/-- A scale on which time is measured. -/
class Timeline (τ : Type) where
  /-- No time at all. -/
  zero : τ
  /-- One time after another. -/
  plus : τ → τ → τ
  /-- The time left of one after another. -/
  minus : τ → τ → τ
  /-- Whether a time is shorter than another one. -/
  shorter : τ → τ → Bool
  /-- Whether a time is no longer than another one. -/
  within : τ → τ → Bool
  /-- A time given in minutes. -/
  ofMinutes : Float → τ
  /-- The seconds of a time. -/
  seconds : τ → Float

instance : Timeline Float where
  zero := 0.0
  plus := (· + ·)
  minus := (· - ·)
  shorter a b := a < b
  within a b := a ≤ b
  ofMinutes m := m * 60.0
  seconds t := t

namespace Timeline

variable {τ : Type} [Timeline τ]

/-- The shorter of two times, the first if neither is. -/
def least (a b : τ) : τ := if shorter b a then b else a

/-- A time that is not negative: no time at all in place of one that is not positive. -/
def clip (t : τ) : τ := if shorter zero t then t else zero

/-- The time after which a timer fires: its length, and no time at all if that is no number. -/
def due (t : τ) : τ := if within t t then t else zero

end Timeline

/-! ### What programs and Git do -/

/-- The kinds of errors by which something is refused, other than that it is not there. -/
inductive RefusalKind where
  /-- It is not permitted. -/
  | permission
  /-- A word or a variable has a form that is not allowed. -/
  | value
  /-- A part of a path is no directory. -/
  | notDirectory
  /-- What is read is no text. -/
  | notText
  /-- A text has a character that the encoding does not have. -/
  | notEncodable
  /-- Nobody reads what is written. -/
  | brokenPipe
  /-- Any other error of the system. -/
  | system
  deriving DecidableEq, Repr

/-- The name of a kind. -/
def RefusalKind.name : RefusalKind → String
  | permission => "PermissionError"
  | value => "ValueError"
  | notDirectory => "NotADirectoryError"
  | notText => "UnicodeDecodeError"
  | notEncodable => "UnicodeEncodeError"
  | brokenPipe => "BrokenPipeError"
  | system => "OSError"

/-- Why something is refused. -/
structure Refusal where
  /-- The kind of the error. -/
  kind : RefusalKind
  /-- Its message. -/
  message : String
  deriving DecidableEq, Repr

/-- Why a text is not taken. -/
structure Rejection where
  /-- The error. -/
  reason : Refusal
  /-- What of the text is written nevertheless. -/
  written : String := ""
  deriving DecidableEq, Repr

/-- The standard streams, which may not take a text: its characters have to be in the encoding of
its stream, and somebody has to read it. -/
class Streams where
  /-- Why a message is not taken after others, unless it is. -/
  rejects : List Message → Message → Option Rejection

/-- Streams that take every text. -/
instance Streams.unlimited : Streams where
  rejects _ _ := none

/-- What a program does when it is started. -/
structure Program (τ : Type) where
  /-- The bytes it writes. -/
  output : List UInt8 := []
  /-- The code it exits with if nobody kills it, negative when a signal ended it. -/
  exitCode : Int := 0
  /-- How long it takes. -/
  duration : τ
  /-- What it does to the files, from its own directory. -/
  changes : FileTree.Change := fun _ t => t
  /-- Whether it cannot be started, since it is missing or refused. -/
  missing : Bool := false
  /-- Why it cannot be started, unless it is missing: the system refuses its words, its variables or
  its directory. -/
  refusal : Option Refusal := none
  /-- Whether it survives being killed. -/
  survivesKill : Bool := false
  /-- Why it survives, if that is since it may not be killed. -/
  shield : Option Refusal := none
  /-- Whether a timer that is still pending fires at the moment it is cancelled. -/
  firesLate : Bool := false
  /-- Whether the user interrupts it, while its output is read or its end is awaited. -/
  interrupted : Bool := false
  /-- Whether an interruption finds that it was waited for already. -/
  reaped : Bool := false
  deriving Inhabited

/-- What Git answers to a call, if there is an answer: the call may be refused, as with a word or a
directory that the system does not take or an answer that is no text, or the user may interrupt it.
-/
structure GitReply where
  /-- What it writes to the standard output. -/
  output : String := ""
  /-- What it writes to the standard error. -/
  error : String := ""
  /-- The code it exits with. -/
  exitCode : Int := 0
  /-- What it does to the files, from the directory it works in. -/
  changes : FileTree.Change := fun _ t => t
  /-- Why there is no answer, though Git is installed. -/
  refusal : Option Refusal := none
  /-- Whether the user interrupts it. -/
  interrupted : Bool := false
  deriving Inhabited

/-- A machine: what programs do on it, and where a run starts. -/
structure Host (τ : Type) where
  /-- What the program does that is started after so many others. -/
  program : Nat → Program τ
  /-- What Git answers to a call after so many others; nothing if it is not installed. -/
  git : Nat → List String → Option GitReply
  /-- The variables of the runner itself. -/
  environment : Environment
  /-- The users of the machine. -/
  users : Users := {}
  /-- Why the system refuses to look whether a directory stands at a place of a tree, if it does: a
  name on the way is too long, or a directory may not be searched. -/
  hides : FileTree → Location → Option Refusal := fun _ _ => none
  /-- The working directory. -/
  directory : Location
  /-- The directory for temporary files. -/
  temporary : Location
  /-- What the script at a place defines. -/
  script : Location → Script
  /-- The time of day when it is asked for after so many times before. -/
  now : Nat → Calendar.Moment
  /-- The fresh name made after so many others. -/
  freshName : Nat → String

/-- Something that a run does outside itself. -/
inductive Action (τ : Type) where
  /-- Calls Git, maybe in a directory. -/
  | git (args : List String) (directory : Option String)
  /-- Starts a process. -/
  | spawn (pid : Nat) (argv : List String) (directory : Location) (env : Environment)
  /-- Starts a timer for a process. -/
  | startTimer (pid : Nat) (length : τ)
  /-- A timer fires. -/
  | fireTimer (pid : Nat)
  /-- Cancels the timer of a process. -/
  | cancelTimer (pid : Nat)
  /-- Sends the signal that kills to a process and all it has started, whether or not they are still
  there and may be killed. -/
  | kill (pid : Nat)
  /-- Waits for a process, which exits with a code. -/
  | wait (pid : Nat) (code : Int)
  /-- Makes a temporary directory. -/
  | makeTemporary (place : Location)
  /-- Removes a temporary directory. -/
  | removeTemporary (place : Location)
  /-- Tells the user something. -/
  | tell (message : Message)
  /-- Records something in the log of the program. -/
  | log (level text : String)
  /-- Sets up the log of the program. -/
  | setUpLog (level : String)
  /-- Serves requests with some workflows. -/
  | serve (address : String) (port : Int) (workflows : List String)
  /-- Begins a step. -/
  | beginStep (job step : String) (time : τ)
  /-- Ends a step. -/
  | endStep (result : StepResult) (time : τ)

/-- What an action tells, unless it tells nothing. -/
def Action.message? {τ : Type} : Action τ → Option Message
  | tell m => if m.text = "" then none else some m
  | _ => none

/-- What has happened so far. -/
structure World (τ : Type) where
  /-- The time on the clock. -/
  clock : τ
  /-- The files. -/
  tree : FileTree
  /-- How many processes were asked for. -/
  attempts : Nat := 0
  /-- How many processes were started. -/
  started : Nat := 0
  /-- How many calls of Git were made. -/
  gitCalls : Nat := 0
  /-- How many temporary directories were made. -/
  temporaries : Nat := 0
  /-- How often the time of day was asked for. -/
  stamps : Nat := 0
  /-- How many fresh names were made. -/
  names : Nat := 0
  /-- What was done, in order. -/
  actions : Array (Action τ) := #[]

/-- What was told, in order. -/
def World.told {τ : Type} (w : World τ) : List Message := w.actions.toList.filterMap Action.message?

/-- What ends a run before its time. -/
inductive Fault where
  /-- The user interrupted it. -/
  | interrupted
  /-- A step asks for a shell that is not known. -/
  | unknownShell (name : String)
  /-- The working directory of a step is no text. -/
  | directoryNotText (v : Value)
  /-- The working directory of a step has a null character. -/
  | directoryMalformed
  /-- The system refuses to look at the working directory of a step. -/
  | directoryHidden (reason : Refusal)
  /-- A directory cannot be made. -/
  | file (reason : FileError)
  /-- The home directory is not known. -/
  | homeUnknown
  /-- Git is missing where it was there before. -/
  | gitMissing
  /-- A branch cannot be compared with a pattern. -/
  | pattern (reason : Branch.Pattern.MatchError)
  /-- A process or a call of Git is refused. -/
  | system (reason : Refusal)
  /-- A message is not taken. -/
  | notTold (reason : Refusal)
  deriving Repr

namespace Value

/-- The name of the kind of a value. -/
def kindName : Value → String
  | null => "NoneType"
  | bool _ => "bool"
  | int _ => "int"
  | float _ => "float"
  | text _ => "str"
  | bytes _ => "bytes"
  | date _ => "datetime.date"
  | moment _ => "datetime.datetime"
  | list _ => "list"
  | pair _ _ => "tuple"
  | map _ => "dict"
  | set _ => "set"

end Value

namespace Fault

/-- The message of a fault. -/
def message : Fault → String
  | interrupted => ""
  | unknownShell name => quoted name
  | directoryNotText v =>
    "unsupported operand type(s) for /: 'PosixPath' and '" ++ v.kindName ++ "'"
  | directoryMalformed => "lstat: embedded null character in path"
  | directoryHidden reason => reason.message
  | file reason => reason.message
  | homeUnknown => "Could not determine home directory."
  | gitMissing => "[Errno 2] No such file or directory: 'git'"
  | pattern reason => reason.message
  | system reason => reason.message
  | notTold reason => reason.message

end Fault

/-- A computation on a host. -/
abbrev RunM (τ : Type) := ReaderT (Host τ) (ExceptT Fault (StateM (World τ)))

namespace RunM

variable {τ α : Type}

/-- Does something outside. -/
def act (a : Action τ) : RunM τ Unit :=
  modify fun w => { w with actions := w.actions.push a }

/-- Tells the user something, unless its stream does not take it.  Nothing is written for an empty
text. -/
def tell [Streams] (m : Message) : RunM τ Unit := do
  match Streams.rejects (← get).told m with
  | none => act (.tell m)
  | some rejection =>
    if m.text = "" then act (.tell m)
    else
      act (.tell { m with text := rejection.written })
      throw (.notTold rejection.reason)

/-- Records something in the log. -/
def log (level text : String) : RunM τ Unit := act (.log level text)

/-- The time on the clock. -/
def clock : RunM τ τ := return (← get).clock

/-- Lets time pass. -/
def pass [Timeline τ] (t : τ) : RunM τ Unit :=
  modify fun w => { w with clock := Timeline.plus w.clock t }

/-- Changes the files from a directory. -/
def change (f : FileTree.Change) (directory : Location) : RunM τ Unit :=
  modify fun w => { w with tree := f directory w.tree }

/-- The time of day. -/
def now : RunM τ Calendar.Moment := do
  let w ← get
  set { w with stamps := w.stamps + 1 }
  return (← read).now w.stamps

/-- A fresh name. -/
def freshName : RunM τ String := do
  let w ← get
  set { w with names := w.names + 1 }
  return (← read).freshName w.names

/-- The place a path leads to from the working directory. -/
def resolve (path : String) : RunM τ Location :=
  return (Path.ofText path).resolve (← read).directory

/-- The home directory, if it is known. -/
def home : RunM τ (Option String) := return (← read).environment.value? "HOME"

/-- The files among which workflows are looked up. -/
def files : RunM τ WorkflowFiles := do
  let host ← read
  return { tree := (← get).tree, script := host.script, directory := host.directory
           home := host.environment.value? "HOME", users := host.users }

/-- Carries out a computation and gives what came of it, a fault included. -/
def attempt (body : RunM τ α) : RunM τ (Except Fault α) := fun host world =>
  let (result, world) := body host world
  (.ok result, world)

/-- Cleans up after a computation, whether or not it came to its end. -/
def ensuring (body : RunM τ α) (cleanup : RunM τ Unit) : RunM τ α := fun host world =>
  let (result, world) := body host world
  (result, (cleanup host world).2)

end RunM

end CiRunner
