import CiRunner.Proofs.Run.Telling
import CiRunner.Proofs.Run.Verdicts

/-!
# The output of a command

The output of a process is told piece by piece while it is read, and its last lines are kept for the
case that the command fails.  The pieces are the lines of the output, so that nothing is lost or
added: what a step writes between its first and its last message is the output, and what is kept is
its end.  On a quiet console nothing is written in between, and the same is kept.
-/

namespace CiRunner

variable {τ : Type}

/-! ## Lines -/

namespace Text

/-- The lines of a text, each with the line feed at its end; what is left after the last line feed
is a line if it is not empty. -/
inductive HasLines : String → List String → Prop
  /-- There is no text. -/
  | none : HasLines "" []
  /-- There is no line feed. -/
  | rest {line : String} (hline : line ≠ "") (hfeed : '\n' ∉ line.toList) : HasLines line [line]
  /-- There is a first line. -/
  | line {line text : String} {lines : List String} (hfeed : '\n' ∉ line.toList)
      (h : HasLines text lines) : HasLines (line ++ "\n" ++ text) ((line ++ "\n") :: lines)

/-- The lines of a text are the text. -/
lemma HasLines.join_eq {text : String} {lines : List String} (h : HasLines text lines) :
    String.join lines = text := by
  induction h with
  | none => rfl
  | rest hline hfeed => rw [String.join_cons, String.join_nil, String.append_empty]
  | line hfeed h ih => rw [String.join_cons, ih]

/-- Up to the first line feed a text is one piece. -/
lemma feedsFrom_of_not_mem {line : List Char} (h : '\n' ∉ line) (before : List Char) :
    feedsFrom before line =
      if before.reverse ++ line = [] then [] else [before.reverse ++ line] := by
  induction line generalizing before with
  | nil =>
    cases before with
    | nil => rfl
    | cons c rest => simp [feedsFrom]
  | cons c rest ih =>
    obtain ⟨hc, hrest⟩ := List.ne_and_not_mem_of_not_mem_cons h
    rw [feedsFrom, if_neg (Ne.symm hc), ih hrest]
    simp

/-- The first line feed ends the first piece. -/
lemma feedsFrom_append_feed {line : List Char} (h : '\n' ∉ line) (before rest : List Char) :
    feedsFrom before (line ++ '\n' :: rest) =
      (before.reverse ++ line ++ ['\n']) :: feedsFrom [] rest := by
  induction line generalizing before with
  | nil => simp [feedsFrom]
  | cons c more ih =>
    obtain ⟨hc, hmore⟩ := List.ne_and_not_mem_of_not_mem_cons h
    rw [List.cons_append, feedsFrom, if_neg (Ne.symm hc), ih hmore]
    simp

/-- The pieces of a text are its lines. -/
lemma hasLines_feedsFrom {before : List Char} (hbefore : '\n' ∉ before) (s : List Char) :
    HasLines (String.ofList (before.reverse ++ s)) ((feedsFrom before s).map String.ofList) := by
  induction s generalizing before with
  | nil =>
    cases before with
    | nil => exact .none
    | cons c rest =>
      have hfeed : '\n' ∉ (String.ofList (c :: rest).reverse).toList := by
        rw [String.toList_ofList, List.mem_reverse]
        exact hbefore
      have hline : String.ofList (c :: rest).reverse ≠ "" := by simp
      have hpieces : feedsFrom (c :: rest) [] = [(c :: rest).reverse] := rfl
      rw [List.append_nil, hpieces]
      exact .rest hline hfeed
  | cons c rest ih =>
    by_cases hc : c = '\n'
    · have hrest : HasLines (String.ofList rest) ((feedsFrom [] rest).map String.ofList) :=
        ih List.not_mem_nil
      have hline : '\n' ∉ (String.ofList before.reverse).toList := by simpa using hbefore
      have hfirst := HasLines.line hline hrest
      have htext : String.ofList before.reverse ++ "\n" ++ String.ofList rest =
          String.ofList (before.reverse ++ c :: rest) := by
        simp [hc, String.ofList_append, String.append_assoc]
      have hpiece : String.ofList (c :: before).reverse = String.ofList before.reverse ++ "\n" := by
        simp [hc, String.ofList_append]
      rw [feedsFrom, if_pos hc, List.map_cons, hpiece, ← htext]
      exact hfirst
    · have hmore : '\n' ∉ c :: before := by
        simpa using ⟨Ne.symm hc, hbefore⟩
      have hrest := ih hmore
      rw [feedsFrom, if_neg hc]
      simpa using hrest

/-- A text has the lines into which it is cut, and no others. -/
theorem hasLines_iff {text : String} {lines : List String} :
    HasLines text lines ↔ lines = feeds text := by
  constructor
  · intro h
    induction h with
    | none => rfl
    | @rest line hline hfeed =>
      have hne : line.toList ≠ [] := by simpa using hline
      simp [feeds, feedsFrom_of_not_mem hfeed, hne]
    | @line line text lines hfeed h ih =>
      have hchars : (line ++ "\n" ++ text).toList = line.toList ++ '\n' :: text.toList := by simp
      rw [feeds, hchars, feedsFrom_append_feed hfeed, ih]
      simp [feeds, String.ofList_append]
  · rintro rfl
    have h := hasLines_feedsFrom List.not_mem_nil text.toList
    simpa [feeds] using h

end Text

namespace Command

/-! ## The end of an output -/

/-- The text that a process writes, as it is read: decoded, with one kind of line end. -/
def text (output : List UInt8) : String :=
  String.ofList (Text.unifyLineEnds (Text.Utf8.decodeLossy output))

/-- The pieces of an output are the lines of its text. -/
lemma hasLines_pieces (output : List UInt8) : Text.HasLines (text output) (pieces output) :=
  Text.hasLines_iff.mpr rfl

/-- A text is made of the last lines among others: of forty, or of all if there are no more. -/
def IsTail (lines : List String) (tail : String) : Prop :=
  ∃ before last, lines = before ++ last ∧ last.length = min 40 lines.length ∧
    tail = String.join last

/-- The tail of an output is made of its last lines. -/
lemma isTail_tail (lines : List String) : IsTail lines (tail lines) := by
  refine ⟨_, _, (List.take_append_drop (lines.length - tailLength) lines).symm, ?_, rfl⟩
  have hforty : tailLength = 40 := rfl
  rw [List.length_drop, hforty]
  omega

/-- The last lines are the end of the text, and all of it if there are at most forty. -/
lemma IsTail.suffix {text tail : String} {lines : List String} (hlines : Text.HasLines text lines)
    (h : IsTail lines tail) :
    (∃ head, text = head ++ tail) ∧ (lines.length ≤ 40 → tail = text) := by
  obtain ⟨before, last, rfl, hlength, rfl⟩ := h
  have htext : text = String.join before ++ String.join last := by
    rw [← hlines.join_eq, String.join_append]
  refine ⟨⟨_, htext⟩, fun hfew => ?_⟩
  have hnone : before = [] := by
    rw [Nat.min_eq_right hfew, List.length_append] at hlength
    exact List.length_eq_zero_iff.mp (by omega)
  rw [htext, hnone, String.join_nil, String.empty_append]

end Command

/-! ## What a step writes -/

/-- What is written to a stream in a log. -/
def written (s : Stream) (log : List (Action τ)) : String :=
  String.join (log.filterMap (Action.writes? s))

/-- What is written in one log after another. -/
lemma written_append (s : Stream) (log more : List (Action τ)) :
    written s (log ++ more) = written s log ++ written s more := by
  rw [written, List.filterMap_append, String.join_append]
  rfl

/-- Where nothing is told, nothing is written. -/
lemma written_eq_empty {s : Stream} {log : List (Action τ)} (h : ∀ a ∈ log, a.isTell = false) :
    written s log = "" := by
  have hnone : log.filterMap (Action.writes? s) = [] := by
    refine List.filterMap_eq_nil_iff.mpr fun a ha => ?_
    have hnot := h a ha
    cases a with
    | tell m => cases hnot
    | _ => rfl
  rw [written, hnone, String.join_nil]

/-- The pieces of an output are written one after another, unless the console is quiet. -/
lemma written_echo (c : Console) (lines : List String) :
    written .out (lines.map fun line => (.tell (c.echo line) : Action τ)) =
      if c.quiet then "" else String.join lines := by
  induction lines with
  | nil => cases c.quiet <;> rfl
  | cons line rest ih =>
    have hfirst : written .out [(.tell (c.echo line) : Action τ)] =
        if c.quiet then "" else line := by
      simp [written, Action.writes?, Console.echo]
    rw [List.map_cons, ← List.singleton_append, written_append, hfirst, ih, String.join_cons]
    cases c.quiet with
    | true => rfl
    | false => rfl

/-- While a process is followed its output is written, and nothing else. -/
lemma Command.written_trace [Timeline τ] (c : Console) (pid : ℕ) (p : Program τ)
    (limit : Option τ) :
    written .out (trace c pid p limit) = if c.quiet then "" else text p.output := by
  have htimer : written .out (limit.map (Action.startTimer pid)).toList = "" := by
    cases limit <;> rfl
  have hfired : written .out (if overruns p limit then [Action.fireTimer (τ := τ) pid,
      Action.kill pid] else []) = "" := by
    split <;> rfl
  have hkilled : written .out (if p.interrupted && !p.reaped then [Action.kill (τ := τ) pid]
      else []) = "" := by
    split <;> rfl
  have hending : written .out (ending pid p limit) = "" := by
    unfold ending
    split <;> rfl
  have hafter : written .out (aftermath pid p limit) = "" := by
    refine written_eq_empty fun a ha => ?_
    have hkind := (isFollowUp_of_mem_aftermath ha).1
    cases a with
    | tell m => cases hkind
    | _ => rfl
  simp only [trace, life, written_append, htimer, hfired, hkilled, hending, hafter, written_echo,
    (hasLines_pieces p.output).join_eq]
  simp

/-! ## Steps -/

/-- What is kept of the output for a verdict: its tail if the command failed. -/
lemma Command.outputTail_of_verdict (job : Job) (step : Step) (timedOut : Bool) (code : ℤ)
    (tail : String) (duration : Float) :
    (Sequence.resultOf job step duration (verdict job step timedOut code tail)).outputTail =
      if code = 0 then "" else tail := by
  unfold verdict
  by_cases hzero : code = 0
  · rw [if_pos hzero, if_pos hzero]
    rfl
  · rw [if_neg hzero, if_neg hzero]
    cases timedOut <;> rfl

section Steps

variable [Timeline τ] (c : Console) (ws : Workspace) (base : Environment) (job : Job)
variable (deadline : Option τ) {step : Step} {host : Host τ} {w : World τ}
variable (hstart : step.CanStart ws w.tree) (hthere : (host.program w.attempts).missing = false)
include hstart hthere

/-- A step with a process comes to a result unless it is interrupted, and follows the process
between its first and its last message. -/
lemma Sequence.runStep_output :
    let p := host.program w.attempts
    let limit := stepLimit step deadline w.clock
    let ended := runStep c ws base job deadline step host w
    ∃ argv directory env closing,
      w.added ended.2 = opening c job step w.clock ++
        .spawn (1001 + w.started) argv directory env ::
          Command.trace c (1001 + w.started) p limit ++ closing ∧
      (p.interrupted = true ∧ ended.1 = .error (Command.interruption p) ∧ closing = [] ∨
        p.interrupted = false ∧ ∃ r duration stop, ended.1 = .ok r ∧
          closing = Sequence.closing c r stop ∧
          r = resultOf job step duration (Command.verdict job step
            (Command.overruns p limit || Command.firesLate p limit)
            (Command.exitCode p (Command.overruns p limit))
            (Command.tail (Command.pieces p.output)))) := by
  intro p limit ended
  obtain ⟨argv, directory, env, w', hbody, hadded⟩ :=
    runBody_started c ws base job hstart hthere limit
  refine ⟨argv, directory, env, ?_⟩
  cases hi : p.interrupted with
  | true =>
    rw [if_pos hi] at hbody
    obtain ⟨hended, hlog⟩ := runStep_of_error c ws base job deadline hbody hadded
    exact ⟨[], by rw [List.append_nil]; exact hlog, Or.inl ⟨rfl, hended, rfl⟩⟩
  | false =>
    rw [if_neg (Bool.eq_false_iff.mp hi)] at hbody
    obtain ⟨r, duration, hended, hr, hlog⟩ := runStep_of_ok c ws base job deadline hbody hadded
    exact ⟨_, hlog, Or.inr ⟨rfl, r, duration, _, hended, rfl, hr⟩⟩

/-- What is kept of the output does not depend on the console. -/
lemma Sequence.runStep_outputTail :
    let p := host.program w.attempts
    let code := Command.exitCode p (Command.overruns p (stepLimit step deadline w.clock))
    (runStep c ws base job deadline step host w).1.map StepResult.outputTail =
      if p.interrupted then .error (Command.interruption p)
      else .ok (if code = 0 then "" else Command.tail (Command.pieces p.output)) := by
  intro p code
  obtain ⟨argv, directory, env, closing, -, hcases⟩ :=
    runStep_output c ws base job deadline hstart hthere
  rcases hcases with ⟨hi, hended, -⟩ | ⟨hi, r, duration, stop, hended, -, hr⟩
  · rw [hended, if_pos hi]
    rfl
  · rw [hended, if_neg (Bool.eq_false_iff.mp hi), ← Command.outputTail_of_verdict job step _ code _
      duration, ← hr]
    rfl

/-- A step with a process writes the output of the process between its first and its last message,
whatever else the process does, or nothing if the console is quiet.  If the step fails, its result
has the last forty lines of the output, or all of it if there are no more, and a quiet console
changes nothing about that. -/
theorem output_streamed :
    let text := Command.text (host.program w.attempts).output
    let ended := Sequence.runStep c ws base job deadline step host w
    ∃ middle closing lines,
      w.added ended.2 = Sequence.opening c job step w.clock ++ middle ++ closing ∧
      written .out middle = (if c.quiet then "" else text) ∧
      (∀ others, Text.HasLines text others ↔ others = lines) ∧
      (∀ fault, ended.1 = .error fault → closing = []) ∧
      (∀ r, ended.1 = .ok r → (∃ stop, closing = Sequence.closing c r stop) ∧
        (r.status = .failure → Command.IsTail lines r.outputTail ∧
          (∃ head, text = head ++ r.outputTail) ∧
          (lines.length ≤ 40 → r.outputTail = text))) ∧
      ∀ quiet, (Sequence.runStep { c with quiet } ws base job deadline step host w).1.map
        StepResult.outputTail = ended.1.map StepResult.outputTail := by
  intro text ended
  set p := host.program w.attempts
  obtain ⟨argv, directory, env, closing, hlog, hcases⟩ :=
    Sequence.runStep_output c ws base job deadline hstart hthere
  refine ⟨_, closing, Command.pieces p.output, hlog, ?_, fun _ => Text.hasLines_iff, ?_, ?_,
    fun quiet => ?_⟩
  · exact Command.written_trace c _ p _
  · intro fault hfault
    rcases hcases with ⟨-, -, hclosing⟩ | ⟨-, r, -, -, hended, -⟩
    · exact hclosing
    · cases hfault.symm.trans hended
  · intro r hr
    rcases hcases with ⟨-, hended, -⟩ | ⟨-, r', duration, stop, hended, hclosing, hresult⟩
    · cases hr.symm.trans hended
    cases hr.symm.trans hended
    refine ⟨⟨stop, hclosing⟩, fun hfailure => ?_⟩
    -- the command has failed, so its tail is kept
    have htail : r.outputTail = Command.tail (Command.pieces p.output) := by
      rw [hresult, Command.outputTail_of_verdict, if_neg]
      intro hzero
      rw [hresult, hzero] at hfailure
      cases hfailure
    have hlast : Command.IsTail (Command.pieces p.output) r.outputTail := by
      rw [htail]
      exact Command.isTail_tail _
    exact ⟨hlast, hlast.suffix (Command.hasLines_pieces p.output)⟩
  · rw [Sequence.runStep_outputTail _ ws base job deadline hstart hthere]
    exact (Sequence.runStep_outputTail c ws base job deadline hstart hthere).symm

end Steps

/-- A program that writes two lines and fails, the second one without a line feed. -/
def unfinished : Program Float where
  output := [111, 110, 101, 10, 116, 119, 111]
  exitCode := 1
  duration := 1.0

/-- What comes of a test with this program on a quiet console. -/
def unfinishedTest : Except Fault StepResult :=
  (Sequence.runStep { quiet := true } (Workspace.inPlace [] "/" "") [] minuteTest none
    { name := "Test", run := some "cargo test" } (Host.scripted [unfinished]) .initial).1

/-- When a command fails after two lines on a quiet console, they are not shown as they come, but
they are kept. -/
theorem output_streamed_of_unfinished :
    ∃ r, unfinishedTest = .ok r ∧ r.status = .failure ∧ r.outputTail = "one\ntwo" := by
  have hstart : Step.CanStart (Workspace.inPlace [] "/" "") World.initial.tree
      { name := "Test", run := some "cargo test" } := ⟨rfl, Or.inl rfl, [], rfl, rfl⟩
  have hthere : ((Host.scripted [unfinished]).program World.initial.attempts).missing = false := rfl
  have hfails : unfinishedTest.toOption.map StepResult.status = some .failure := by decide +kernel
  obtain ⟨middle, closing, lines, -, -, hlines, -, hresult, -⟩ := output_streamed
    { quiet := true } (Workspace.inPlace [] "/" "") [] minuteTest none hstart hthere
  cases hended : unfinishedTest with
  | error fault =>
    rw [hended] at hfails
    cases hfails
  | ok r =>
    rw [hended] at hfails
    have hstatus : r.status = .failure := Option.some.inj hfails
    have htwo : ["one\n", "two"] = lines :=
      (hlines _).mp (Text.hasLines_iff.mpr (by decide +kernel))
    have hfew : lines.length ≤ 40 := by
      rw [← htwo]
      decide
    refine ⟨r, rfl, hstatus, (((hresult r hended).2 hstatus).2.2 hfew).trans ?_⟩
    decide +kernel

end CiRunner
