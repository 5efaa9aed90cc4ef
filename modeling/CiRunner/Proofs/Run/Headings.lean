import CiRunner.Proofs.Run.Body
import CiRunner.Proofs.Run.Isolation
import CiRunner.Proofs.Run.Output

/-!
# How messages begin

Some messages stand out: they begin on the standard output with an empty line, and the next
character tells which of them it is.  So begin the messages that a run starts, that a job starts,
that there is no run, and the summary of a run.  No other message begins like this; in particular
the output of a program is told line by line, so no piece of it does.

A message that is found in the log and has such a beginning can therefore be told from everything
else that a run says.
-/

namespace CiRunner

open RunM

variable {τ : Type}

/-! ## Beginnings -/

namespace Message

/-- A message begins on the standard output with an empty line and then with a character. -/
def Opens (letter : Char) (m : Message) : Prop :=
  m.stream = .out ∧ ∃ rest, m.text.toList = '\n' :: letter :: rest

variable {letter c : Char} {line : String}

/-- A message does not begin so if its first line is not empty. -/
lemma not_opens_out (hline : line.toList.head? = some c) (hfirst : c ≠ '\n')
    (lines : List String) : ¬(out (line :: lines)).Opens letter := by
  rintro ⟨-, rest, hrest⟩
  obtain ⟨more, hmore⟩ := List.head?_eq_some_iff.mp hline
  have hsame : c = '\n' := by
    simpa [out, ofLines, String.join_cons, hmore] using congrArg List.head? hrest
  exact hfirst hsame

/-- Nor does it if another character comes after the empty line. -/
lemma not_opens_out_empty (hline : line.toList.head? = some c) (hfirst : c ≠ letter)
    (lines : List String) : ¬(out ("" :: line :: lines)).Opens letter := by
  rintro ⟨-, rest, hrest⟩
  obtain ⟨more, hmore⟩ := List.head?_eq_some_iff.mp hline
  have hsame : c = letter := by
    simpa [out, ofLines, String.join_cons, hmore] using congrArg (List.head? ∘ List.tail) hrest
  exact hfirst hsame

/-- Nor does a message on the standard error. -/
lemma not_opens_of_stream {m : Message} (h : m.stream = .err) : ¬m.Opens letter := by
  rintro ⟨hout, -⟩
  cases h.symm.trans hout

end Message

/-- A line feed at the beginning of a line is all of it. -/
lemma Text.HasLines.eq_feed {text line : String} {lines : List String} (h : HasLines text lines)
    (hline : line ∈ lines) {rest : List Char} (hfeed : line.toList = '\n' :: rest) : rest = [] := by
  induction h with
  | none => cases hline
  | @rest only hne hnone =>
    obtain rfl := List.mem_singleton.mp hline
    simp [hfeed] at hnone
  | @line first text lines hnone h ih =>
    rcases List.mem_cons.mp hline with rfl | hline
    · cases hchars : first.toList with
      | nil => simpa [hchars] using hfeed.symm
      | cons c more =>
        have hc : c = '\n' := by simpa [hchars] using congrArg List.head? hfeed
        simp [hchars, hc] at hnone
    · exact ih hline

/-- An action tells the user something with such a beginning. -/
def Action.Opens (letter : Char) : Action τ → Prop
  | tell m => m.Opens letter
  | _ => False

/-- Actions other than messages do not. -/
lemma Action.not_opens_of_isTell {letter : Char} {a : Action τ} (h : a.isTell = false) :
    ¬a.Opens letter := by
  cases a with
  | tell => cases h
  | _ => exact id

/-! ## The messages of a run -/

namespace Console

variable (c : Console) {letter : Char}

lemma not_opens_runStarted (h : letter ≠ 'R') (name : String) (e : Event) (steps : ℕ) :
    ¬(runStarted name e steps).Opens letter :=
  Message.not_opens_out_empty (c := 'R') (by decide) h.symm _

lemma not_opens_jobStarted (h : letter ≠ 'J') (name : String) (runsOn : Option String) :
    ¬(jobStarted name runsOn).Opens letter :=
  Message.not_opens_out_empty (c := 'J') (by simp) h.symm _

lemma not_opens_stepStarted (name display : String) : ¬(c.stepStarted name display).Opens letter :=
  Message.not_opens_out (c := 'S') (by simp) (by decide) _

lemma not_opens_stepFinished (r : StepResult) : ¬(c.stepFinished r).Opens letter := by
  unfold stepFinished
  split
  · exact Message.not_opens_out (c := 'S') (by simp) (by decide) _
  · exact Message.not_opens_out (c := 'S') (by simp) (by decide) _

lemma not_opens_results (h : letter ≠ '=') (r : RunResult) : ¬(results r).Opens letter :=
  Message.not_opens_out_empty (c := '=') (by decide) h.symm _

/-- That a run is interrupted is told in a way of its own. -/
lemma not_opens_interrupted (h : letter ≠ 'I') : ¬(info "\nInterrupted by user").Opens letter := by
  rintro ⟨-, rest, hrest⟩
  have hsame : 'I' = letter := by
    simpa [info, Message.out, Message.ofLines] using congrArg (List.head? ∘ List.tail) hrest
  exact h hsame.symm

/-- What breaks a run off is told on the standard error. -/
lemma not_opens_fault (kind message : String) : ¬(c.fault kind message).Opens letter := by
  refine Message.not_opens_of_stream ?_
  unfold fault
  split <;> rfl

/-- A line of the output of a program does not begin so. -/
lemma not_opens_echo {output : List UInt8} {piece : String} (h : piece ∈ Command.pieces output) :
    ¬(c.echo piece).Opens letter := by
  rintro ⟨-, rest, hrest⟩
  cases hquiet : c.quiet with
  | true => simp [echo, hquiet] at hrest
  | false =>
    have hpiece : piece.toList = '\n' :: letter :: rest := by simpa [echo, hquiet] using hrest
    cases (Command.hasLines_pieces output).eq_feed h hpiece

end Console

/-! ## Runs -/

section Runs

variable {host : Host τ} {P : Action τ → Prop} {letter : Char}

/-- A checkout that was done tells what was done in a line that is not empty. -/
lemma Checkout.head?_of_perform {ws : Workspace} {step : Step} {done : String} {w w' : World τ}
    (h : perform ws step host w = (.ok (.ok done), w')) :
    done.toList.head? = some 'c' ∨ done.toList.head? = some 'u' := by
  unfold perform at h
  split at h
  · obtain ⟨answer, w₁, -, h⟩ := bind_eq_ok_iff.mp h
    cases answer with
    | error reason => cases h
    | ok _ =>
      cases h
      exact Or.inl (by simp)
  · right
    obtain ⟨u, w₁, -, h⟩ := bind_eq_ok_iff.mp h
    split at h
    · cases h
    · obtain ⟨inside, w₂, -, h⟩ := bind_eq_ok_iff.mp h
      cases inside with
      | true =>
        cases h
        simp
      | false =>
        cases h
        simp

section Steps

variable (hquiet : ∀ a : Action τ, a.isTell = false → P a)
variable (hdone : ∀ done : String,
  done.toList.head? = some 'c' ∨ done.toList.head? = some 'u' → P (.tell (Console.info done)))

include hquiet hdone

/-- The action of a step tells only what was done. -/
lemma Sequence.runAction_adds (ws : Workspace) (job : Job) (step : Step) :
    Leads host (World.Adds P) (runAction ws job step) := by
  unfold runAction
  split
  · intro w
    have hasks : w.Adds P (Checkout.perform ws step host w).2 :=
      (Checkout.perform_adds_git host ws step w).mono fun a ha =>
        hquiet a (Action.kinds_of_isGit ha).1
    rw [bind_apply]
    rcases hended : Checkout.perform ws step host w with ⟨fault | message | done, w'⟩
    all_goals rw [hended] at hasks
    · exact hasks
    · exact hasks
    · have htold : Leads host (World.Adds P) (tell (Console.info done)) :=
        tell_adds (hdone done (Checkout.head?_of_perform hended))
      exact trans_of (World.Adds _) hasks (htold w')
  · exact Leads.pure _

variable [Timeline τ] {c : Console}
variable (hecho : ∀ output, ∀ piece ∈ Command.pieces output, P (.tell (c.echo piece)))

include hecho

omit hdone in
/-- The output of a program is told line by line. -/
lemma Command.of_mem_trace {pid : ℕ} {p : Program τ} {limit : Option τ} {a : Action τ}
    (h : a ∈ trace c pid p limit) : P a := by
  cases a with
  | tell m =>
    have hpiece : ∃ piece ∈ pieces p.output, c.echo piece = m := by
      simpa [trace, life, mem_ending_iff, aftermath] using h
    obtain ⟨piece, hpiece, rfl⟩ := hpiece
    exact hecho p.output piece hpiece
  | _ => exact hquiet _ rfl

/-- What is done for a step tells what was done, or the output of a program line by line. -/
lemma Sequence.runBody_adds (ws : Workspace) (base : Environment) (job : Job) (step : Step)
    (limit : Option τ) : Leads host (World.Adds P) (runBody c ws base job step limit) := by
  intro w
  have hends := runBody_ends c ws base host job step limit w
  by_cases hstep : step.isAction = true
  · rw [runBody, if_pos hstep]
    exact runAction_adds hquiet hdone ws job step w
  generalize (runBody c ws base job step limit host w).1 = result at hends ⊢
  generalize (runBody c ws base job step limit host w).2 = w' at hends ⊢
  cases hends with
  | action haction => exact absurd haction hstep
  | noPlace | hidden | noDirectory | unknownShell => exact Std.Refl.refl (r := World.Adds _) w
  | missing | refused => exact ⟨[], by simp, List.forall_mem_nil _⟩
  | started =>
    refine ⟨_, World.did_actions .., List.forall_mem_cons.mpr ⟨hquiet _ rfl, fun a ha => ?_⟩⟩
    exact Command.of_mem_trace hquiet hecho ha

end Steps

variable [Timeline τ] (host) (c : Console) (ws : Workspace)

namespace Sequence

/-- What is done for a step does not begin so. -/
lemma runBody_not_opens (base : Environment) (job : Job) (step : Step) (limit : Option τ) :
    Leads host (World.Adds fun a => ¬a.Opens letter) (runBody c ws base job step limit) := by
  refine runBody_adds (fun a => Action.not_opens_of_isTell) (fun done hdone => ?_)
    (fun output piece hpiece => c.not_opens_echo hpiece) ws base job step limit
  rcases hdone with hhead | hhead
  · exact Message.not_opens_out hhead (by decide) _
  · exact Message.not_opens_out hhead (by decide) _

variable (hrun : letter ≠ 'R') (hjob : letter ≠ 'J')

include hrun hjob

omit [Timeline τ] in
/-- Of what a run says of itself, only that it starts and that its jobs start begins so. -/
lemma reports_not_opens : Reports host (fun _ => World.Adds fun a => ¬a.Opens letter) c where
  runStarted name e steps := tell_adds (Console.not_opens_runStarted hrun name e steps)
  jobStarted name runsOn := tell_adds (Console.not_opens_jobStarted hjob name runsOn)
  stepStarted name display := tell_adds (c.not_opens_stepStarted name display)
  stepFinished r := tell_adds (c.not_opens_stepFinished r)
  beginStep _ _ _ := act_adds id
  endStep _ _ := act_adds id

/-- So no other beginning is found in what a run says. -/
lemma run_not_opens (wf : Workflow) (e : Event) :
    Leads host (World.Adds fun a => ¬a.Opens letter) (run c wf e ws) :=
  run_ends (reports_not_opens host c hrun hjob) ws fun job _ step _ =>
    runBody_not_opens host c ws _ job step

end Sequence

/-! ## Around a run -/

namespace Trigger

omit [Timeline τ] in
/-- What is told around a run does not begin so. -/
lemma encloses_not_opens : Encloses c host fun _ => World.Adds fun a => ¬a.Opens letter where
  broken _ w := Std.Refl.refl (r := World.Adds _) w
  git args directory w := (Git.call_adds_git host args directory w).mono fun a ha =>
    Action.not_opens_of_isTell (Action.kinds_of_isGit ha).1
  note _ := tell_adds (Message.not_opens_out (c := 'N') (by simp) (by decide) _)
  remark text := by
    have herr : (c.remark text).stream = .err := rfl
    exact tell_adds (Message.not_opens_of_stream herr)
  opened w tree parent :=
    ⟨[.makeTemporary _], World.did_actions .., List.forall_mem_singleton.mpr id⟩
  closed place h := trans_of (World.Adds _) h
    ⟨[.removeTemporary place], World.did_actions .., List.forall_mem_singleton.mpr id⟩

/-- No other beginning than of the start of a run and of its jobs is found before its summary. -/
lemma stage_not_opens (hrun : letter ≠ 'R') (hjob : letter ≠ 'J') (wf : Workflow) (e : Event)
    (o : RunOptions) :
    Leads host (World.Adds fun a => ¬a.Opens letter) (stage c wf e o) :=
  (encloses_not_opens host c).stage_ends
    (fun ws => Sequence.run_not_opens host c ws hrun hjob wf e) o

end Trigger

end Runs

end CiRunner
