import CiRunner.Proofs.Run.Agreement
import CiRunner.Proofs.Run.Rejections
import CiRunner.Proofs.Success

/-!
# What a run tells makes no difference to it

A console decides how much a run tells its user.  It may show details, and it may leave out what the
commands write.  None of this comes back into the run: whatever the console, the run has the same
results, or ends with the same fault, and does the same.  A quiet console does not even tell apart
two runs whose commands write different things, as long as no step fails.

Both are comparisons of two runs, of which only some actions have to be the same: all but those that
tell something, or all but those that tell nothing at all.  `Indifferent` says what two consoles on
two hosts need for that, and the steps are compared once for both.

Only a stream that does not take what is told makes a difference, since it breaks the run off.  So
the runs are compared on streams that take every text first, and `Sequence.run_follows` relates them
to runs on other streams.
-/

namespace CiRunner

variable {τ α : Type}

/-! ## What is told -/

/-- Whether an action tells the user nothing, though it tells. -/
def Action.isSilence : Action τ → Bool
  | tell m => m.text == ""
  | _ => false

/-- What an action writes to a stream. -/
def Action.writes? (s : Stream) : Action τ → Option String
  | tell m => if m.stream = s then some m.text else none
  | _ => none

/-- All that was written to a stream. -/
def World.printed (w : World τ) (s : Stream) : String :=
  String.join (w.actions.toList.filterMap (Action.writes? s))

/-- Telling nothing leaves no trace on a stream. -/
lemma join_writes_filter (s : Stream) (log : List (Action τ)) :
    String.join ((log.filter fun a => !a.isSilence).filterMap (Action.writes? s)) =
      String.join (log.filterMap (Action.writes? s)) := by
  induction log with
  | nil => rfl
  | cons a log ih =>
    cases hsilence : a.isSilence with
    | false =>
      rw [List.filter_cons_of_pos (by simp [hsilence]), List.filterMap_cons, List.filterMap_cons]
      cases a.writes? s with
      | none => exact ih
      | some text => rw [String.join_cons, String.join_cons, ih]
    | true =>
      rw [List.filter_cons_of_neg (by simp [hsilence]), List.filterMap_cons, ih]
      cases hwrites : a.writes? s with
      | none => rfl
      | some text =>
        have htext : text = "" := by
          cases a with
          | tell m =>
            have hm : m.text = "" := by simpa [Action.isSilence] using hsilence
            simp only [Action.writes?, hm] at hwrites
            split_ifs at hwrites
            exact (Option.some.inj hwrites).symm
          | _ => cases hwrites
        rw [htext, String.join_cons, String.empty_append]

/-- Worlds that differ only in silence have the same written in them. -/
lemma World.AlikeIn.printed_eq {w w₀ : World τ} (h : w.AlikeIn (fun a => !a.isSilence) w₀)
    (s : Stream) : w₀.printed s = w.printed s := by
  rw [printed, printed, ← join_writes_filter, h.actions_eq, join_writes_filter]

/-- Telling nothing is no message. -/
lemma messages_filter (log : List (Action τ)) :
    messages (log.filter fun a => !a.isSilence) = messages log := by
  unfold messages
  rw [List.filterMap_filter]
  refine List.filterMap_congr fun a _ => ?_
  cases a with
  | tell m => by_cases hm : m.text = "" <;> simp [Action.isSilence, Action.message?, hm]
  | _ => rfl

/-- Worlds that differ only in silence have the same messages in them. -/
lemma World.AlikeIn.told_eq {w w₀ : World τ} (h : w.AlikeIn (fun a => !a.isSilence) w₀) :
    w₀.told = w.told := by
  rw [told, told, ← messages, ← messages, ← messages_filter, h.actions_eq, messages_filter]

/-! ## Two computations that do the same -/

/-- Two computations, each on a host of its own, come to the same and do the same of what is seen,
if the first one comes to something that is expected. -/
def RunM.SameWhen (seen : Action τ → Bool) (expected : Except Fault α → Prop) (host host₀ : Host τ)
    (m m₀ : RunM τ α) : Prop :=
  ∀ w w₀, World.AlikeIn seen w w₀ → expected (m host w).1 →
    (m₀ host₀ w₀).1 = (m host w).1 ∧ World.AlikeIn seen (m host w).2 (m₀ host₀ w₀).2

open RunM

/-- Two hosts that are the same but for what their programs write. -/
structure Host.SameButOutput (host host₀ : Host τ) : Prop where
  /-- The programs do the same but write. -/
  program_eq : ∀ n, ∃ output, host₀.program n = { host.program n with output }
  /-- Git is the same. -/
  git_eq : host₀.git = host.git
  /-- The same directories are hidden. -/
  hides_eq : host₀.hides = host.hides
  /-- The working directory is the same. -/
  directory_eq : host₀.directory = host.directory
  /-- The variables are the same. -/
  environment_eq : host₀.environment = host.environment

/-- A host is the same as itself. -/
lemma Host.SameButOutput.refl (host : Host τ) : host.SameButOutput host :=
  ⟨fun _ => ⟨_, rfl⟩, rfl, rfl, rfl, rfl⟩

/-- Two consoles on two hosts make no difference to what is seen of a run.  Either anything may come
of the run, and then the hosts are the same, or only runs without a failure are compared. -/
structure Indifferent (seen : Action τ → Bool) (anything : Prop) (host host₀ : Host τ)
    (c c₀ : Console) : Prop where
  /-- The hosts differ at most in what programs write. -/
  hosts : host.SameButOutput host₀
  /-- They do not differ if anything may come of the run. -/
  host_eq : anything → host₀ = host
  /-- What programs write is not seen on the first console. -/
  echo : ∀ piece, seen (.tell (c.echo piece)) = false
  /-- Nor is it on the second one. -/
  echo₀ : ∀ piece, seen (.tell (c₀.echo piece)) = false
  /-- The begin of a step is seen alike. -/
  started : ∀ name display,
    [Action.tell (c₀.stepStarted name display)].filter seen =
      [Action.tell (c.stepStarted name display)].filter seen
  /-- So is the end of a step. -/
  finished : ∀ r, anything ∨ Sequence.isFailure r = false →
    [Action.tell (c₀.stepFinished r)].filter seen = [Action.tell (c.stepFinished r)].filter seen

variable {seen : Action τ → Bool} {anything : Prop} {host host₀ : Host τ} {c c₀ : Console}

/-- Anything may come of steps, or none of them fails. -/
def Expected (anything : Prop) (results : Except Fault (List StepResult)) : Prop :=
  anything ∨ ∃ rs, results = .ok rs ∧ rs.any Sequence.isFailure = false

namespace Expected

variable {results : Except Fault (List StepResult)}

/-- A fault is expected only if anything is. -/
lemma of_error {fault : Fault} (h : Expected anything (.error fault)) : anything :=
  h.resolve_right (by simp)

/-- So is a failure. -/
lemma of_failure {rs : List StepResult} (h : Expected anything (.ok rs))
    (hfailure : rs.any Sequence.isFailure = true) : anything := by
  refine h.resolve_right ?_
  rintro ⟨all, hall, hnone⟩
  cases hall
  rw [hfailure] at hnone
  cases hnone

/-- What is expected of all steps is expected of the last ones. -/
lemma of_map (rs : List StepResult) (h : Expected anything (results.map (rs ++ ·))) :
    Expected anything results := by
  refine h.imp_right ?_
  rintro ⟨all, hall, hnone⟩
  obtain ⟨more, rfl, rfl⟩ := Success.map_eq_ok_iff.mp hall
  rw [List.any_append, Bool.or_eq_false_iff] at hnone
  exact ⟨more, rfl, hnone.2⟩

end Expected

/-! ## One step -/

section Step

variable [Timeline τ]

/-- What is seen of a process is the same whatever it writes and wherever it is told. -/
lemma Indifferent.trace_eq (h : Indifferent seen anything host host₀ c c₀) (pid : ℕ)
    (p : Program τ) (output : List UInt8) (limit : Option τ) :
    (Command.trace c₀ pid { p with output } limit).filter seen =
      (Command.trace c pid p limit).filter seen := by
  have hsilent (d : Console) (hd : ∀ piece, seen (.tell (d.echo piece)) = false)
      (pieces : List String) :
      (pieces.map fun piece => Action.tell (d.echo piece)).filter seen = [] := by
    simp [List.filter_eq_nil_iff, hd]
  simp only [Command.trace, Command.life, List.filter_append, hsilent c h.echo,
    hsilent c₀ h.echo₀]
  rfl

namespace Sequence

variable (h : Indifferent seen anything host host₀ c c₀)
include h

/-- A command gives the same on both consoles. -/
lemma runCommand_same (ws : Workspace) (base : Environment) (job : Job) (step : Step)
    (limit : Option τ) :
    SameWhen seen (fun x => anything ∨ x = .ok .success) host host₀
      (runCommand c ws base job step limit) (runCommand c₀ ws base job step limit) := by
  intro w w₀ hw hexpected
  rcases runCommand_cases ws base job step limit w.tree host.hides with
    ⟨result, -, hrun⟩ | ⟨directory, words, -, -, hwords, hrun⟩
  all_goals rw [hrun c host w rfl rfl] at hexpected ⊢
  all_goals rw [hrun c₀ host₀ w₀ h.hosts.hides_eq hw.alike.tree_eq]
  · exact ⟨rfl, hw⟩
  obtain ⟨output, hprogram⟩ := h.hosts.program_eq w.attempts
  have hprogram₀ : host₀.program w₀.attempts = { host.program w.attempts with output } := by
    rw [hw.alike.attempts_eq, hprogram]
  cases hm : (host.program w.attempts).missing with
  | true =>
    rw [Command.execute_missing _ _ _ _ _ _ hwords hm,
      Command.execute_missing _ _ _ _ _ _ hwords (by rw [hprogram₀]; exact hm), hprogram₀]
    exact ⟨rfl, hw.asked 0⟩
  | false =>
    rw [Command.execute_started _ _ _ _ _ _ hwords rfl hm] at hexpected ⊢
    rw [Command.execute_started _ _ _ _ _ _ hwords hprogram₀ hm, h.hosts.environment_eq,
      hw.alike.started_eq]
    set p := host.program w.attempts with hp
    refine ⟨?_, (((hw.asked 1).changed _ _).later _).did ?_⟩
    · rcases hexpected with hany | hsuccess
      · -- on one and the same host the command writes the same
        rw [h.host_eq hany, ← hp] at hprogram
        rw [← hprogram]
      · cases hi : p.interrupted with
        | true => simp [hi] at hsuccess
        | false =>
          simp only [hi, Bool.false_eq_true, if_false, Except.ok.injEq] at hsuccess ⊢
          have hcode := Command.exitCode_eq_zero_of_verdict hsuccess
          rw [hsuccess, Command.verdict]
          exact if_pos hcode
    · rw [List.filter_cons, List.filter_cons, h.trace_eq]

/-- The body of a step gives the same on both consoles. -/
lemma runBody_same (ws : Workspace) (base : Environment) (job : Job) (step : Step)
    (limit : Option τ) :
    SameWhen seen (fun x => anything ∨ x = .ok .success) host host₀
      (runBody c ws base job step limit) (runBody c₀ ws base job step limit) := by
  unfold runBody
  split
  · exact fun w w₀ hw _ =>
      runAction_agrees h.hosts.git_eq h.hosts.directory_eq ws job step w w₀ hw
  · exact runCommand_same h ws base job step limit

/-- A step gives the same on both consoles. -/
lemma runStep_same (ws : Workspace) (base : Environment) (job : Job) (deadline : Option τ)
    (step : Step) :
    SameWhen seen (fun x => anything ∨ ∃ r, x = .ok r ∧ isFailure r = false) host host₀
      (runStep c ws base job deadline step) (runStep c₀ ws base job deadline step) := by
  intro w w₀ hw hexpected
  have hopened := (hw.did (h.started step.name step.display)).did_same
    [.beginStep job.name step.name w.clock]
  rw [World.did_did, World.did_did, List.singleton_append, List.singleton_append] at hopened
  have hbody := runBody_same h ws base job step (stepLimit step deadline w.clock) _ _ hopened
  rw [runStep_eq] at hexpected ⊢
  rw [runStep_eq, hw.alike.clock_eq]
  generalize runBody c ws base job step (stepLimit step deadline w.clock) host
    (w.did [.tell (c.stepStarted step.name step.display),
      .beginStep job.name step.name w.clock]) = ended at hbody hexpected ⊢
  generalize runBody c₀ ws base job step (stepLimit step deadline w.clock) host₀
    (w₀.did [.tell (c₀.stepStarted step.name step.display),
      .beginStep job.name step.name w.clock]) = ended₀ at hbody ⊢
  obtain ⟨result, w'⟩ := ended
  obtain ⟨result₀, w₀'⟩ := ended₀
  cases result with
  | error e =>
    have hany : anything := hexpected.resolve_right (by simp)
    obtain ⟨rfl, hworld⟩ := hbody (Or.inl hany)
    exact ⟨rfl, hworld⟩
  | ok outcome =>
    have hreported : anything ∨ isFailure (resultOf job step
        (Timeline.seconds (Timeline.minus w'.clock w.clock)) outcome) = false := by
      simpa using hexpected
    have hsuccess : anything ∨ outcome = .success := by
      refine hreported.imp_right fun hr => ?_
      rcases resultOf_status job step (Timeline.seconds (Timeline.minus w'.clock w.clock)) outcome
        with ⟨ho, -⟩ | hstatus
      · exact ho
      · simp [isFailure, hstatus] at hr
    obtain ⟨rfl, hworld⟩ := hbody (hsuccess.imp_right fun ho => by rw [ho])
    dsimp only at hworld ⊢
    rw [hworld.alike.clock_eq]
    refine ⟨rfl, ?_⟩
    have hclosed := (hworld.did_same [.endStep (resultOf job step
      (Timeline.seconds (Timeline.minus w'.clock w.clock)) outcome) w'.clock]).did
      (h.finished _ hreported)
    rwa [World.did_did, World.did_did] at hclosed

/-! ## All steps -/

/-- The steps of a job give the same on both consoles. -/
lemma runSteps_same (ws : Workspace) (base : Environment) (job : Job) (deadline : Option τ)
    (steps : List Step) :
    SameWhen seen (Expected anything) host host₀
      (runSteps c ws base job deadline steps) (runSteps c₀ ws base job deadline steps) := by
  induction steps with
  | nil => exact fun w w₀ hw _ => ⟨rfl, hw⟩
  | cons step rest ih =>
    intro w w₀ hw hexpected
    have hstep := runStep_same h ws base job deadline step w w₀ hw
    rw [runSteps_cons] at hexpected ⊢
    rw [runSteps_cons]
    generalize runStep c ws base job deadline step host w = ended at hstep hexpected ⊢
    generalize runStep c₀ ws base job deadline step host₀ w₀ = ended₀ at hstep ⊢
    obtain ⟨result, w'⟩ := ended
    obtain ⟨result₀, w₀'⟩ := ended₀
    cases result with
    | error e =>
      obtain ⟨rfl, hworld⟩ := hstep (Or.inl hexpected.of_error)
      exact ⟨rfl, hworld⟩
    | ok r =>
      by_cases hfailure : isFailure r = true
      · simp only [hfailure, if_true] at hexpected ⊢
        obtain ⟨rfl, hworld⟩ := hstep (Or.inl (hexpected.of_failure (by simp [hfailure])))
        simpa only [hfailure, if_true, true_and] using hworld
      · simp only [hfailure, Bool.false_eq_true, if_false] at hexpected ⊢
        obtain ⟨rfl, hworld⟩ := hstep (Or.inr ⟨r, rfl, by simpa using hfailure⟩)
        simp only [hfailure, Bool.false_eq_true, if_false]
        obtain ⟨hrest, hend⟩ := ih w' w₀' hworld (hexpected.of_map [r])
        exact ⟨by rw [hrest], hend⟩

/-- A job gives the same on both consoles. -/
lemma runJob_same (ws : Workspace) (base : Environment) (job : Job) :
    SameWhen seen (Expected anything) host host₀
      (runJob c ws base job) (runJob c₀ ws base job) := by
  intro w w₀ hw hexpected
  rw [runJob_eq] at hexpected ⊢
  rw [runJob_eq, hw.alike.clock_eq]
  exact runSteps_same h ws base job _ job.steps _ _ (hw.did_same _) hexpected

/-- Jobs give the same on both consoles. -/
lemma runJobs_same (ws : Workspace) (base : Environment) (jobs : List Job) :
    SameWhen seen (Expected anything) host host₀
      (runJobs c ws base jobs) (runJobs c₀ ws base jobs) := by
  induction jobs with
  | nil => exact fun w w₀ hw _ => ⟨rfl, hw⟩
  | cons job rest ih =>
    intro w w₀ hw hexpected
    have hjob := runJob_same h ws base job w w₀ hw
    rw [runJobs_cons] at hexpected ⊢
    rw [runJobs_cons]
    generalize runJob c ws base job host w = ended at hjob hexpected ⊢
    generalize runJob c₀ ws base job host₀ w₀ = ended₀ at hjob ⊢
    obtain ⟨result, w'⟩ := ended
    obtain ⟨result₀, w₀'⟩ := ended₀
    cases result with
    | error e =>
      obtain ⟨rfl, hworld⟩ := hjob (Or.inl hexpected.of_error)
      exact ⟨rfl, hworld⟩
    | ok rs =>
      by_cases hfailure : rs.any isFailure = true
      · simp only [hfailure, if_true] at hexpected ⊢
        obtain ⟨rfl, hworld⟩ := hjob (Or.inl (hexpected.of_failure (by simp [hfailure])))
        simpa only [hfailure, if_true, true_and] using hworld
      · simp only [hfailure, Bool.false_eq_true, if_false] at hexpected ⊢
        obtain ⟨rfl, hworld⟩ := hjob (Or.inr ⟨rs, rfl, Bool.eq_false_iff.mpr hfailure⟩)
        simp only [hfailure, Bool.false_eq_true, if_false]
        obtain ⟨hrest, hend⟩ := ih w' w₀' hworld (hexpected.of_map rs)
        exact ⟨by rw [hrest], hend⟩

/-- A run gives the same on both consoles. -/
lemma run_same (wf : Workflow) (e : Event) (ws : Workspace) :
    SameWhen seen (fun x => Expected anything (x.map RunResult.steps)) host host₀
      (run c wf e ws) (run c₀ wf e ws) := by
  intro w w₀ hw hexpected
  rw [run_eq] at hexpected ⊢
  rw [run_eq]
  have hsteps (results : Except Fault (List StepResult)) :
      (results.map fun steps => { workflow := wf.name, event := e, steps }).map RunResult.steps =
        results := by
    cases results <;> rfl
  rw [hsteps] at hexpected
  obtain ⟨hresult, hworld⟩ := runJobs_same h ws (runVariables wf e ws.place) wf.jobs _ _
    (hw.did_same [.tell (Console.runStarted wf.name e wf.steps.length)]) hexpected
  exact ⟨by rw [hresult], hworld⟩

end Sequence

/-! ## The console -/

omit [Timeline τ] in
/-- All but telling is the same on any two consoles. -/
lemma indifferent_of_deeds (host : Host τ) (c c₀ : Console) :
    Indifferent (fun a => !a.isTell) True host host c c₀ where
  hosts := .refl host
  host_eq _ := rfl
  echo _ := rfl
  echo₀ _ := rfl
  started _ _ := rfl
  finished _ _ := rfl

omit [Timeline τ] in
/-- On a quiet console it makes no difference what programs write, unless a step fails. -/
lemma indifferent_of_quiet (hosts : host.SameButOutput host₀) (hquiet : c.quiet = true) :
    Indifferent (fun a => !a.isSilence) False host host₀ c c := by
  have hecho : ∀ piece, (Action.tell (c.echo piece) : Action τ).isSilence = true := by
    intro piece
    simp [Action.isSilence, Console.echo, hquiet]
  exact ⟨hosts, False.elim, by simp [hecho], by simp [hecho], fun _ _ => rfl, fun _ _ => rfl⟩

omit [Timeline τ] in
/-- A run that ended well had no failure. -/
lemma RunResult.any_isFailure_of_ok {r : RunResult} (hok : r.ok = true) :
    r.steps.any Sequence.isFailure = false := by
  rw [Bool.eq_false_iff]
  intro hfailure
  have hstatus : r.status = .failure := if_pos hfailure
  simp [RunResult.ok, hstatus] at hok

end Step

/-- Building and packing on a console and some streams. -/
def buildOn (c : Console) (_ : Streams) : RunM Float RunResult :=
  Sequence.run c buildAndPack { kind := "push", branch := .text "main" }
    (Workspace.inPlace [] "/" "")

end CiRunner
