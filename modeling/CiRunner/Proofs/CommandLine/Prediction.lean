import CiRunner.Proofs.CommandLine.Options
import CiRunner.Proofs.Run.Cancellation
import CiRunner.Proofs.Run.Headings
import CiRunner.Proofs.Run.Results
import CiRunner.Proofs.Server.Obstruction

/-!
# A check predicts a run

A check and a run begin alike: they load the workflow and make the event.  If one of these cannot be
done, both end there.  Otherwise the check tells whether a rule matches, and the run, in place and
not forced, starts exactly if one does.  A run that is started says so and comes to results for all
steps, unless a fault breaks it off; one that is not started says that there is none, which a run
that is started never says.
-/

namespace CiRunner

open RunM

variable {τ α β : Type}

/-! ## The check -/

/-- Whether an event starts a run is told by the rule it matches. -/
lemma Workflow.matchingRule_of_shouldRun {wf : Workflow} {e : Event} {run : Bool}
    (h : wf.shouldRun e = .ok run) : ∃ rule, wf.matchingRule e = .ok rule ∧ rule.isSome = run := by
  unfold Workflow.shouldRun at h
  cases hrule : wf.matchingRule e with
  | error reason =>
    rw [hrule] at h
    cases h
  | ok rule =>
    rw [hrule] at h
    exact ⟨rule, rfl, Except.ok.inj h⟩

namespace Commands

variable {workflow : Option String} {kind : String} {branch sha : Option String}
variable {host : Host τ} {wf : Workflow} {e : Event} {w w' : World τ}

/-- A check tells by its exit code whether a rule matches. -/
lemma check_of_prepare
    (hprepare : (prepare workflow kind branch sha).run host w = (.ok (.ok (wf, e)), w'))
    {run : Bool} (hrun : wf.shouldRun e = .ok run) :
    ∃ text, (check workflow kind branch sha).run host w =
      (.ok (.ok (.code (if run then done else notTriggered))),
        w'.did [.tell (Console.info text)]) := by
  obtain ⟨rule, hrule, rfl⟩ := Workflow.matchingRule_of_shouldRun hrun
  rw [check, run_of_prepare, hprepare]
  dsimp only
  rw [hrule]
  cases rule with
  | none => exact ⟨_, rfl⟩
  | some rule => exact ⟨_, rfl⟩

end Commands

/-! ## What a run that is started does not say -/

namespace Message

/-- A message says that there is no run. -/
def DeniesRun (m : Message) : Prop := m.stream = .out ∧ "\nNO RUN: ".toList <+: m.text.toList

/-- That an event starts no run is said. -/
lemma deniesRun_notTriggered (name : String) (e : Event) :
    (Console.notTriggered name e).DeniesRun := by
  refine ⟨rfl, ?_⟩
  simp [Console.notTriggered, out, ofLines, String.join_cons]

/-- What says that there is no run begins with an empty line and then with a certain letter. -/
lemma DeniesRun.opens {m : Message} (h : m.DeniesRun) : m.Opens 'N' := by
  obtain ⟨hout, rest, hrest⟩ := h
  exact ⟨hout, "O RUN: ".toList ++ rest, hrest.symm⟩

end Message

/-- An action says that there is no run. -/
def Action.DeniesRun : Action τ → Prop
  | tell m => m.DeniesRun
  | _ => False

/-- So an action that begins in another way does not say that there is no run. -/
lemma Action.not_deniesRun {a : Action τ} (h : ¬a.Opens 'N') : ¬a.DeniesRun := by
  intro hdenies
  cases a with
  | tell m => exact h (Message.DeniesRun.opens hdenies)
  | _ => exact hdenies

/-! ### Runs -/

section Runs

variable [Timeline τ] (host : Host τ) (c : Console) (ws : Workspace)

namespace Sequence

/-- A run says that it is started, and it does not say that there is none. -/
lemma run_told (wf : Workflow) (e : Event) (w : World τ) :
    let ran := run c wf e ws host w
    w.Adds (fun a => ¬a.DeniesRun) ran.2 ∧
      .tell (Console.runStarted wf.name e wf.steps.length) ∈ w.added ran.2 := by
  intro ran
  set w₁ := w.did [.tell (Console.runStarted wf.name e wf.steps.length)] with hw₁
  have hreports : Reports host (fun _ => World.Adds fun a => ¬a.Opens 'N') c :=
    reports_not_opens host c (by decide) (by decide)
  have hstarted : w.Adds (fun a => ¬a.Opens 'N') w₁ :=
    hreports.runStarted wf.name e wf.steps.length w
  have hjobs : w₁.Adds (fun a => ¬a.Opens 'N') ran.2 := by
    have hran : ran.2 = (runJobs c ws (runVariables wf e ws.place) wf.jobs host w₁).2 :=
      congrArg Prod.snd (run_eq c wf e ws host w)
    rw [hran]
    exact runJobs_ends hreports ws _
      (fun job _ step _ => runBody_not_opens host c ws _ job step) w₁
  have hadded : w.added w₁ = [.tell (Console.runStarted wf.name e wf.steps.length)] :=
    World.added_eq (World.did_actions ..)
  refine ⟨(trans_of (World.Adds _) hstarted hjobs).mono fun _ => Action.not_deniesRun, ?_⟩
  rw [hstarted.added_trans hjobs, hadded]
  exact List.mem_cons_self

end Sequence

/-! ### Triggers in place -/

namespace Trigger

variable (w : World τ) {wf : Workflow} {e : Event} {o : RunOptions}

omit [Timeline τ] in
/-- Unless it is forced, a run starts if a rule matches. -/
lemma starts_apply (hforce : o.force = false) {run : Bool} (hrun : wf.shouldRun e = .ok run) :
    starts wf e o host w = (.ok run, w) := by
  rw [starts, hforce, if_neg Bool.false_ne_true, hrun]
  rfl

/-- An event that matches no rule starts no run, and this is all that is told. -/
lemma trigger_of_not_shouldRun (hforce : o.force = false) (hrun : wf.shouldRun e = .ok false) :
    trigger c wf e o host w = (.ok none, w.did [.tell (Console.notTriggered wf.name e)]) := by
  rw [trigger, bind_apply, starts_apply host w hforce hrun]
  rfl

/-- An event that matches a rule starts a run, and its results are told if it comes to its end. -/
lemma trigger_of_shouldRun (hplace : o.isolated = false) (hforce : o.force = false)
    (hrun : wf.shouldRun e = .ok true) :
    ∃ remark ws, trigger c wf e o host w =
      match Sequence.run c wf e ws host (w.did [.tell (c.remark remark)]) with
      | (.ok r, w') => (.ok (some r), w'.did [.tell (Console.results r)])
      | (.error fault, w') => (.error fault, w') := by
  have hwarn : warnOfChanges o host w = (.ok (), w) := by
    rw [warnOfChanges, hplace]
    rfl
  obtain ⟨ws, hprovide⟩ := provide_inPlace e host hplace (runIn c wf e) w
  obtain ⟨remark, hrunIn⟩ := runIn_apply c wf e host ws w
  refine ⟨remark, ws, ?_⟩
  rw [trigger, bind_apply, starts_apply host w hforce hrun]
  dsimp only
  rw [if_pos rfl, bind_apply, start, bind_apply, hwarn]
  dsimp only
  rw [bind_apply, hprovide, hrunIn]
  rcases Sequence.run c wf e ws host _ with ⟨fault | r, w'⟩
  · rfl
  · rfl

/-- A run that is started in place says so, and it never says that there is none.  If it comes to
its end, results for all steps are told. -/
lemma trigger_told (hplace : o.isolated = false) (hforce : o.force = false)
    (hrun : wf.shouldRun e = .ok true) :
    let ended := trigger c wf e o host w
    w.Adds (fun a => ¬a.DeniesRun) ended.2 ∧
      .tell (Console.runStarted wf.name e wf.steps.length) ∈ w.added ended.2 ∧
      ∀ result, ended.1 = .ok result → ∃ r, result = some r ∧
        .tell (Console.results r) ∈ w.added ended.2 ∧
        r.steps.map (fun s => (s.job, s.name)) = wf.steps.map fun p => (p.1.name, p.2.name) := by
  intro ended
  obtain ⟨remark, ws, htrigger⟩ := trigger_of_shouldRun host c w hplace hforce hrun
  set w₀ := w.did [.tell (c.remark remark)] with hw₀
  have hremark : w.Adds (fun a => ¬a.DeniesRun) w₀ := by
    have hopens : ¬(Action.tell (c.remark remark) : Action τ).Opens 'N' :=
      Message.not_opens_of_stream (m := c.remark remark) rfl
    exact World.adds_did (Action.not_deniesRun hopens) w
  obtain ⟨hran, hstarted⟩ := Sequence.run_told host c ws wf e w₀
  have hended : ended = _ := htrigger
  rcases hresult : Sequence.run c wf e ws host w₀ with ⟨fault | r, w'⟩
  all_goals
    rw [hresult] at hran hstarted hended
    dsimp only at hran hstarted hended
    have hboth := trans_of (World.Adds _) hremark hran
    rw [hended]
  · refine ⟨hboth, ?_, fun result h => by cases h⟩
    rw [hremark.added_trans hran]
    exact List.mem_append_right _ hstarted
  · set w'' := w'.did [.tell (Console.results r)] with hw''
    have hresults : w'.Adds (fun a => ¬a.DeniesRun) w'' := by
      have hopens : ¬(Action.tell (Console.results r) : Action τ).Opens 'N' :=
        Console.not_opens_results (by decide) r
      exact World.adds_did (Action.not_deniesRun hopens) w'
    have hadded : w.added w'' = w.added w₀ ++ (w₀.added w' ++ [.tell (Console.results r)]) := by
      rw [hboth.added_trans hresults, hremark.added_trans hran, List.append_assoc,
        World.added_eq (World.did_actions w' _)]
    refine ⟨trans_of (World.Adds _) hboth hresults, ?_, ?_⟩
    · dsimp only
      rw [hadded]
      exact List.mem_append_right _ (List.mem_append_left _ hstarted)
    · intro result h
      cases h
      refine ⟨r, rfl, ?_, (run_results (c := c) (by rw [hresult])).1⟩
      dsimp only
      rw [hadded]
      simp

end Trigger

end Runs

/-! ## Both commands -/

namespace Commands

/-- The exit code of the program: that of its end, or one if a fault ends it. -/
def exitCode : Except Fault Exit → ℕ
  | .ok exit => exit.toNat
  | .error _ => 1

/-- How a run ends that was started, with the exit code: results for all steps of the workflow are
told, or that it was interrupted, or what broke it off. -/
inductive RunEnds (c : Console) (wf : Workflow) (log : List (Action τ)) :
    Except Fault (Option RunResult) → ℕ → Prop
  /-- It comes to its end. -/
  | finished {r : RunResult} (htold : .tell (Console.results r) ∈ log)
      (hnames : r.steps.map (fun s => (s.job, s.name)) =
        wf.steps.map fun p => (p.1.name, p.2.name)) :
      RunEnds c wf log (.ok (some r)) (if r.ok then 0 else 1)
  /-- The user interrupts it. -/
  | interrupted (htold : .tell (Console.info "\nInterrupted by user") ∈ log) :
      RunEnds c wf log (.error .interrupted) 130
  /-- Something else breaks it off. -/
  | broken {fault : Fault} (hfault : fault ≠ .interrupted)
      (htold : .tell (c.fault (faultKind fault) fault.message) ∈ log) :
      RunEnds c wf log (.error fault) 1

/-- What is told in a log is told in a longer one. -/
lemma RunEnds.append {c : Console} {wf : Workflow} {log : List (Action τ)}
    {ended : Except Fault (Option RunResult)} {code : ℕ} (h : RunEnds c wf log ended code)
    (earlier : List (Action τ)) : RunEnds c wf (earlier ++ log) ended code := by
  cases h with
  | finished htold hnames => exact .finished (List.mem_append_right _ htold) hnames
  | interrupted htold => exact .interrupted (List.mem_append_right _ htold)
  | broken hfault htold => exact .broken hfault (List.mem_append_right _ htold)

variable [Timeline τ] {host : Host τ} {w : World τ}

/-- How the program ends with a command, be it at the end of the command or before. -/
def endOf : Except Fault (Except Exit Exit) × World τ → Except Fault Exit × World τ
  | (.ok (.ok exit), w) => (.ok exit, w)
  | (.ok (.error exit), w) => (.ok exit, w)
  | (.error fault, w) => (.error fault, w)

/-- The arguments are carried out as they are read. -/
lemma execute_apply {args : List String} {i : Invocation}
    (h : Arguments.read? host.environment args = some i) :
    execute args host w = endOf ((perform i).run host w) := by
  rw [execute, bind_apply, read_apply]
  dsimp only
  rw [h]
  dsimp only
  rw [bind_apply]
  rcases (perform i).run host w with ⟨_ | _ | _, w'⟩ <;> rfl

omit [Timeline τ] in
/-- The end of a run that was started. -/
lemma finish_runEnds (c : Console) (wf : Workflow) {ended : Except Fault (Option RunResult)}
    {log : List (Action τ)} (host : Host τ) (w : World τ)
    (h : ∀ result, ended = .ok result → ∃ r, result = some r ∧ .tell (Console.results r) ∈ log ∧
      r.steps.map (fun s => (s.job, s.name)) = wf.steps.map fun p => (p.1.name, p.2.name)) :
    ∃ exit more, finish c ended host w = (.ok exit, w.did more) ∧ (∀ a ∈ more, ¬a.DeniesRun) ∧
      RunEnds c wf (log ++ more) ended exit.toNat := by
  rcases ended with fault | result
  · by_cases hfault : fault = .interrupted
    · subst hfault
      have hquiet : ¬(Action.tell (Console.info "\nInterrupted by user") : Action τ).DeniesRun :=
        Action.not_deniesRun (Console.not_opens_interrupted (by decide))
      exact ⟨.code interrupted, [.tell _], rfl, List.forall_mem_singleton.mpr hquiet,
        .interrupted (List.mem_append_right _ List.mem_cons_self)⟩
    · have hquiet : ¬(Action.tell (c.fault (faultKind fault) fault.message) : Action τ).DeniesRun :=
        Action.not_deniesRun (c.not_opens_fault _ _)
      exact ⟨.code failed, [.tell (c.fault (faultKind fault) fault.message)],
        finish_of_ne_interrupted c host hfault w, List.forall_mem_singleton.mpr hquiet,
        .broken hfault (List.mem_append_right _ List.mem_cons_self)⟩
  · obtain ⟨r, rfl, htold, hnames⟩ := h result rfl
    refine ⟨.code (codeOf (some r)), [], ?_, List.forall_mem_nil _, ?_⟩
    · rw [World.did_nil]
      rfl
    · exact .finished (List.mem_append_left _ htold) hnames

variable {workflow : Option String} {kind : String} {branch sha : Option String}
variable {wf : Workflow} {e : Event} {w' : World τ} {o : RunOptions}

/-- After the workflow was loaded and the event was made, a run is triggered. -/
lemma run_eq_of_prepare (c : Console) (o : RunOptions)
    (hprepare : (prepare workflow kind branch sha).run host w = (.ok (.ok (wf, e)), w')) :
    (run c workflow kind branch sha o).run host w =
      (finish c (Trigger.trigger c wf e o host w').1 >>= fun exit => pure (.ok exit)) host
        (Trigger.trigger c wf e o host w').2 := by
  rw [run, run_of_prepare, hprepare]
  rfl

/-- If no rule matches, it is told that there is no run, and nothing else is done. -/
lemma run_of_not_shouldRun (c : Console) (hforce : o.force = false)
    (hprepare : (prepare workflow kind branch sha).run host w = (.ok (.ok (wf, e)), w'))
    (hrun : wf.shouldRun e = .ok false) :
    (run c workflow kind branch sha o).run host w =
      (.ok (.ok (.code done)), w'.did [.tell (Console.notTriggered wf.name e)]) := by
  rw [run_eq_of_prepare c o hprepare, Trigger.trigger_of_not_shouldRun host c w' hforce hrun]
  rfl

/-- If a rule matches, a run in place is started and comes to one of its ends. -/
lemma run_of_shouldRun (c : Console) (hplace : o.isolated = false) (hforce : o.force = false)
    (hprepare : (prepare workflow kind branch sha).run host w = (.ok (.ok (wf, e)), w'))
    (hrun : wf.shouldRun e = .ok true) :
    ∃ exit w'', (run c workflow kind branch sha o).run host w = (.ok (.ok exit), w'') ∧
      w'.Adds (fun a => ¬a.DeniesRun) w'' ∧
      .tell (Console.runStarted wf.name e wf.steps.length) ∈ w'.added w'' ∧
      RunEnds c wf (w'.added w'') (Trigger.trigger c wf e o host w').1 exit.toNat := by
  obtain ⟨hquiet, hstarted, hresults⟩ := Trigger.trigger_told host c w' hplace hforce hrun
  set ended := Trigger.trigger c wf e o host w' with hended
  obtain ⟨exit, more, hfinish, hmore, hends⟩ := finish_runEnds c wf host ended.2 hresults
  have hlast : ended.2.Adds (fun a => ¬a.DeniesRun) (ended.2.did more) :=
    ⟨more, World.did_actions .., hmore⟩
  have hadded : w'.added (ended.2.did more) = w'.added ended.2 ++ more := by
    rw [hquiet.added_trans hlast, World.added_eq (World.did_actions ended.2 more)]
  refine ⟨exit, ended.2.did more, ?_, trans_of (World.Adds _) hquiet hlast, ?_, ?_⟩
  · rw [run_eq_of_prepare c o hprepare, ← hended, bind_apply, hfinish]
    rfl
  · rw [hadded]
    exact List.mem_append_left _ hstarted
  · rw [hadded]
    exact hends

/-- What a check says by its exit code about a run, if the workflow was loaded and the event was
made. -/
structure Predicts (c : Console) (wf : Workflow) (e : Event)
    (triggered : Except Fault (Option RunResult)) (checked ran : Except Fault Exit)
    (checkLog log : List (Action τ)) : Prop where
  /-- The code zero says that the run is started and comes to one of its ends. -/
  starts : exitCode checked = 0 ↔
    .tell (Console.runStarted wf.name e wf.steps.length) ∈ log ∧
      RunEnds c wf log triggered (exitCode ran)
  /-- The code three says that there is no run: the run says so and ends with zero, no process is
  started, and Git is called as it is for the check. -/
  startsNot : exitCode checked = 3 ↔
    .tell (Console.notTriggered wf.name e) ∈ log ∧ exitCode ran = 0 ∧
      (∀ a ∈ log, a.isSpawn = false) ∧ log.filter Action.isGit = checkLog.filter Action.isGit

omit [Timeline τ] in
/-- Among calls of Git nothing is told. -/
lemma tell_not_mem_added (h : w.Adds (fun a => a.isGit = true) w') (m : Message) :
    .tell m ∉ w.added w' := by
  intro hmem
  cases h.of_mem_added hmem

omit [Timeline τ] in
/-- If no rule matches, the check says that there is no run, and there is none. -/
lemma predicts_of_not_shouldRun {c : Console} {wf : Workflow} {e : Event}
    {triggered : Except Fault (Option RunResult)} {text : String}
    (hgit : w.Adds (fun a => a.isGit = true) w') :
    Predicts c wf e triggered (.ok (.code notTriggered)) (.ok (.code done))
      (w.added (w'.did [.tell (Console.info text)]))
      (w.added (w'.did [.tell (Console.notTriggered wf.name e)])) := by
  have hadded : ∀ m, w.added (w'.did [.tell m]) = w.added w' ++ [.tell m] := by
    intro m
    have hlast : w'.Adds (fun _ => True) (w'.did [.tell m]) :=
      ⟨_, World.did_actions .., fun _ _ => trivial⟩
    rw [hgit.added_trans hlast, World.added_eq (World.did_actions w' _)]
  rw [hadded, hadded]
  constructor
  · refine ⟨fun h => (by cases h), fun ⟨hstarted, _⟩ => ?_⟩
    rcases List.mem_append.mp hstarted with hmem | hmem
    · exact absurd hmem (tell_not_mem_added hgit _)
    · have hsame : Console.runStarted wf.name e wf.steps.length =
          Console.notTriggered wf.name e := by simpa using hmem
      have hdenies := Message.deniesRun_notTriggered wf.name e
      rw [← hsame] at hdenies
      exact absurd hdenies.opens (Console.not_opens_runStarted (by decide) _ _ _)
  · refine ⟨fun _ => ⟨by simp, rfl, fun a ha => ?_, by simp [Action.isGit]⟩, fun _ => rfl⟩
    rcases List.mem_append.mp ha with hmem | hmem
    · exact (Action.kinds_of_isGit (hgit.of_mem_added hmem)).2.2
    · rw [List.mem_singleton.mp hmem]
      rfl

omit [Timeline τ] in
/-- If a rule matches, the check says that there is a run, and a run that is started never says that
there is none. -/
lemma predicts_of_shouldRun {c : Console} {wf : Workflow} {e : Event}
    {triggered : Except Fault (Option RunResult)} {exit : Exit} {w'' : World τ}
    {checkLog : List (Action τ)} (hgit : w.Adds (fun a => a.isGit = true) w')
    (hquiet : w'.Adds (fun a => ¬a.DeniesRun) w'')
    (hstarted : .tell (Console.runStarted wf.name e wf.steps.length) ∈ w'.added w'')
    (hends : RunEnds c wf (w'.added w'') triggered exit.toNat) :
    Predicts c wf e triggered (.ok (.code done)) (.ok exit) checkLog (w.added w'') := by
  rw [hgit.added_trans hquiet]
  constructor
  · exact ⟨fun _ => ⟨List.mem_append_right _ hstarted, hends.append _⟩, fun _ => rfl⟩
  · refine ⟨fun h => (by cases h), fun ⟨hdenied, _⟩ => ?_⟩
    rcases List.mem_append.mp hdenied with hmem | hmem
    · exact absurd hmem (tell_not_mem_added hgit _)
    · exact absurd (Message.deniesRun_notTriggered wf.name e) (hquiet.of_mem_added hmem)

end Commands

section Prediction

open Commands

/-- A check predicts a run in place that is not forced.  Its arguments are those of such a run, with
the command replaced, and for all arguments of a run with the same options this holds: if the
workflow is loaded, the event is made and all patterns are valid, the check ends with zero exactly
if the run is started and comes to one of its ends, and with three exactly if there is no run.  If
the workflow cannot be loaded or the event cannot be made, both commands do the same and end with
one, and nothing is started. -/
theorem check_predicts_run [Timeline τ] {host : Host τ} {args : List String} {debug quiet : Bool}
    {workflow : Option String} {kind : String} {branch sha : Option String}
    (hcheck : Arguments.read? host.environment args =
      some ⟨debug, quiet, .check workflow kind branch sha⟩) (w : World τ) :
    let checked := execute args host w
    let prepared := (prepare workflow kind branch sha).run host w
    (∃ before after, args = before ++ "check" :: after ∧
      Arguments.read? host.environment (before ++ "run" :: after) =
        some ⟨debug, quiet, .run workflow kind branch sha false none false⟩) ∧
    ∀ (runArgs : List String) (c : Console) (workDir : Option String),
      Arguments.read? host.environment runArgs =
        some ⟨c.debug, c.quiet, .run workflow kind branch sha false workDir false⟩ →
      let ran := execute runArgs host w
      (∀ wf e w', prepared = (.ok (.ok (wf, e)), w') → wf.HasValidPatterns →
        Predicts c wf e (Trigger.trigger c wf e { workDir } host w').1 checked.1 ran.1
          (w.added checked.2) (w.added ran.2)) ∧
      ((∀ found w', prepared ≠ (.ok (.ok found), w')) →
        ran = checked ∧ exitCode ran.1 = 1 ∧ ∀ a ∈ w.added ran.2, a.isSpawn = false ∧
          ∀ name e steps, a ≠ .tell (Console.runStarted name e steps)) := by
  intro checked prepared
  refine ⟨Arguments.read?_run_of_check hcheck, fun runArgs c workDir hread => ?_⟩
  intro ran
  have hfinds := prepare_finds workflow kind branch sha host w
  have hchecked : checked = endOf ((check workflow kind branch sha).run host w) :=
    execute_apply hcheck
  have hran : ran = endOf ((run c workflow kind branch sha { workDir }).run host w) :=
    execute_apply hread
  constructor
  · intro wf e w' hprepared hvalid
    have hprepare : (prepare workflow kind branch sha).run host w = (.ok (.ok (wf, e)), w') :=
      hprepared
    rw [hprepare] at hfinds
    cases hfinds with
    | found hgit hbranch =>
      obtain ⟨name, hname⟩ := hbranch
      obtain ⟨starts, hstarts⟩ := hvalid.comparesWith hname
      obtain ⟨text, hcheckEnd⟩ := check_of_prepare hprepare hstarts
      rw [hcheckEnd] at hchecked
      cases starts with
      | false =>
        rw [run_of_not_shouldRun c rfl hprepare hstarts] at hran
        rw [hchecked, hran]
        exact predicts_of_not_shouldRun hgit.adds
      | true =>
        obtain ⟨exit, w'', hrunEnd, hquiet, hstarted, hends⟩ :=
          run_of_shouldRun (o := { workDir }) c rfl rfl hprepare hstarts
        rw [hrunEnd] at hran
        rw [hchecked, hran]
        exact predicts_of_shouldRun hgit.adds hquiet hstarted hends
  · intro hnone
    rw [check, run_of_prepare] at hchecked
    rw [Commands.run, run_of_prepare] at hran
    -- both commands come to what came of loading and making
    rcases hprepare : (prepare workflow kind branch sha).run host w with ⟨fault | exit | found, w'⟩
    all_goals rw [hprepare] at hfinds hchecked hran
    · cases hfinds with
      | broken hlog =>
        rw [hran, hchecked]
        exact ⟨rfl, rfl, fun a ha => (hlog.adds.of_mem_added ha).startsNothing⟩
    · cases hfinds with
      | refused hlog hcode =>
        rw [hran, hchecked]
        exact ⟨rfl, hcode, fun a ha => (hlog.adds.of_mem_added ha).startsNothing⟩
    · exact absurd hprepare (hnone found w')

/-- A world with a workflow for pushes to branches whose names begin alike. -/
def filteredWorld : World Float where
  clock := 0.0
  tree := ⟨[(["ci.yml"], .file (filteredText "ma*").toUTF8.toList)]⟩

/-- The rules of the workflow that is loaded for a push to a branch. -/
def rulesFound? (branch : String) : Option (List TriggerRule) :=
  match ((prepare (some "ci.yml") "push" (some branch) none).run (Host.scripted [])
    filteredWorld).1 with
  | .ok (.ok found) => some found.1.triggers
  | _ => none

/-- The check of a push to `main` ends with zero, and the run says that it is started. -/
theorem check_predicts_run_of_main :
    let checked := execute ["check", "--workflow", "ci.yml", "--branch", "main"] (Host.scripted [])
      filteredWorld
    let ran := execute ["--quiet", "run", "--branch=main", "--workflow=ci.yml"] (Host.scripted [])
      filteredWorld
    exitCode checked.1 = 0 ∧ ∃ (wf : Workflow) (e : Event),
      .tell (Console.runStarted wf.name e wf.steps.length) ∈ filteredWorld.added ran.2 := by
  intro checked ran
  have hcode : exitCode checked.1 = 0 := by decide +kernel
  have hrules : rulesFound? "main" = some [{ event := "push", branches := some ["ma*"] }] := by
    decide +kernel
  have hcheck : Arguments.read? (Host.scripted []).environment
      ["check", "--workflow", "ci.yml", "--branch", "main"] =
        some ⟨false, false, .check (some "ci.yml") "push" (some "main") none⟩ := by decide +kernel
  have hrun : Arguments.read? (Host.scripted []).environment
      ["--quiet", "run", "--branch=main", "--workflow=ci.yml"] =
        some ⟨false, true, .run (some "ci.yml") "push" (some "main") none false none false⟩ := by
    decide +kernel
  obtain ⟨-, hpredicts⟩ := check_predicts_run hcheck filteredWorld
  obtain ⟨hprepared, -⟩ := hpredicts _ { quiet := true } none hrun
  unfold rulesFound? at hrules
  rcases hprepare : (prepare (some "ci.yml") "push" (some "main") none).run (Host.scripted [])
    filteredWorld with ⟨fault | exit | ⟨wf, e⟩, w'⟩
  all_goals rw [hprepare] at hrules
  · cases hrules
  · cases hrules
  · have hvalid : wf.HasValidPatterns := Workflow.everyPattern_of_single (Option.some.inj hrules)
      (Branch.Pattern.isValid_of_isOk (by decide +kernel))
    have hstarts := (hprepared wf e w' hprepare hvalid).starts.mp hcode
    exact ⟨hcode, wf, e, hstarts.1⟩

end Prediction

end CiRunner
