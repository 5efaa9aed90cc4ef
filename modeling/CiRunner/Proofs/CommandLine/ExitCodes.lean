import CiRunner.Proofs.CommandLine.Prediction
import CiRunner.Proofs.Run.Interruptions

/-!
# What the exit code of a run says

Once the workflow is loaded and the event is made, a run ends with one of three exit codes: with 130
if the user interrupted it, else with zero if there was nothing to run or if it came to its end and
all steps succeeded, else with one.  A summary is told exactly if the run comes to its end, as the
last thing, and it reads as a success exactly if the exit code is zero.

The exit code zero is evidence: unless there was nothing to run, the log holds a part for each step
of the workflow in which that step succeeds.
-/

namespace CiRunner

open RunM

variable {τ : Type}

/-! ## The summary -/

namespace Message

/-- A message begins as the summary of a run. -/
def Summarizes (m : Message) : Prop :=
  m.stream = .out ∧ ("\n" ++ Console.rule ++ "\nRESULT: ").toList <+: m.text.toList

/-- A message begins as the summary of a run that succeeded. -/
def ReadsSuccess (m : Message) : Prop :=
  m.stream = .out ∧ ("\n" ++ Console.rule ++ "\nRESULT: SUCCESS\n").toList <+: m.text.toList

/-- A summary begins with an empty line and a rule. -/
lemma Summarizes.opens {m : Message} (h : m.Summarizes) : m.Opens '=' := by
  obtain ⟨hout, hprefix⟩ := h
  have hrule : Console.rule.toList = List.replicate 40 '=' := String.toList_ofList
  rw [String.toList_append, String.toList_append, hrule] at hprefix
  obtain ⟨rest, hrest⟩ := hprefix
  exact ⟨hout, _, hrest.symm⟩

end Message

/-- The status of a run is success or failure. -/
lemma RunResult.status_eq (r : RunResult) : r.status = .success ∨ r.status = .failure := by
  unfold status
  split
  · exact Or.inr rfl
  · exact Or.inl rfl

namespace Console

variable (r : RunResult)

/-- After its beginning the summary tells the status. -/
lemma results_text : ∃ rest, (results r).text.toList =
    ("\n" ++ rule ++ "\nRESULT: ").toList ++ (r.status.capitals.toList ++ '\n' :: rest) := by
  simp [results, Message.out, Message.ofLines, String.join_cons]

/-- The summary of a run is one. -/
lemma results_summarizes : (results r).Summarizes := by
  obtain ⟨rest, hrest⟩ := results_text r
  exact ⟨rfl, hrest ▸ List.prefix_append ..⟩

/-- The summary of a run reads as a success exactly if no step failed. -/
lemma results_readsSuccess_iff : (results r).ReadsSuccess ↔ r.ok = true := by
  obtain ⟨rest, hrest⟩ := results_text r
  have hhead : ("\n" ++ rule ++ "\nRESULT: SUCCESS\n").toList =
      ("\n" ++ rule ++ "\nRESULT: ").toList ++ "SUCCESS\n".toList := by simp
  have hreads : (results r).ReadsSuccess ↔
      "SUCCESS\n".toList <+: r.status.capitals.toList ++ '\n' :: rest := by
    rw [Message.ReadsSuccess, hrest, hhead, List.prefix_append_right_inj]
    exact and_iff_right rfl
  rw [hreads, RunResult.ok]
  rcases r.status_eq with hstatus | hstatus
  · simp [hstatus, Status.capitals, Status.text]
  · simp [hstatus, Status.capitals, Status.text]

end Console

/-! ## Runs that come to their end -/

/-- Every step of a workflow succeeded: a log has a part for each step, one after another, in which
the step comes to its end with a success. -/
def Workflow.Succeeded (wf : Workflow) (host : Host τ) (log : List (Action τ)) : Prop :=
  ∃ ws parts, parts.flatten <:+: deeds log ∧
    List.Forall₂ (fun p part => ∃ r, StepLog host ws p.1 p.2 (some r) part ∧ r.status = .success)
      wf.steps parts

/-- In a longer log the steps succeeded as well. -/
lemma Workflow.Succeeded.mono {wf : Workflow} {host : Host τ} {log more : List (Action τ)}
    (h : wf.Succeeded host log) (hmore : log <:+: more) : wf.Succeeded host more := by
  obtain ⟨ws, parts, hparts, hall⟩ := h
  exact ⟨ws, parts, hparts.trans (hmore.filter _), hall⟩

section Runs

variable [Timeline τ] {c : Console} {wf : Workflow} {e : Event} {host : Host τ} {w w' : World τ}
variable {r : RunResult}

/-- A run fails if one of its steps fails, and otherwise all its steps succeeded. -/
lemma Sequence.succeeded_of_ok {ws : Workspace}
    (h : Sequence.run c wf e ws host w = (.ok r, w')) (hok : r.ok = true) :
    (∀ s ∈ r.steps, s.status = .success) ∧ wf.Succeeded host (w.added w') := by
  have hnone : ∀ s ∈ r.steps, s.status ≠ .failure := by
    intro s hs hfailure
    have hfailed := (Stops.status_eq_failure_iff r).mpr ⟨s, hs, hfailure⟩
    simp [RunResult.ok, hfailed] at hok
  obtain ⟨log, parts, hlog, hparts, hrun⟩ := run_failFast c host ws wf e w
  rw [h] at hlog hrun
  obtain ⟨hall, hsteps⟩ := hrun.all_succeed hnone
  refine ⟨hall, ws, parts, ?_, hsteps⟩
  rw [World.added_eq hlog, hparts]

/-- What a run did stands in the log of whatever encloses it. -/
lemma Sequence.added_infix {ws : Workspace} {u v : World τ}
    (h : Sequence.run c wf e ws host u = (.ok r, v)) (hbefore : w.Adds (fun _ => True) u)
    (hafter : v.Adds (fun _ => True) w') : u.added v <:+: w.added w' := by
  obtain ⟨log, -, hlog, -⟩ := run_failFast c host ws wf e u
  rw [h] at hlog
  have hmiddle : u.Adds (fun _ => True) v := ⟨log, hlog, fun _ _ => trivial⟩
  have hrest : u.Adds (fun _ => True) w' := trans_of (World.Adds _) hmiddle hafter
  rw [hbefore.added_trans hrest, hmiddle.added_trans hafter]
  exact ⟨w.added u, v.added w', List.append_assoc ..⟩

omit [Timeline τ] in
/-- The warning about changes that a run does not see is added to the log. -/
lemma Trigger.warnOfChanges_adds (host : Host τ) (o : RunOptions) :
    Leads host (World.Adds fun _ => True) (warnOfChanges o) := by
  have hgit : ∀ args directory, Leads host (World.Adds fun _ => True)
      (Git.call args directory).run := fun args directory u =>
    (Git.call_adds_git host args directory u).mono fun _ _ => trivial
  exact warnOfChanges_leads (hgit _ _) (hgit _ _) fun _ => tell_adds trivial

/-- If a run with everything that is done around it comes to its end, so does a run of the steps,
and what it did stands in the log. -/
lemma Trigger.run_of_stage {o : RunOptions} (h : stage c wf e o host w = (.ok r, w')) :
    ∃ ws u v, Sequence.run c wf e ws host u = (.ok r, v) ∧ u.added v <:+: w.added w' := by
  have hP : Surrounds fun _ : Action τ => True := by constructor <;> exact fun _ => trivial
  obtain ⟨_, w₀, hwarn, hprovide⟩ := bind_eq_ok_iff.mp h
  have hwarned := warnOfChanges_adds host o w
  rw [hwarn] at hwarned
  cases ho : o.isolated with
  | true =>
    rw [provide_isolated e host ho] at hprovide
    rcases withIsolated_isolated hP c wf e o.workDir (o.sourceOn host) host w₀ with
      ⟨fault, hfault⟩ | ⟨parent, w₁, hbefore, hresult, hafter⟩
    · cases hfault.symm.trans hprovide
    · rw [hprovide] at hresult hafter
      set ws := Workspace.isolatedIn (Workspace.nextTemporary w₁ parent) e (o.sourceOn host)
      set ran := Sequence.run c wf e ws host (readied c w₁ parent ws)
      have hready : World.Counts (fun _ => True) w₁ (readied c w₁ parent ws) :=
        readied_counts c w₁ parent ws trivial fun _ => trivial
      have hrun : Sequence.run c wf e ws host (readied c w₁ parent ws) = (.ok r, ran.2) :=
        Prod.ext hresult.symm rfl
      have hreadied : w.Adds (fun _ => True) (readied c w₁ parent ws) :=
        trans_of (World.Adds _) hwarned (trans_of (World.Counts _) hbefore hready).adds
      exact ⟨ws, readied c w₁ parent ws, ran.2, hrun,
        Sequence.added_infix hrun hreadied hafter.adds⟩
  | false =>
    obtain ⟨ws, heq⟩ := provide_inPlace e host ho (runIn c wf e) w₀
    obtain ⟨remark, hrun⟩ := runIn_apply c wf e host ws w₀
    rw [heq, hrun] at hprovide
    have hremarked : w.Adds (fun _ => True) (w₀.did [.tell (c.remark remark)]) :=
      trans_of (World.Adds _) hwarned (World.adds_did trivial w₀)
    exact ⟨ws, w₀.did [.tell (c.remark remark)], w', hprovide,
      Sequence.added_infix hprovide hremarked (Std.Refl.refl w')⟩

/-- What a trigger comes to, and with what summary: it is broken off or there is nothing to run,
both without a summary, or the run comes to its end and is summed up. -/
inductive TriggerEnds (c : Console) (wf : Workflow) (e : Event) (o : RunOptions) (host : Host τ)
    (w : World τ) : Except Fault (Option RunResult) → World τ → Prop
  /-- It is broken off. -/
  | broken {fault : Fault} {w' : World τ}
      (hstarts : ¬(o.force = false ∧ wf.shouldRun e = .ok false))
      (hquiet : w.Adds (fun a => ¬a.Opens '=') w') : TriggerEnds c wf e o host w (.error fault) w'
  /-- There is nothing to run. -/
  | startsNot (hforce : o.force = false) (hrun : wf.shouldRun e = .ok false) :
      TriggerEnds c wf e o host w (.ok none) (w.did [.tell (Console.notTriggered wf.name e)])
  /-- The run comes to its end. -/
  | finished {r : RunResult} {w' : World τ}
      (hstarts : ¬(o.force = false ∧ wf.shouldRun e = .ok false))
      (hstage : Trigger.stage c wf e o host w = (.ok r, w'))
      (hquiet : w.Adds (fun a => ¬a.Opens '=') w') :
      TriggerEnds c wf e o host w (.ok (some r)) (w'.did [.tell (Console.results r)])

/-- A trigger comes to one of these. -/
lemma Trigger.trigger_triggerEnds (c : Console) (wf : Workflow) (e : Event) (o : RunOptions)
    (host : Host τ) (w : World τ) :
    TriggerEnds c wf e o host w (trigger c wf e o host w).1 (trigger c wf e o host w).2 := by
  have hnothing : o.force = false ∧ wf.shouldRun e = .ok false →
      (trigger c wf e o host w).1 = .ok none := by
    rintro ⟨hforce, hrun⟩
    rw [trigger_of_not_shouldRun host c w hforce hrun]
  rcases trigger_cases c wf e host o w with ⟨fault, -, heq⟩ | ⟨hforce, hrun, heq⟩ | ⟨-, heq⟩
  all_goals rw [heq] at hnothing ⊢
  · exact .broken (fun h => nomatch hnothing h) (Std.Refl.refl w)
  · exact .startsNot hforce hrun
  · have hquiet : w.Adds (fun a => ¬a.Opens '=') (stage c wf e o host w).2 :=
      stage_not_opens host c (by decide) (by decide) wf e o w
    rw [start_eq, bind_apply] at hnothing ⊢
    rcases hstage : stage c wf e o host w with ⟨fault | r, w'⟩
    all_goals rw [hstage] at hquiet hnothing
    · exact .broken (fun h => nomatch hnothing h) hquiet
    · exact .finished (fun h => nomatch hnothing h) hstage hquiet

end Runs

/-! ## Exit codes -/

namespace Commands

/-- What the exit code of a run says of what its trigger came to, and of the way from one world to
another. -/
structure ExitsWith (host : Host τ) (wf : Workflow) (e : Event) (force : Bool)
    (triggered : Except Fault (Option RunResult)) (w w' : World τ) (code : ℕ) : Prop where
  /-- There are three exit codes. -/
  code_mem : code ∈ ({0, 1, 130} : Set ℕ)
  /-- The run was interrupted. -/
  interrupted : code = 130 ↔ host.Interrupts w w'
  /-- Otherwise no rule matches and the run is not forced, or it comes to its end and all steps
  succeed. -/
  succeeded : code = 0 ↔ ¬host.Interrupts w w' ∧
    (force = false ∧ wf.shouldRun e = .ok false ∨
      ∃ r, triggered = .ok (some r) ∧ ∀ s ∈ r.steps, s.status = .success)
  /-- Otherwise a step fails, or the run is broken off. -/
  failed : code = 1 ↔ ¬host.Interrupts w w' ∧
    ((∃ r, triggered = .ok (some r) ∧ ∃ s ∈ r.steps, s.status = .failure) ∨
      ∃ fault, triggered = .error fault)

/-- When a summary is told and how it reads. -/
structure SummedUp (triggered : Except Fault (Option RunResult)) (log : List (Action τ))
    (code : ℕ) : Prop where
  /-- A summary is told exactly if the run comes to its end. -/
  told_iff : (∃ m, .tell m ∈ log ∧ m.Summarizes) ↔ ∃ r, triggered = .ok (some r)
  /-- It is that of the run, and the last thing that is done. -/
  last : ∀ r, triggered = .ok (some r) → ∃ earlier, log = earlier ++ [.tell (Console.results r)] ∧
    ∀ m, .tell m ∈ earlier → ¬m.Summarizes
  /-- It reads as a success exactly if the exit code is zero. -/
  success_iff : ∀ m, .tell m ∈ log → m.Summarizes → (m.ReadsSuccess ↔ code = 0)

/-- The results of a run that was not stopped: no step of the workflow is left out, and each of them
succeeded, as the log shows. -/
structure RunsThrough (host : Host τ) (wf : Workflow) (r : RunResult) (log : List (Action τ)) :
    Prop where
  /-- The results are those of the steps of the workflow. -/
  names : r.steps.map (fun s => (s.job, s.name)) = wf.steps.map fun p => (p.1.name, p.2.name)
  /-- All of them were started. -/
  executed : r.executed = r.steps
  /-- The log has a part for each of them. -/
  succeeded : wf.Succeeded host log

variable [Timeline τ] {host : Host τ} {w w' : World τ} {c : Console} {wf : Workflow} {e : Event}
variable {o : RunOptions} {r : RunResult}

omit [Timeline τ] in
/-- A fault ends a run with a message that is no summary, and with an exit code of its own if it is
an interruption. -/
lemma finish_error (c : Console) (fault : Fault) (host : Host τ) (w : World τ) :
    ∃ code m, finish c (.error fault) host w = (.ok (.code code), w.did [.tell m]) ∧
      ¬m.Opens '=' ∧
      (code = 130 ∧ fault = .interrupted ∨ code = 1 ∧ fault ≠ .interrupted) := by
  by_cases hfault : fault = .interrupted
  · subst hfault
    exact ⟨130, _, rfl, Console.not_opens_interrupted (by decide), Or.inl ⟨rfl, rfl⟩⟩
  · exact ⟨1, c.fault (faultKind fault) fault.message, finish_of_ne_interrupted c host hfault w,
      c.not_opens_fault _ _, Or.inr ⟨rfl, hfault⟩⟩

/-- After the workflow was loaded and the event was made, the program ends as the run is ended. -/
lemma execute_of_prepare {args : List String} {workflow : Option String} {kind : String}
    {branch sha : Option String} {isolated : Bool} {workDir : Option String} {force : Bool}
    (hread : Arguments.read? host.environment args =
      some ⟨c.debug, c.quiet, .run workflow kind branch sha isolated workDir force⟩)
    (hprepare : (prepare workflow kind branch sha).run host w = (.ok (.ok (wf, e)), w')) :
    let ended := Trigger.trigger c wf e { isolated, workDir, force } host w'
    execute args host w = finish c ended.1 host ended.2 := by
  intro ended
  have hrun : execute args host w =
      endOf ((run c workflow kind branch sha { isolated, workDir, force }).run host w) :=
    execute_apply hread
  rw [hrun, run_eq_of_prepare c _ hprepare, bind_apply]
  rcases finish c ended.1 host ended.2 with ⟨_ | _, _⟩ <;> rfl

/-- A run that comes to its end without a failure runs through. -/
lemma runsThrough_of_stage (h : Trigger.stage c wf e o host w = (.ok r, w')) (hok : r.ok = true) :
    (∀ s ∈ r.steps, s.status = .success) ∧ RunsThrough host wf r (w.added w') := by
  obtain ⟨ws, u, v, hrun, hinfix⟩ := Trigger.run_of_stage h
  obtain ⟨hall, hsucceeded⟩ := Sequence.succeeded_of_ok hrun hok
  obtain ⟨hnames, -⟩ := run_results (congrArg Prod.fst hrun)
  refine ⟨hall, hnames, ?_, hsucceeded.mono hinfix⟩
  exact List.filter_eq_self.mpr fun s hs => by simp [hall s hs]

/-! ### How each way to end is told -/

section Told

variable {triggered : Except Fault (Option RunResult)} {log : List (Action τ)} {code : ℕ}
variable {force : Bool}

omit [Timeline τ] in
/-- A trigger that gives no results is not summed up. -/
lemma summedUp_of_none (hnone : ∀ r, triggered ≠ .ok (some r)) (hquiet : ∀ a ∈ log, ¬a.Opens '=') :
    SummedUp triggered log code := by
  have hsilent : ∀ m, .tell m ∈ log → ¬m.Summarizes := fun m hm hsums => hquiet _ hm hsums.opens
  refine ⟨?_, fun r hr => absurd hr (hnone r), fun m hm hsums => absurd hsums (hsilent m hm)⟩
  exact iff_of_false (fun ⟨m, hm, hsums⟩ => hsilent m hm hsums) fun ⟨r, hr⟩ => hnone r hr

omit [Timeline τ] in
/-- A run that comes to its end is summed up after everything else, as its results are. -/
lemma summedUp_of_some (hquiet : ∀ a ∈ log, ¬a.Opens '=') :
    SummedUp (.ok (some r)) (log ++ [.tell (Console.results r)]) (if r.ok then 0 else 1) := by
  have hsilent : ∀ m, .tell m ∈ log → ¬m.Summarizes := fun m hm hsums => hquiet _ hm hsums.opens
  have hsummary : (.tell (Console.results r) : Action τ) ∈ log ++ [.tell (Console.results r)] :=
    List.mem_append_right _ List.mem_cons_self
  refine ⟨iff_of_true ⟨_, hsummary, Console.results_summarizes r⟩ ⟨r, rfl⟩, ?_, ?_⟩
  · rintro _ ⟨⟩
    exact ⟨log, rfl, hsilent⟩
  · intro m hm hsums
    rcases List.mem_append.mp hm with hm | hm
    · exact absurd hsums (hsilent m hm)
    · obtain rfl : m = Console.results r := by simpa using hm
      rw [Console.results_readsSuccess_iff]
      cases r.ok <;> simp

omit [Timeline τ] in
/-- The exit code of a run that was interrupted. -/
lemma exitsWith_of_interrupts (hdid : host.Interrupts w w') :
    ExitsWith host wf e force triggered w w' 130 where
  code_mem := by simp
  interrupted := iff_of_true rfl hdid
  succeeded := iff_of_false (by decide) fun h => h.1 hdid
  failed := iff_of_false (by decide) fun h => h.1 hdid

omit [Timeline τ] in
/-- The exit code of a run that is broken off by something else. -/
lemma exitsWith_of_error {fault : Fault} (hstarts : ¬(force = false ∧ wf.shouldRun e = .ok false))
    (hnot : ¬host.Interrupts w w') : ExitsWith host wf e force (.error fault) w w' 1 where
  code_mem := by simp
  interrupted := iff_of_false (by decide) hnot
  succeeded := by
    refine iff_of_false (by decide) ?_
    rintro ⟨-, hnothing | ⟨r, hr, -⟩⟩
    · exact hstarts hnothing
    · cases hr
  failed := iff_of_true rfl ⟨hnot, Or.inr ⟨fault, rfl⟩⟩

omit [Timeline τ] in
/-- The exit code of a run that was not started. -/
lemma exitsWith_of_none (hforce : force = false) (hrun : wf.shouldRun e = .ok false)
    (hnot : ¬host.Interrupts w w') : ExitsWith host wf e force (.ok none) w w' 0 where
  code_mem := by simp
  interrupted := iff_of_false (by decide) hnot
  succeeded := iff_of_true rfl ⟨hnot, Or.inl ⟨hforce, hrun⟩⟩
  failed := by
    refine iff_of_false (by decide) ?_
    rintro ⟨-, ⟨r, hr, -⟩ | ⟨fault, hfault⟩⟩
    · cases hr
    · cases hfault

omit [Timeline τ] in
/-- The exit code of a run whose steps all succeed. -/
lemma exitsWith_of_success (hnot : ¬host.Interrupts w w')
    (hall : ∀ s ∈ r.steps, s.status = .success) :
    ExitsWith host wf e force (.ok (some r)) w w' 0 where
  code_mem := by simp
  interrupted := iff_of_false (by decide) hnot
  succeeded := iff_of_true rfl ⟨hnot, Or.inr ⟨r, rfl, hall⟩⟩
  failed := by
    refine iff_of_false (by decide) ?_
    rintro ⟨-, ⟨found, hfound, s, hs, hfailure⟩ | ⟨fault, hfault⟩⟩
    · obtain rfl : r = found := by simpa using hfound
      cases (hall s hs).symm.trans hfailure
    · cases hfault

omit [Timeline τ] in
/-- The exit code of a run in which a step fails. -/
lemma exitsWith_of_failure (hstarts : ¬(force = false ∧ wf.shouldRun e = .ok false))
    (hnot : ¬host.Interrupts w w') {s : StepResult} (hs : s ∈ r.steps)
    (hfailure : s.status = .failure) : ExitsWith host wf e force (.ok (some r)) w w' 1 where
  code_mem := by simp
  interrupted := iff_of_false (by decide) hnot
  succeeded := by
    refine iff_of_false (by decide) ?_
    rintro ⟨-, hnothing | ⟨found, hfound, hsuccess⟩⟩
    · exact hstarts hnothing
    · obtain rfl : r = found := by simpa using hfound
      cases (hsuccess s hs).symm.trans hfailure
  failed := iff_of_true rfl ⟨hnot, Or.inl ⟨r, rfl, s, hs, hfailure⟩⟩

omit [Timeline τ] in
/-- The exit code of a run that comes to its end. -/
lemma exitsWith_of_some (hstarts : ¬(force = false ∧ wf.shouldRun e = .ok false))
    (hnot : ¬host.Interrupts w w') (hall : r.ok = true → ∀ s ∈ r.steps, s.status = .success) :
    ExitsWith host wf e force (.ok (some r)) w w' (if r.ok then 0 else 1) := by
  by_cases hok : r.ok = true
  · rw [if_pos hok]
    exact exitsWith_of_success hnot (hall hok)
  · rw [if_neg hok]
    have hstatus : r.status = .failure :=
      r.status_eq.resolve_left fun hsuccess => hok (by simp [RunResult.ok, hsuccess])
    obtain ⟨s, hs, hfailure⟩ := (Stops.status_eq_failure_iff r).mp hstatus
    exact exitsWith_of_failure hstarts hnot hs hfailure

end Told

/-- However a trigger ended, the exit code tells it. -/
lemma told_of_triggerEnds (hmay : host.MayKill) {triggered : Except Fault (Option RunResult)}
    (hends : TriggerEnds c wf e o host w triggered w')
    (hheeds : World.Heeds host (faultOf triggered) w w') :
    let ended := finish c triggered host w'
    let code := exitCode ended.1
    ExitsWith host wf e o.force triggered w ended.2 code ∧
    SummedUp triggered (w.added ended.2) code ∧
    (code = 0 → ¬(o.force = false ∧ wf.shouldRun e = .ok false) →
      ∃ r, triggered = .ok (some r) ∧ RunsThrough host wf r (w.added ended.2)) := by
  intro ended code
  cases hends with
  | @broken fault _ hstarts hquiet =>
    obtain ⟨n, m, hfinish, hopens, hn⟩ := finish_error c fault host w'
    have hended : ended = (.ok (.code n), w'.did [.tell m]) := hfinish
    have hcode : code = n := congrArg (fun p => exitCode p.1) hended
    rw [hended, hcode]
    have hfollowed := hheeds.followed (World.rests_did (a := .tell m) rfl w')
    have hlog : w.Adds (fun a => ¬a.Opens '=') (w'.did [.tell m]) :=
      trans_of (World.Adds _) hquiet (World.adds_did hopens w')
    have hiff : fault = .interrupted ↔ host.Interrupts w (w'.did [.tell m]) := by
      simpa using hfollowed.interrupted_iff hmay
    have hexits : ExitsWith host wf e o.force (.error fault) w (w'.did [.tell m]) n := by
      rcases hn with ⟨rfl, hfault⟩ | ⟨rfl, hfault⟩
      · exact exitsWith_of_interrupts (hiff.mp hfault)
      · exact exitsWith_of_error hstarts fun hdid => hfault (hiff.mpr hdid)
    refine ⟨hexits, summedUp_of_none nofun fun a ha => hlog.of_mem_added ha, fun hzero => ?_⟩
    omega
  | startsNot hforce hrun =>
    have hopens : ¬(Action.tell (Console.notTriggered wf.name e) : Action τ).Opens '=' :=
      Message.not_opens_out_empty (c := 'N') (by simp) (by decide) _
    have hlog : w.Adds (fun a => ¬a.Opens '=') (w.did [.tell (Console.notTriggered wf.name e)]) :=
      World.adds_did hopens w
    have hnot : ¬host.Interrupts w _ := fun h => nomatch (hheeds.interrupted_iff hmay).mpr h
    exact ⟨exitsWith_of_none hforce hrun hnot,
      summedUp_of_none nofun fun a ha => hlog.of_mem_added ha,
      fun _ hsome => absurd ⟨hforce, hrun⟩ hsome⟩
  | @finished r w₁ hstarts hstage hquiet =>
    have hall := fun hok => runsThrough_of_stage hstage hok
    have hnot : ¬host.Interrupts w _ := fun h => nomatch (hheeds.interrupted_iff hmay).mpr h
    have hlast : w.added ended.2 = w.added w₁ ++ [.tell (Console.results r)] := by
      have htold : w₁.Adds (fun _ => True) (w₁.did [.tell (Console.results r)]) :=
        World.adds_did trivial w₁
      exact (hquiet.added_trans htold).trans (congrArg _ (World.added_eq (World.did_actions ..)))
    have hcode : code = if r.ok then 0 else 1 := rfl
    rw [hlast, hcode]
    refine ⟨exitsWith_of_some hstarts hnot fun hok => (hall hok).1,
      summedUp_of_some fun a ha => hquiet.of_mem_added ha, fun hzero _ => ⟨r, rfl, ?_⟩⟩
    have hok : r.ok = true := by
      by_contra hnok
      simp [hnok] at hzero
    have hthrough := (hall hok).2
    exact ⟨hthrough.names, hthrough.executed, hthrough.succeeded.mono (List.infix_append' [] _ _)⟩

end Commands

open Commands

end CiRunner
