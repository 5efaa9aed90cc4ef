import CiRunner.Proofs.Run.Preservation

/-!
# The actions of one step

A step that is begun leaves a piece of the log behind: a mark where it begins, its body, and a mark
with its result where it ends.  This file says what the body can be.  A command starts at most one
process, with the command of the step as its last argument; a checkout only calls Git; and a body
that succeeds holds the evidence for it, a process that exited with zero and was waited for or a
checkout that was done.

What is told to the user lies between the actions but is no part of the law, so it is left out of
the log by `deeds`.
-/

namespace CiRunner

variable {τ : Type}

/-! ## Kinds of actions -/

namespace Action

/-- Whether an action tells the user something. -/
def isTell : Action τ → Bool
  | tell _ => true
  | _ => false

/-- Whether an action begins or ends a step. -/
def isMark : Action τ → Bool
  | beginStep .. => true
  | endStep .. => true
  | _ => false

/-- Whether an action starts a process. -/
def isSpawn : Action τ → Bool
  | spawn .. => true
  | _ => false

/-- Whether an action calls Git. -/
def isGit : Action τ → Bool
  | git .. => true
  | _ => false

/-- Whether an action is the end of a process. -/
def isWait : Action τ → Bool
  | wait .. => true
  | _ => false

/-- Whether an action is about a process that is there already: its timer, its death or its end. -/
def isFollowUp : Action τ → Bool
  | startTimer .. => true
  | fireTimer _ => true
  | cancelTimer _ => true
  | kill _ => true
  | wait .. => true
  | _ => false

end Action

/-- What was done, apart from telling the user. -/
def deeds (log : List (Action τ)) : List (Action τ) := log.filter fun a => !a.isTell

@[simp] lemma deeds_append (log more : List (Action τ)) :
    deeds (log ++ more) = deeds log ++ deeds more :=
  List.filter_append ..

@[simp] lemma deeds_nil : deeds ([] : List (Action τ)) = [] := rfl

/-- What is told to the user is left out. -/
@[simp] lemma deeds_tell (m : Message) (log : List (Action τ)) :
    deeds (.tell m :: log) = deeds log := rfl

/-- A log in which nothing is told is one of deeds. -/
lemma deeds_eq_self {log : List (Action τ)} (h : ∀ a ∈ log, a.isTell = false) :
    deeds log = log :=
  List.filter_eq_self.mpr fun a ha => by rw [h a ha, Bool.not_false]

/-- Everything but telling the user is a deed. -/
lemma deeds_cons {a : Action τ} (h : a.isTell = false) (log : List (Action τ)) :
    deeds (a :: log) = a :: deeds log := by
  simp [deeds, h]

/-- The deeds of a step that came to its end. -/
lemma deeds_step (opened : Message) (job step : String) (start : τ) (log : List (Action τ))
    (r : StepResult) (stop : τ) (closed : Message) :
    deeds (([Action.tell opened, Action.beginStep job step start] ++ log) ++
        [Action.endStep r stop, Action.tell closed]) =
      .beginStep job step start :: (deeds log ++ [.endStep r stop]) := by
  simp [deeds, Action.isTell]

/-! ## The body of a step -/

/-- What the deeds of a step can be between the marks of its begin and its end. -/
structure BodyLog (step : Step) (body : List (Action τ)) : Prop where
  /-- The body holds no mark of a step. -/
  unmarked : ∀ a ∈ body, a.isMark = false
  /-- At most one process is started. -/
  spawn_le_one : body.countP Action.isSpawn ≤ 1
  /-- The process of a step that is no action gets its command as the last argument. -/
  spawn_command : ∀ pid argv directory env, .spawn pid argv directory env ∈ body →
    step.isAction = false ∧ argv.getLast? = some (step.run.getD "")
  /-- Processes are waited for by steps that are no actions. -/
  wait_command : ∀ pid code, .wait pid code ∈ body → step.isAction = false
  /-- Git is called by checkouts only. -/
  git_checkout : ∀ args directory, .git args directory ∈ body → Checkout.isCheckout step = true

/-- The evidence in the body of a step that succeeded. -/
structure BodySucceeds (host : Host τ) (ws : Workspace) (step : Step) (body : List (Action τ)) :
    Prop where
  /-- The process of a command was waited for and exited with zero. -/
  command : step.isAction = false →
    ∃ pid argv directory env, [.spawn pid argv directory env, .wait pid 0].Sublist body
  /-- An action was a checkout that was done by the calls of Git in the body. -/
  checkout : step.isAction = true → Checkout.isCheckout step = true ∧
    ∃ before after done, Checkout.perform ws step host before = (.ok (.ok done), after) ∧
      after.actions.toList = before.actions.toList ++ body

/-- A step that does nothing outside has an empty body. -/
lemma bodyLog_nil (step : Step) : BodyLog step ([] : List (Action τ)) where
  unmarked := by simp
  spawn_le_one := by simp
  spawn_command := by simp
  wait_command := by simp
  git_checkout := by simp

/-! ### Commands -/

/-- Until its end a process has its timer, is killed or tells something. -/
lemma Command.isTell_or_isFollowUp_of_mem_life [Timeline τ] {c : Console} {pid : ℕ}
    {p : Program τ} {limit : Option τ} {a : Action τ} (h : a ∈ life c pid p limit) :
    (a.isTell = true ∨ a.isFollowUp = true) ∧ a.isWait = false := by
  simp only [life, List.mem_append, List.mem_map, Option.mem_toList] at h
  rcases h with ((h | ⟨piece, _, rfl⟩) | h) | h
  · obtain ⟨t, -, rfl⟩ := Option.map_eq_some_iff.mp h
    exact ⟨Or.inr rfl, rfl⟩
  · exact ⟨Or.inl rfl, rfl⟩
  · split at h <;> simp at h
    rcases h with rfl | rfl <;> exact ⟨Or.inr rfl, rfl⟩
  · split at h <;> simp at h
    subst h
    exact ⟨Or.inr rfl, rfl⟩

/-- The end of a process is the wait for it, or nothing. -/
lemma Command.mem_ending_iff [Timeline τ] {pid : ℕ} {p : Program τ} {limit : Option τ}
    {a : Action τ} :
    a ∈ ending pid p limit ↔
      abandoned p = false ∧ a = .wait pid (exitCode p (overruns p limit)) := by
  unfold ending
  cases abandoned p <;> simp

/-- After the end of a process it may be killed once more, and its timer ends. -/
lemma Command.isFollowUp_of_mem_aftermath [Timeline τ] {pid : ℕ} {p : Program τ}
    {limit : Option τ} {a : Action τ} (h : a ∈ aftermath pid p limit) :
    a.isFollowUp = true ∧ a.isWait = false := by
  simp only [aftermath, List.mem_append] at h
  rcases h with (h | h) | h
  · split at h <;> simp at h
    subst h
    exact ⟨rfl, rfl⟩
  · split at h <;> simp at h
    rcases h with rfl | rfl <;> exact ⟨rfl, rfl⟩
  · split at h <;> simp at h
    subst h
    exact ⟨rfl, rfl⟩

/-- After the start of a process only its output is told and its end is awaited. -/
lemma Command.isTell_or_isFollowUp_of_mem_trace [Timeline τ] {c : Console} {pid : ℕ}
    {p : Program τ} {limit : Option τ} {a : Action τ} (h : a ∈ trace c pid p limit) :
    a.isTell = true ∨ a.isFollowUp = true := by
  simp only [trace, List.mem_append] at h
  rcases h with (h | h) | h
  · exact (isTell_or_isFollowUp_of_mem_life h).1
  · rw [(mem_ending_iff.mp h).2]
    exact Or.inr rfl
  · exact Or.inr (isFollowUp_of_mem_aftermath h).1

/-- A follow-up tells nothing. -/
lemma Action.isTell_of_isFollowUp {a : Action τ} (h : a.isFollowUp = true) : a.isTell = false := by
  cases a with
  | tell => cases h
  | _ => rfl

/-- A follow-up starts no process, calls no Git and marks no step. -/
lemma Action.kinds_of_isFollowUp {a : Action τ} (h : a.isFollowUp = true) :
    a.isMark = false ∧ a.isSpawn = false ∧ a.isGit = false := by
  cases a <;> simp_all [isFollowUp, isMark, isSpawn, isGit]

/-- The deeds of a process that was started are its start and follow-ups. -/
lemma isFollowUp_of_mem_deeds_trace [Timeline τ] {c : Console} {pid : ℕ} {p : Program τ}
    {limit : Option τ} {a : Action τ} (h : a ∈ deeds (Command.trace c pid p limit)) :
    a.isFollowUp = true := by
  obtain ⟨hmem, htell⟩ := List.mem_filter.mp h
  rcases Command.isTell_or_isFollowUp_of_mem_trace hmem with ht | hf
  · simp [ht] at htell
  · exact hf

/-- The body of a step whose process was started. -/
lemma bodyLog_command [Timeline τ] {step : Step} (hstep : step.isAction = false)
    (words : List String) (directory : Location) (env : Environment) (c : Console) (pid : ℕ)
    (p : Program τ) (limit : Option τ) :
    BodyLog step (deeds (.spawn pid (words ++ [step.run.getD ""]) directory env ::
      Command.trace c pid p limit)) := by
  rw [deeds_cons rfl]
  refine ⟨?_, ?_, ?_, fun _ _ _ => hstep, ?_⟩
  · intro a ha
    rcases List.mem_cons.mp ha with rfl | ha
    · rfl
    · exact (Action.kinds_of_isFollowUp (isFollowUp_of_mem_deeds_trace ha)).1
  · have hnone : (deeds (Command.trace c pid p limit)).countP Action.isSpawn = 0 :=
      List.countP_eq_zero.mpr fun a ha => by
        simp [(Action.kinds_of_isFollowUp (isFollowUp_of_mem_deeds_trace ha)).2.1]
    rw [List.countP_cons, hnone]
    simp [Action.isSpawn]
  · intro pid' argv directory' env' ha
    rcases List.mem_cons.mp ha with ha | ha
    · cases ha
      simp [hstep]
    · exact absurd (isFollowUp_of_mem_deeds_trace ha) (by simp [Action.isFollowUp])
  · intro args directory' ha
    rcases List.mem_cons.mp ha with ha | ha
    · cases ha
    · exact absurd (isFollowUp_of_mem_deeds_trace ha) (by simp [Action.isFollowUp])

/-- A process that is not left alone is waited for after its start. -/
lemma spawn_wait_sublist_deeds [Timeline τ] (argv : List String) (directory : Location)
    (env : Environment) (c : Console) (pid : ℕ) {p : Program τ} (limit : Option τ)
    (hp : Command.abandoned p = false) :
    [.spawn pid argv directory env,
      .wait pid (Command.exitCode p (Command.overruns p limit))].Sublist
      (deeds (.spawn pid argv directory env :: Command.trace c pid p limit)) := by
  rw [deeds_cons rfl]
  refine List.Sublist.cons_cons _ (List.singleton_sublist.mpr ?_)
  simp [deeds, Command.trace, Command.mem_ending_iff, hp, Action.isTell]

/-- A verdict is a success only for the exit code zero. -/
lemma Command.exitCode_eq_zero_of_verdict {job : Job} {step : Step} {timedOut : Bool} {code : ℤ}
    {tail : String} (h : verdict job step timedOut code tail = .success) : code = 0 := by
  unfold verdict at h
  by_contra hcode
  rw [if_neg hcode] at h
  split at h <;> cases h

/-! ### Checkouts -/

/-- Actions that all have a property were added to a world. -/
def World.Adds (P : Action τ → Prop) (w w' : World τ) : Prop :=
  ∃ log, w'.actions.toList = w.actions.toList ++ log ∧ ∀ a ∈ log, P a

instance (P : Action τ → Prop) : IsPreorder (World τ) (World.Adds P) where
  refl w := ⟨[], by simp⟩
  trans := by
    rintro u v w ⟨log, hlog, h⟩ ⟨more, hmore, h'⟩
    refine ⟨log ++ more, by rw [hmore, hlog, List.append_assoc], fun a ha => ?_⟩
    exact (List.mem_append.mp ha).elim (h a) (h' a)

/-- Of the actions that were added something weaker may be said. -/
lemma World.Adds.mono {P Q : Action τ → Prop} {w w' : World τ} (h : w.Adds P w')
    (hPQ : ∀ a, P a → Q a) : w.Adds Q w' := by
  obtain ⟨log, hlog, hall⟩ := h
  exact ⟨log, hlog, fun a ha => hPQ a (hall a ha)⟩

/-- An action that has a property is added as such. -/
lemma World.adds_did {P : Action τ → Prop} {a : Action τ} (h : P a) (w : World τ) :
    w.Adds P (w.did [a]) :=
  ⟨[a], w.did_actions [a], List.forall_mem_singleton.mpr h⟩

/-- Doing something adds it. -/
lemma RunM.act_adds {host : Host τ} {P : Action τ → Prop} {a : Action τ} (h : P a) :
    Leads host (World.Adds P) (act a) :=
  World.adds_did h

/-- So does a message that is taken. -/
lemma RunM.tell_adds {host : Host τ} {P : Action τ → Prop} {m : Message} (h : P (.tell m)) :
    Leads host (World.Adds P) (tell m) :=
  Leads.tell (act_adds h)

/-- A call of Git adds itself to the log, whatever comes of it. -/
lemma Git.call_adds_git (host : Host τ) (args : List String) (directory : Option String) :
    RunM.Leads host (World.Adds fun a => a.isGit = true) (Git.call args directory).run := by
  intro w
  rw [Git.call_eq]
  cases host.git w.gitCalls args with
  | none => exact ⟨[.git args directory], by simp, by simp [Action.isGit]⟩
  | some reply => exact ⟨[.git args directory], by simp, by simp [Action.isGit]⟩

/-- A checkout adds calls of Git to the log, and nothing else. -/
lemma Checkout.perform_adds_git (host : Host τ) (ws : Workspace) (step : Step) :
    RunM.Leads host (World.Adds fun a => a.isGit = true) (Checkout.perform ws step) :=
  Checkout.perform_leads fun call _ => Git.call_adds_git host call.1 call.2

/-- A call of Git tells nothing, marks no step and starts no process. -/
lemma Action.kinds_of_isGit {a : Action τ} (h : a.isGit = true) :
    a.isTell = false ∧ a.isMark = false ∧ a.isSpawn = false := by
  cases a <;> simp_all [isGit, isTell, isMark, isSpawn]

/-- Calls of Git are deeds. -/
lemma deeds_of_isGit {log : List (Action τ)} (h : ∀ a ∈ log, a.isGit = true) :
    deeds log = log :=
  deeds_eq_self fun a ha => (Action.kinds_of_isGit (h a ha)).1

/-- The body of a checkout. -/
lemma bodyLog_git {step : Step} (hc : Checkout.isCheckout step = true) {log : List (Action τ)}
    (h : ∀ a ∈ log, a.isGit = true) : BodyLog step log := by
  refine ⟨fun a ha => ?_, ?_, fun pid argv directory env ha => ?_, fun pid code ha => ?_,
    fun _ _ _ => hc⟩
  · exact (Action.kinds_of_isGit (h a ha)).2.1
  · have hnone : log.countP Action.isSpawn = 0 := List.countP_eq_zero.mpr fun a ha => by
      simp [(Action.kinds_of_isGit (h a ha)).2.2]
    omega
  · exact absurd (h _ ha) (by simp [Action.isGit])
  · exact absurd (h _ ha) (by simp [Action.isGit])

/-! ### Any body -/

namespace Sequence

section Bodies

variable (ws : Workspace) (job : Job) (step : Step) (host : Host τ) (w : World τ)

/-- An action leaves a body behind, and evidence in it if the action succeeds. -/
lemma runAction_log (hstep : step.isAction = true) :
    ∃ log, (runAction ws job step host w).2.actions.toList = w.actions.toList ++ log ∧
      BodyLog step (deeds log) ∧
      ((runAction ws job step host w).1 = .ok .success →
        BodySucceeds host ws step (deeds log)) := by
  unfold runAction
  by_cases hc : Checkout.isCheckout step = true
  swap
  · simp only [hc, Bool.false_eq_true, if_false]
    exact ⟨[], by simp, bodyLog_nil step, by simp⟩
  obtain ⟨calls, hcalls, hgit⟩ := Checkout.perform_adds_git host ws step w
  have hdeeds : deeds calls = calls := deeds_of_isGit hgit
  simp only [hc, if_true, RunM.bind_apply]
  rcases hp : Checkout.perform ws step host w with ⟨fault | (message | done), w'⟩
  all_goals
    rw [hp] at hcalls
    dsimp only at hcalls
  · exact ⟨calls, hcalls, hdeeds.symm ▸ bodyLog_git hc hgit, by simp⟩
  · exact ⟨calls, hcalls, hdeeds.symm ▸ bodyLog_git hc hgit, by simp⟩
  · refine ⟨calls ++ [.tell (Console.info done)], by simp [hcalls], ?_, fun _ => ?_⟩
    · simpa [hdeeds] using bodyLog_git hc hgit
    · refine ⟨fun hcommand => by simp [hstep] at hcommand, fun _ => ⟨hc, w, w', done, hp, ?_⟩⟩
      simpa [hdeeds] using hcalls

variable [Timeline τ] (c : Console) (base : Environment) (limit : Option τ)

/-- A command leaves a body behind, and evidence in it if the command succeeds. -/
lemma runCommand_log (hstep : step.isAction = false) :
    ∃ log, (runCommand c ws base job step limit host w).2.actions.toList =
        w.actions.toList ++ log ∧ BodyLog step (deeds log) ∧
      ((runCommand c ws base job step limit host w).1 = .ok .success →
        BodySucceeds host ws step (deeds log)) := by
  rcases runCommand_cases ws base job step limit w.tree host.hides with
    ⟨result, hresult, hrun⟩ | ⟨directory, words, -, -, hwords, hrun⟩
  all_goals rw [hrun c host w rfl rfl]
  · exact ⟨[], by simp, bodyLog_nil step, fun hsuccess => absurd hsuccess hresult⟩
  cases hm : (host.program w.attempts).missing with
  | true =>
    rw [Command.execute_missing _ _ _ _ _ _ hwords hm]
    exact ⟨[], by simp, bodyLog_nil step,
      fun hsuccess => absurd hsuccess (Command.absence_ne_success _ _ _)⟩
  | false =>
    rw [Command.execute_started _ _ _ _ _ _ hwords rfl hm]
    set p := host.program w.attempts
    have hbody := bodyLog_command hstep words directory
      (stepVariables host.environment base job step) c (1001 + w.started) p limit
    refine ⟨_, World.did_actions .., hbody, fun hsuccess => ?_⟩
    obtain ⟨hi, hverdict⟩ : p.interrupted = false ∧ _ := by
      cases hi : p.interrupted <;> simp [hi] at hsuccess
      exact ⟨rfl, hsuccess⟩
    have hcode : Command.exitCode p (Command.overruns p limit) = 0 :=
      Command.exitCode_eq_zero_of_verdict hverdict
    have hspawn := spawn_wait_sublist_deeds (words ++ [step.run.getD ""]) directory
      (stepVariables host.environment base job step) c (1001 + w.started) limit
      (show Command.abandoned p = false by simp [Command.abandoned, hi])
    rw [hcode] at hspawn
    exact ⟨fun _ => ⟨_, _, _, _, hspawn⟩, fun haction => by simp [hstep] at haction⟩

/-- Every step leaves a body behind, and evidence in it if the step succeeds. -/
lemma runBody_log :
    ∃ log, (runBody c ws base job step limit host w).2.actions.toList = w.actions.toList ++ log ∧
      BodyLog step (deeds log) ∧
      ((runBody c ws base job step limit host w).1 = .ok .success →
        BodySucceeds host ws step (deeds log)) := by
  unfold runBody
  by_cases hstep : step.isAction = true
  · rw [if_pos hstep]
    exact runAction_log ws job step host w hstep
  · rw [if_neg hstep]
    exact runCommand_log ws job step host w c base limit (Bool.eq_false_iff.mpr hstep)

end Bodies

end Sequence

/-! ## The log of a step -/

/-- The deeds of a step that was begun, together with its result if it came to an end. -/
inductive StepLog (host : Host τ) (ws : Workspace) (job : Job) (step : Step) :
    Option StepResult → List (Action τ) → Prop
  /-- The step succeeded. -/
  | succeeded {start stop : τ} {body : List (Action τ)} {r : StepResult}
      (hbody : BodyLog step body) (hevidence : BodySucceeds host ws step body)
      (hjob : r.job = job.name) (hname : r.name = step.name) (hstatus : r.status = .success) :
      StepLog host ws job step (some r)
        (.beginStep job.name step.name start :: (body ++ [.endStep r stop]))
  /-- The step failed. -/
  | failed {start stop : τ} {body : List (Action τ)} {r : StepResult}
      (hbody : BodyLog step body)
      (hjob : r.job = job.name) (hname : r.name = step.name) (hstatus : r.status = .failure) :
      StepLog host ws job step (some r)
        (.beginStep job.name step.name start :: (body ++ [.endStep r stop]))
  /-- A fault broke the step off. -/
  | broken {start : τ} {body : List (Action τ)} (hbody : BodyLog step body) :
      StepLog host ws job step none (.beginStep job.name step.name start :: body)

/-- A step that came to an end succeeded or failed. -/
lemma StepLog.status_eq {host : Host τ} {ws : Workspace} {job : Job} {step : Step} {r : StepResult}
    {part : List (Action τ)} (h : StepLog host ws job step (some r) part) :
    r.status = .success ∨ r.status = .failure := by
  cases h with
  | succeeded hbody hevidence hjob hname hstatus => exact Or.inl hstatus
  | failed hbody hjob hname hstatus => exact Or.inr hstatus

namespace Sequence

@[simp] lemma resultOf_job (job : Job) (step : Step) (duration : Float) (o : Outcome) :
    (resultOf job step duration o).job = job.name := by
  cases o <;> rfl

@[simp] lemma resultOf_name (job : Job) (step : Step) (duration : Float) (o : Outcome) :
    (resultOf job step duration o).name = step.name := by
  cases o <;> rfl

/-- A step that did not succeed failed. -/
lemma resultOf_status (job : Job) (step : Step) (duration : Float) (o : Outcome) :
    (o = .success ∧ (resultOf job step duration o).status = .success) ∨
      (resultOf job step duration o).status = .failure := by
  cases o with
  | success => exact Or.inl ⟨rfl, rfl⟩
  | failed f => exact Or.inr rfl
  | refused d => exact Or.inr rfl

/-- Only a step that failed ends the run. -/
lemma any_isFailure_iff {results : List StepResult} :
    results.any isFailure = true ↔ ∃ r ∈ results, r.status = .failure := by
  simp [isFailure, List.any_eq_true]

variable [Timeline τ]

/-- What a step that is begun adds to the log. -/
theorem runStep_log (c : Console) (ws : Workspace) (base : Environment) (job : Job)
    (deadline : Option τ) (step : Step) (host : Host τ) (w : World τ) :
    ∃ log, (runStep c ws base job deadline step host w).2.actions.toList =
        w.actions.toList ++ log ∧
      StepLog host ws job step (runStep c ws base job deadline step host w).1.toOption
        (deeds log) := by
  set w₀ := w.did [.tell (c.stepStarted step.name step.display),
    .beginStep job.name step.name w.clock] with hw₀
  obtain ⟨log, hlog, hbody, hevidence⟩ :=
    runBody_log ws job step host w₀ c base (stepLimit step deadline w.clock)
  rw [runStep_eq, ← hw₀]
  rcases hrun : runBody c ws base job step (stepLimit step deadline w.clock) host w₀ with
    ⟨e | outcome, w'⟩
  all_goals
    rw [hrun] at hlog hevidence
    dsimp only at hlog hevidence ⊢
    rw [hw₀, World.did_actions, List.append_assoc] at hlog
  · refine ⟨_, hlog, ?_⟩
    rw [deeds_append, deeds_tell, deeds_cons rfl]
    exact .broken hbody
  · refine ⟨_, by rw [World.did_actions, hlog, List.append_assoc], ?_⟩
    set r := resultOf job step (Timeline.seconds (Timeline.minus w'.clock w.clock)) outcome with hr
    rw [deeds_step]
    have hjob : r.job = job.name := resultOf_job ..
    have hname : r.name = step.name := resultOf_name ..
    rcases resultOf_status job step (Timeline.seconds (Timeline.minus w'.clock w.clock)) outcome
      with ⟨rfl, hstatus⟩ | hstatus
    · exact .succeeded hbody (hevidence rfl) hjob hname hstatus
    · exact .failed hbody hjob hname hstatus

end Sequence

end CiRunner
