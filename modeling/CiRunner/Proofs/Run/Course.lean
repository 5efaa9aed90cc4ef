import CiRunner.Proofs.Run.Body
import CiRunner.Proofs.Run.FailFast
import CiRunner.Proofs.Run.Parts

/-!
# The course of a run

A run comes to one step after another.  A `Visit` is a step that it comes to, with the time at which
the job of the step was started and the world in which the step is begun.  In the `Course` of a run
every visit starts from what the visit before it left behind, all visits but the last one are
successes, and the last one tells how far the run has come.

The visits go through the steps of the workflow in their order and leave the parts of the log
behind.  So whatever holds of the parts of a log, or of the times at which steps begin and end, is
shown of one visit, by what its body comes to, or of two visits that follow one another.
-/

namespace CiRunner

variable {τ : Type}

/-- The actions by which a world has grown. -/
def World.added (w w' : World τ) : List (Action τ) := w'.actions.toList.drop w.actions.size

/-- The actions by which a world has grown are those behind the ones it had. -/
lemma World.added_eq {w w' : World τ} {log : List (Action τ)}
    (h : w'.actions.toList = w.actions.toList ++ log) : w.added w' = log := by
  rw [added, h, ← Array.length_toList, List.drop_left]

/-- The actions by which a world has grown have the property of all that were added. -/
lemma World.Adds.of_mem_added {P : Action τ → Prop} {w w' : World τ} (h : w.Adds P w')
    {a : Action τ} (ha : a ∈ w.added w') : P a := by
  obtain ⟨log, hlog, hall⟩ := h
  exact hall a (World.added_eq hlog ▸ ha)

/-- What is added on the way is added in two parts. -/
lemma World.Adds.added_trans {P Q : Action τ → Prop} {u v w : World τ} (h : u.Adds P v)
    (h' : v.Adds Q w) : u.added w = u.added v ++ v.added w := by
  obtain ⟨log, hlog, -⟩ := h
  obtain ⟨more, hmore, -⟩ := h'
  have hboth : w.actions.toList = u.actions.toList ++ (log ++ more) := by
    rw [hmore, hlog, List.append_assoc]
  rw [World.added_eq hlog, World.added_eq hmore, World.added_eq hboth]

/-! ## Visits -/

/-- A step that a run comes to. -/
structure Visit (τ : Type) where
  /-- The job of the step. -/
  job : Job
  /-- The time at which the job was started. -/
  jobStart : τ
  /-- The step. -/
  step : Step
  /-- The world in which the step is begun. -/
  world : World τ

namespace Visit

variable [Timeline τ] (c : Console) (ws : Workspace) (base : Environment) (host : Host τ)
variable (v : Visit τ)

/-- The deadline of the job, if it has a time limit. -/
def deadline : Option τ :=
  v.job.timeoutMinutes.map fun m => Timeline.plus v.jobStart (Timeline.ofMinutes m)

/-- The time limit of the step, if it or its job has one. -/
def limit : Option τ := Sequence.stepLimit v.step v.deadline v.world.clock

/-- The result of the step, and the world that it leaves behind. -/
def ended : Except Fault StepResult × World τ :=
  Sequence.runStep c ws base v.job v.deadline v.step host v.world

/-- The world in which the body of the step is run. -/
def opened : World τ :=
  v.world.did [.tell (c.stepStarted v.step.name v.step.display),
    .beginStep v.job.name v.step.name v.world.clock]

/-- What the body of the step comes to, and the world that it leaves behind. -/
def body : Except Fault Outcome × World τ :=
  Sequence.runBody c ws base v.job v.step v.limit host (v.opened c)

/-- The deeds of the body of the step. -/
def bodyDeeds : List (Action τ) := deeds ((v.opened c).added (v.body c ws base host).2)

/-- The mark of the end of the step, if it comes to one. -/
def closing : List (Action τ) :=
  match (v.ended c ws base host).1 with
  | .ok r => [.endStep r (v.ended c ws base host).2.clock]
  | .error _ => []

/-- The deeds of the step, from the mark of its begin on. -/
def part : List (Action τ) :=
  .beginStep v.job.name v.step.name v.world.clock ::
    (v.bodyDeeds c ws base host ++ v.closing c ws base host)

/-! ### What a visit comes to -/

/-- The body of a step comes to one of the cases there are. -/
lemma body_ends :
    BodyEnds c ws base host v.job v.step v.limit (v.opened c) (v.body c ws base host).1
      (v.body c ws base host).2 :=
  Sequence.runBody_ends ..

/-- A step is its body with a mark of its end, and takes the time of its body. -/
lemma ended_cases :
    (∃ e, (v.body c ws base host).1 = .error e ∧ (v.ended c ws base host).1 = .error e ∧
      (v.ended c ws base host).2 = (v.body c ws base host).2) ∨
    ∃ outcome r, (v.body c ws base host).1 = .ok outcome ∧ (v.ended c ws base host).1 = .ok r ∧
      r = Sequence.resultOf v.job v.step
        (Timeline.seconds (Timeline.minus (v.body c ws base host).2.clock v.world.clock)) outcome ∧
      (v.ended c ws base host).2 = (v.body c ws base host).2.did
        [.endStep r (v.body c ws base host).2.clock, .tell (c.stepFinished r)] := by
  have hrun := Sequence.runStep_eq c ws base v.job v.deadline v.step host v.world
  rcases hbody : v.body c ws base host with ⟨e | outcome, w'⟩
  all_goals
    have hinner := hbody
    unfold body limit opened at hinner
    rw [hinner] at hrun
    unfold ended
    rw [hrun]
  · exact Or.inl ⟨e, rfl, rfl, rfl⟩
  · exact Or.inr ⟨outcome, _, rfl, rfl, rfl, rfl⟩

/-- A step ends with a fault exactly if its body does. -/
lemma ended_eq_error_iff {fault : Fault} :
    (v.ended c ws base host).1 = .error fault ↔ (v.body c ws base host).1 = .error fault := by
  rcases v.ended_cases c ws base host with ⟨e, hb, he, -⟩ | ⟨outcome, r, hb, he, -, -⟩
  all_goals simp [hb, he]

/-- The end of a step takes no time. -/
lemma ended_clock : (v.ended c ws base host).2.clock = (v.body c ws base host).2.clock := by
  rcases v.ended_cases c ws base host with ⟨e, -, -, h⟩ | ⟨outcome, r, -, -, -, h⟩ <;> rw [h]
  rfl

/-- The deeds of a body are those among what it adds to the log. -/
lemma bodyDeeds_eq (log : List (Action τ))
    (h : (v.body c ws base host).2.actions.toList = (v.opened c).actions.toList ++ log) :
    v.bodyDeeds c ws base host = deeds log :=
  congrArg deeds (World.added_eq h)

/-- What the body of a step adds to the log. -/
lemma body_log :
    ∃ log, (v.body c ws base host).2.actions.toList = (v.opened c).actions.toList ++ log ∧
      v.bodyDeeds c ws base host = deeds log ∧ BodyLog v.step (deeds log) := by
  obtain ⟨log, hlog, hbody, -⟩ :=
    Sequence.runBody_log ws v.job v.step host (v.opened c) c base v.limit
  exact ⟨log, hlog, v.bodyDeeds_eq c ws base host log hlog, hbody⟩

/-- What a step adds to the log. -/
lemma ended_log :
    ∃ log, (v.ended c ws base host).2.actions.toList = v.world.actions.toList ++ log ∧
      deeds log = v.part c ws base host := by
  obtain ⟨log, hlog, hbody, -⟩ := v.body_log c ws base host
  rw [opened, World.did_actions, List.append_assoc] at hlog
  rcases v.ended_cases c ws base host with ⟨e, -, he, hw⟩ | ⟨outcome, r, -, he, -, hw⟩
  · refine ⟨_, by rw [hw, hlog], ?_⟩
    rw [part, closing, he, hbody, List.append_nil]
    rfl
  · refine ⟨_, by rw [hw, World.did_actions, hlog, List.append_assoc], ?_⟩
    rw [part, closing, he, hbody, hw]
    exact deeds_step ..

/-- All that may stand after the body of a step is the mark of its end. -/
lemma mem_closing {a : Action τ} (h : a ∈ v.closing c ws base host) :
    ∃ r, (v.ended c ws base host).1 = .ok r ∧
      a = .endStep r (v.ended c ws base host).2.clock := by
  unfold closing at h
  split at h
  · exact ⟨_, ‹_›, List.mem_singleton.mp h⟩
  · cases h

/-- The deeds of a step are a part of a log. -/
lemma isPart_part : IsPart (v.part c ws base host) := by
  refine ⟨_, _, rfl, rfl, fun b hb => ?_⟩
  rcases List.mem_append.mp hb with hb | hb
  · obtain ⟨log, -, hbody, hlog⟩ := v.body_log c ws base host
    exact Action.isBegin_eq_false_of_isMark (hlog.unmarked b (hbody ▸ hb))
  · obtain ⟨r, -, rfl⟩ := v.mem_closing c ws base host hb
    rfl

/-- The parts of visits that follow one another are found again. -/
lemma partsOf_flatten_part (visits : List (Visit τ)) :
    partsOf (visits.map fun v => v.part c ws base host).flatten =
      visits.map fun v => v.part c ws base host := by
  refine partsOf_flatten fun part hpart => ?_
  obtain ⟨v, -, rfl⟩ := List.mem_map.mp hpart
  exact v.isPart_part c ws base host

/-- The mark of the end of a step has its result, and the time at which it ends. -/
lemma endStep_mem_part {r : StepResult} {time : τ}
    (h : .endStep r time ∈ v.part c ws base host) :
    (v.ended c ws base host).1 = .ok r ∧ time = (v.ended c ws base host).2.clock := by
  rcases List.mem_cons.mp h with h | h
  · cases h
  rcases List.mem_append.mp h with h | h
  · obtain ⟨log, -, hbody, hlog⟩ := v.body_log c ws base host
    exact absurd (hlog.unmarked _ (hbody ▸ h)) (by simp [Action.isMark])
  · obtain ⟨r', hr, heq⟩ := v.mem_closing c ws base host h
    obtain ⟨rfl, rfl⟩ := Action.endStep.inj heq
    exact ⟨hr, rfl⟩

/-! ### What a visit starts -/

/-- The step starts a process, for a program that is followed to its end. -/
structure Starts (p : Program τ) : Prop where
  /-- The step is a command. -/
  command : v.step.isAction = false
  /-- The program is the next one of the host, and it is there. -/
  program : host.program v.world.attempts = p ∧ p.missing = false
  /-- The process is started with the variables of the step, and all else is about it. -/
  bodyDeeds : ∃ words directory, v.bodyDeeds c ws base host =
    .spawn (1001 + v.world.started) words directory
        (stepVariables host.environment base v.job v.step) ::
      deeds (Command.trace c (1001 + v.world.started) p v.limit)
  /-- The verdict is about the code of the process, unless the user interrupts it. -/
  body : (v.body c ws base host).1 =
    if p.interrupted then .error (Command.interruption p)
    else .ok (Command.verdict v.job v.step
      (Command.overruns p v.limit || Command.firesLate p v.limit)
      (Command.exitCode p (Command.overruns p v.limit)) (Command.tail (Command.pieces p.output)))
  /-- The time of the process passes. -/
  clock : (v.ended c ws base host).2.clock =
    Timeline.plus v.world.clock (Command.runTime p v.limit)

/-- The step starts no process. -/
structure Quiet : Prop where
  /-- Only Git is called. -/
  bodyDeeds : ∀ a ∈ v.bodyDeeds c ws base host, a.isGit = true
  /-- No time passes. -/
  clock : (v.ended c ws base host).2.clock = v.world.clock

/-- A step starts one process or none. -/
lemma starts_or_quiet : (∃ p, v.Starts c ws base host p) ∨ v.Quiet c ws base host := by
  have hbody := v.body_ends c ws base host
  have hclock := v.ended_clock c ws base host
  have hadds := v.bodyDeeds_eq c ws base host
  generalize hresult : (v.body c ws base host).1 = result at hbody
  generalize (v.body c ws base host).2 = w' at hbody hclock hadds
  cases hbody with
  | action hstep hasks =>
    obtain ⟨log, hlog, hall⟩ := hasks.adds
    refine Or.inr ⟨fun a ha => ?_, hclock.trans hasks.clock_eq⟩
    rw [hadds log hlog] at ha
    obtain ⟨hmem, htell⟩ := List.mem_filter.mp ha
    have hkind := hall a hmem
    have hnot : a.isTell = false := by simpa using htell
    simpa [Action.isGitOrTell, hnot] using hkind
  | noPlace | hidden | noDirectory | unknownShell | missing | refused =>
    exact Or.inr ⟨by simp [hadds [] (by simp)], hclock⟩
  | @started directory words p hstep hplace hdirectory hshell hprogram hthere =>
    refine Or.inl ⟨p, hstep, ⟨hprogram, hthere⟩, ⟨words ++ [v.step.run.getD ""], directory, ?_⟩,
      hresult, hclock⟩
    rw [hadds _ (World.did_actions ..), deeds_cons rfl]
    rfl

/-- The body of a step that succeeds does. -/
lemma body_eq_success {r : StepResult} (hr : (v.ended c ws base host).1 = .ok r)
    (hstatus : r.status = .success) : (v.body c ws base host).1 = .ok .success := by
  rcases v.ended_cases c ws base host with ⟨e, -, he, -⟩ | ⟨outcome, r', hb, he, hr', -⟩
  · cases he.symm.trans hr
  cases he.symm.trans hr
  rcases Sequence.resultOf_status v.job v.step (Timeline.seconds
    (Timeline.minus (v.body c ws base host).2.clock v.world.clock)) outcome with ⟨rfl, -⟩ | h
  · exact hb
  · rw [hr', h] at hstatus
    cases hstatus

/-- The process of a step that succeeds exits with zero. -/
lemma Starts.exitCode_eq_zero {c : Console} {ws : Workspace} {base : Environment} {host : Host τ}
    {v : Visit τ} {p : Program τ} (h : v.Starts c ws base host p) {r : StepResult}
    (hr : (v.ended c ws base host).1 = .ok r) (hstatus : r.status = .success) :
    Command.exitCode p (Command.overruns p v.limit) = 0 := by
  have hbody := h.body.symm.trans (v.body_eq_success c ws base host hr hstatus)
  split at hbody
  · cases hbody
  · exact Command.exitCode_eq_zero_of_verdict (Except.ok.inj hbody)

end Visit

/-! ## Courses -/

/-- How far a run has come. -/
inductive Progress where
  /-- All steps so far have succeeded. -/
  | done
  /-- A step has failed, which ends the run. -/
  | failed
  /-- A fault has broken the run off. -/
  | broken (fault : Fault)

/-- How far a run has come with some results. -/
def Progress.of : Except Fault (List StepResult) → Progress
  | .ok results => if results.any Sequence.isFailure then .failed else .done
  | .error e => .broken e

/-- Only a fault breaks a run off. -/
lemma Progress.of_eq_broken_iff {result : Except Fault (List StepResult)} {e : Fault} :
    Progress.of result = .broken e ↔ result = .error e := by
  cases result with
  | error reason => simp [Progress.of]
  | ok results => by_cases h : results.any Sequence.isFailure = true <;> simp [Progress.of, h]

/-- Earlier results without a failure do not matter to how far a run has come. -/
lemma Progress.of_map_append {earlier : List StepResult}
    (h : earlier.any Sequence.isFailure = false) (result : Except Fault (List StepResult)) :
    Progress.of (result.map (earlier ++ ·)) = Progress.of result := by
  cases result with
  | error e => rfl
  | ok results => simp only [Except.map, Progress.of, List.any_append, h, Bool.false_or]

/-- A run that is broken off ends with the fault. -/
lemma Progress.eq_error_of_broken {result : Except Fault RunResult} {e : Fault}
    (h : Progress.of (result.map RunResult.steps) = .broken e) : result = .error e := by
  cases result with
  | error reason => rw [Except.error.inj (Progress.of_eq_broken_iff.mp h)]
  | ok r => cases Progress.of_eq_broken_iff.mp h

section Course

variable [Timeline τ] (c : Console) (ws : Workspace) (base : Environment) (host : Host τ)

/-- The visits of steps on the way from one world to another, and how far they come.  Between them
the user may be told something. -/
inductive Course : World τ → List (Visit τ) → Progress → World τ → Prop
  /-- There is nothing more to do. -/
  | finished (w : World τ) : Course w [] .done w
  /-- The user is told something. -/
  | told {w w' : World τ} {visits : List (Visit τ)} {progress : Progress} (m : Message)
      (h : Course (w.did [.tell m]) visits progress w') : Course w visits progress w'
  /-- A step succeeds, and the others follow. -/
  | success {v : Visit τ} {r : StepResult} {w₁ w' : World τ} {visits : List (Visit τ)}
      {progress : Progress} (hrun : v.ended c ws base host = (.ok r, w₁)) (hr : r.status = .success)
      (hrest : Course w₁ visits progress w') : Course v.world (v :: visits) progress w'
  /-- A step fails. -/
  | failure {v : Visit τ} {r : StepResult} {w' : World τ}
      (hrun : v.ended c ws base host = (.ok r, w')) (hr : r.status = .failure) :
      Course v.world [v] .failed w'
  /-- A step is broken off. -/
  | fault {v : Visit τ} {e : Fault} {w' : World τ}
      (hrun : v.ended c ws base host = (.error e, w')) : Course v.world [v] (.broken e) w'

variable {c ws base host}

namespace Course

variable {w w' : World τ} {visits : List (Visit τ)} {progress : Progress}

/-- Steps that all succeed are followed by others. -/
lemma append (h : Course c ws base host w visits .done w') {more : List (Visit τ)}
    {w'' : World τ} (hmore : Course c ws base host w' more progress w'') :
    Course c ws base host w (visits ++ more) progress w'' := by
  generalize hdone : Progress.done = first at h
  induction h with
  | finished w => exact hmore
  | told m h ih => exact .told m (ih hmore hdone)
  | success hrun hr hrest ih => exact .success hrun hr (ih hmore hdone)
  | failure hrun hr => cases hdone
  | fault hrun => cases hdone

/-- What is done in a course are the deeds of its visits. -/
lemma adds (h : Course c ws base host w visits progress w') :
    ∃ log, w'.actions.toList = w.actions.toList ++ log ∧
      deeds log = (visits.map fun v => v.part c ws base host).flatten := by
  induction h with
  | finished w => exact ⟨[], by simp, rfl⟩
  | told m h ih =>
    obtain ⟨log, hlog, hdeeds⟩ := ih
    rw [World.did_actions, List.append_assoc] at hlog
    exact ⟨_, hlog, hdeeds⟩
  | @success v r w₁ w' visits progress hrun hr hrest ih =>
    obtain ⟨more, hmore, hrest⟩ := ih
    obtain ⟨log, hlog, hdeeds⟩ := v.ended_log c ws base host
    rw [hrun] at hlog
    refine ⟨log ++ more, by rw [hmore, hlog, List.append_assoc], ?_⟩
    rw [deeds_append, hdeeds, hrest, List.map_cons, List.flatten_cons]
  | @failure v r w' hrun hr =>
    obtain ⟨log, hlog, hdeeds⟩ := v.ended_log c ws base host
    rw [hrun] at hlog
    exact ⟨log, hlog, by simp [hdeeds]⟩
  | @fault v e w' hrun =>
    obtain ⟨log, hlog, hdeeds⟩ := v.ended_log c ws base host
    rw [hrun] at hlog
    exact ⟨log, hlog, by simp [hdeeds]⟩

/-- In a course as many steps are begun as there are visits. -/
lemma countP_isBegin (h : Course c ws base host w visits progress w') :
    (w.added w').countP Action.isBegin = visits.length := by
  obtain ⟨log, hlog, hdeeds⟩ := h.adds
  rw [World.added_eq hlog, ← countP_deeds fun _ => rfl, hdeeds, countP_isBegin_flatten,
    List.length_map]
  intro part hpart
  obtain ⟨v, -, rfl⟩ := List.mem_map.mp hpart
  exact v.isPart_part c ws base host

/-- The first visit starts from where the course starts. -/
lemma first (h : Course c ws base host w visits progress w') {v : Visit τ}
    (hv : visits.head? = some v) : v.world.clock = w.clock := by
  induction h with
  | finished w => cases hv
  | told m h ih => exact ih hv
  | success | failure | fault =>
    cases hv
    rfl

/-- Without a visit no time passes. -/
lemma clock_of_nil (h : Course c ws base host w [] progress w') : w'.clock = w.clock := by
  generalize hnil : ([] : List (Visit τ)) = visits at h
  induction h with
  | finished w => rfl
  | told m h ih => exact ih hnil
  | success hrun hr hrest ih => cases hnil
  | failure hrun hr => cases hnil
  | fault hrun => cases hnil

/-- A visit that is followed by others is a success, and the others follow from where it ends.  A
visit that is the last one tells how far the course comes. -/
lemma split (h : Course c ws base host w visits progress w') {before after : List (Visit τ)}
    {v : Visit τ} (heq : visits = before ++ v :: after) :
    (∃ r, (v.ended c ws base host).1 = .ok r ∧ r.status = .success ∧
      Course c ws base host (v.ended c ws base host).2 after progress w') ∨
    after = [] ∧ w' = (v.ended c ws base host).2 ∧
      ((∃ r, (v.ended c ws base host).1 = .ok r ∧ r.status = .failure ∧ progress = .failed) ∨
        ∃ e, (v.ended c ws base host).1 = .error e ∧ progress = .broken e) := by
  induction h generalizing before with
  | finished w => simp at heq
  | told m h ih => exact ih heq
  | @success u r w₁ w' visits progress hrun hr hrest ih =>
    cases before with
    | nil =>
      obtain ⟨rfl, rfl⟩ := List.cons_eq_cons.mp heq
      rw [hrun]
      exact Or.inl ⟨r, rfl, hr, hrest⟩
    | cons x before => exact ih (List.cons_eq_cons.mp heq).2
  | @failure u r w' hrun hr =>
    obtain ⟨rfl, hcons⟩ | ⟨-, hcons⟩ := List.singleton_eq_append_iff.mp heq <;> cases hcons
    rw [hrun]
    exact Or.inr ⟨rfl, rfl, Or.inl ⟨r, rfl, hr, rfl⟩⟩
  | @fault u e w' hrun =>
    obtain ⟨rfl, hcons⟩ | ⟨-, hcons⟩ := List.singleton_eq_append_iff.mp heq <;> cases hcons
    rw [hrun]
    exact Or.inr ⟨rfl, rfl, Or.inr ⟨e, rfl, rfl⟩⟩

omit [Timeline τ] in
/-- The visits before and after a visit. -/
lemma eq_take_cons_drop {k : ℕ} {v : Visit τ} (hv : visits[k]? = some v) :
    visits = visits.take k ++ v :: visits.drop (k + 1) := by
  obtain ⟨hlt, hget⟩ := List.getElem?_eq_some_iff.mp hv
  rw [← hget, List.getElem_cons_drop, List.take_append_drop]

/-- A visit starts from where the visit before it ends, which is a success. -/
lemma next (h : Course c ws base host w visits progress w') {k : ℕ} {u v : Visit τ}
    (hu : visits[k]? = some u) (hv : visits[k + 1]? = some v) :
    (∃ r, (u.ended c ws base host).1 = .ok r ∧ r.status = .success) ∧
      v.world.clock = (u.ended c ws base host).2.clock := by
  have hhead : (visits.drop (k + 1)).head? = some v := by rw [List.head?_drop, hv]
  rcases h.split (eq_take_cons_drop hu) with ⟨r, hr, hstatus, hrest⟩ | ⟨hnil, -⟩
  · exact ⟨⟨r, hr, hstatus⟩, hrest.first hhead⟩
  · simp [hnil] at hhead

/-- A course with a visit that is broken off is broken off, where that visit ends. -/
lemma broken_of_error (h : Course c ws base host w visits progress w') {k : ℕ} {v : Visit τ}
    {e : Fault} (hv : visits[k]? = some v) (he : (v.ended c ws base host).1 = .error e) :
    progress = .broken e ∧ w' = (v.ended c ws base host).2 := by
  rcases h.split (eq_take_cons_drop hv) with
    ⟨r, hr, -⟩ | ⟨-, hw, ⟨r, hr, -⟩ | ⟨e', he', hprogress⟩⟩
  · cases hr.symm.trans he
  · cases hr.symm.trans he
  · cases he'.symm.trans he
    exact ⟨hprogress, hw⟩

/-- A course that is broken off ends with a visit that is. -/
lemma broken {e : Fault} (h : Course c ws base host w visits (.broken e) w') :
    ∃ before v, visits = before ++ [v] ∧ v.ended c ws base host = (.error e, w') := by
  generalize hbroken : Progress.broken e = progress at h
  induction h with
  | finished w => cases hbroken
  | told m h ih => exact ih hbroken
  | @success u r w₁ w' visits progress hrun hr hrest ih =>
    obtain ⟨before, v, rfl, hv⟩ := ih hbroken
    exact ⟨u :: before, v, rfl, hv⟩
  | failure hrun hr => cases hbroken
  | @fault v e' w' hrun =>
    cases hbroken
    exact ⟨[], v, rfl, hrun⟩

/-- The course ends where its last visit ends. -/
lemma last (h : Course c ws base host w visits progress w') {v : Visit τ}
    (hv : visits.getLast? = some v) : w'.clock = (v.ended c ws base host).2.clock := by
  obtain ⟨before, hcut⟩ := List.getLast?_eq_some_iff.mp hv
  rcases h.split hcut with ⟨r, -, -, hrest⟩ | ⟨-, rfl, -⟩
  · exact hrest.clock_of_nil
  · rfl

end Course

end Course

/-! ## The jobs of a course -/

/-- Visits of the first steps of a job. -/
structure OfJob (job : Job) (visits : List (Visit τ)) : Prop where
  /-- The steps of the job are visited in their order. -/
  steps : visits.map (·.step) <+: job.steps
  /-- They are steps of the job. -/
  job_eq : ∀ v ∈ visits, v.job = job
  /-- The job was started when its first step was begun. -/
  jobStart : ∀ v ∈ visits, ∀ u, visits.head? = some u → v.jobStart = u.world.clock

/-- Visits of the steps of one job after another. -/
inductive OfJobs : List Job → List (Visit τ) → Prop
  /-- No job is left, or the run ended before. -/
  | none (jobs : List Job) : OfJobs jobs []
  /-- The run ends in a job. -/
  | last {job : Job} {jobs : List Job} {visits : List (Visit τ)} (h : OfJob job visits) :
      OfJobs (job :: jobs) visits
  /-- All steps of a job are visited, and those of other jobs after them. -/
  | next {job : Job} {jobs : List Job} {visits more : List (Visit τ)} (h : OfJob job visits)
      (hall : visits.map (·.step) = job.steps) (hmore : OfJobs jobs more) :
      OfJobs (job :: jobs) (visits ++ more)

namespace OfJob

variable {job : Job} {visits : List (Visit τ)}

/-- The steps are visited with their job. -/
lemma map_pair (h : OfJob job visits) :
    visits.map (fun v => (v.job, v.step)) =
      (visits.map (·.step)).map fun step => (job, step) := by
  rw [List.map_map]
  exact List.map_congr_left fun v hv => by simp [h.job_eq v hv]

/-- The visit of a step of the job, which was started when its first step was begun. -/
lemma visit (h : OfJob job visits) {j : ℕ} {step : Step} (hstep : job.steps[j]? = some step)
    {v : Visit τ} (hv : visits[j]? = some v) :
    v.job = job ∧ v.step = step ∧ ∃ u, visits[0]? = some u ∧ v.jobStart = u.world.clock := by
  have hmem : v ∈ visits := List.mem_of_getElem? hv
  have hsame : (visits.map (·.step))[j]? = job.steps[j]? := by
    obtain ⟨rest, hrest⟩ := h.steps
    have hlt : j < (visits.map (·.step)).length := by
      simpa using (List.getElem?_eq_some_iff.mp hv).1
    rw [← hrest, List.getElem?_append_left hlt]
  rw [List.getElem?_map, hv, hstep] at hsame
  obtain ⟨u, rest, rfl⟩ := List.exists_cons_of_ne_nil (List.ne_nil_of_mem hmem)
  exact ⟨h.job_eq v hmem, Option.some.inj hsame, u, rfl, h.jobStart v hmem u rfl⟩

end OfJob

namespace OfJobs

/-- The visits go through the steps of the jobs in their order. -/
lemma steps {jobs : List Job} {visits : List (Visit τ)} (h : OfJobs jobs visits) :
    visits.map (fun v => (v.job, v.step)) <+: stepsOf jobs := by
  induction h with
  | none jobs => exact List.nil_prefix
  | last h =>
    rw [h.map_pair, stepsOf_cons]
    exact (h.steps.map _).trans (List.prefix_append ..)
  | next h hall hmore ih =>
    rw [List.map_append, h.map_pair, hall, stepsOf_cons]
    exact (List.prefix_append_right_inj _).mpr ih

/-- A visit is that of the step with its number. -/
lemma getElem? {jobs : List Job} {visits : List (Visit τ)} (h : OfJobs jobs visits) {k : ℕ}
    {v : Visit τ} (hv : visits[k]? = some v) : (stepsOf jobs)[k]? = some (v.job, v.step) := by
  obtain ⟨rest, hrest⟩ := h.steps
  have hlt := (List.getElem?_eq_some_iff.mp hv).1
  rw [← hrest, List.getElem?_append_left (by simpa using hlt), List.getElem?_map, hv,
    Option.map_some]

/-- The visit of a step belongs to its job, which was started when its first step was begun. -/
lemma visit {jobs : List Job} {visits : List (Visit τ)} (h : OfJobs jobs visits) {i j : ℕ}
    {job : Job} {step : Step} (hjob : jobs[i]? = some job) (hstep : job.steps[j]? = some step)
    {v : Visit τ} (hv : visits[stepNumber jobs i j]? = some v) :
    v.job = job ∧ v.step = step ∧
      ∃ u, visits[stepNumber jobs i 0]? = some u ∧ v.jobStart = u.world.clock := by
  induction h generalizing i with
  | none jobs => simp at hv
  | @last first jobs visits h =>
    cases i with
    | zero =>
      obtain rfl : first = job := by simpa using hjob
      simpa using h.visit hstep (by simpa using hv)
    | succ i =>
      -- the visits end in the first job
      have hlength : visits.length ≤ first.steps.length := by
        simpa using h.steps.length_le
      have hlt := (List.getElem?_eq_some_iff.mp hv).1
      rw [stepNumber_succ] at hlt
      omega
  | @next first jobs visits more h hall hmore ih =>
    have hlength : visits.length = first.steps.length := by
      rw [← hall, List.length_map]
    cases i with
    | zero =>
      obtain rfl : first = job := by simpa using hjob
      have hlt : j < visits.length := by
        rw [hlength]
        exact (List.getElem?_eq_some_iff.mp hstep).1
      rw [stepNumber_zero, List.getElem?_append_left hlt] at hv
      rw [stepNumber_zero, List.getElem?_append_left (Nat.zero_lt_of_lt hlt)]
      exact h.visit hstep hv
    | succ i =>
      rw [stepNumber_succ, ← hlength, List.getElem?_append_right (Nat.le_add_right ..),
        Nat.add_sub_cancel_left] at hv ⊢
      exact ih (by simpa using hjob) hv

end OfJobs

/-! ## The courses of runs -/

namespace Sequence

variable [Timeline τ] (c : Console) (ws : Workspace) (base : Environment) (host : Host τ)

/-- The steps of a job take a course. -/
lemma runSteps_course (job : Job) (start : τ) (steps : List Step) (w : World τ) :
    let deadline := job.timeoutMinutes.map fun m => Timeline.plus start (Timeline.ofMinutes m)
    let progress := Progress.of (runSteps c ws base job deadline steps host w).1
    ∃ visits, Course c ws base host w visits progress
        (runSteps c ws base job deadline steps host w).2 ∧
      (visits.map (·.step) <+: steps ∧ (progress = .done → visits.map (·.step) = steps)) ∧
      (∀ v ∈ visits, v.job = job ∧ v.jobStart = start) ∧
      ∀ u, visits.head? = some u → u.world = w := by
  intro deadline
  induction steps generalizing w with
  | nil => exact ⟨[], .finished w, ⟨List.prefix_rfl, fun _ => rfl⟩, by simp, by simp⟩
  | cons step rest ih =>
    set v : Visit τ := ⟨job, start, step, w⟩ with hv
    have hrun : runStep c ws base job deadline step host w = v.ended c ws base host := rfl
    rw [runSteps_cons, hrun]
    rcases hended : v.ended c ws base host with ⟨e | r, w'⟩
    · exact ⟨[v], .fault hended, ⟨by simp [hv], fun h => by cases h⟩, by simp [hv],
        by simp [hv]⟩
    have hstatus : r.status = .success ∨ r.status = .failure := by
      obtain ⟨log, -, hstep⟩ := runStep_log c ws base job deadline step host w
      rw [hrun, hended] at hstep
      exact hstep.status_eq
    dsimp only
    rcases hstatus with hr | hr
    · have hgo : isFailure r = false := by simp [isFailure, hr]
      obtain ⟨visits, hcourse, ⟨hsteps, hall⟩, hjob, -⟩ := ih w'
      rw [if_neg (by simp [hgo])]
      have hnone : [r].any isFailure = false := by simp [hgo]
      have hprogress : ∀ result, Progress.of (result.map (r :: ·)) = Progress.of result :=
        Progress.of_map_append hnone
      rw [hprogress]
      refine ⟨v :: visits, .success hended hr hcourse, ⟨?_, fun h => ?_⟩, ?_, by simp [hv]⟩
      · exact List.cons_prefix_cons.mpr ⟨rfl, hsteps⟩
      · rw [List.map_cons, hall h]
      · exact List.forall_mem_cons.mpr ⟨⟨rfl, rfl⟩, hjob⟩
    · have hstop : isFailure r = true := by simp [isFailure, hr]
      rw [if_pos hstop]
      have hprogress : Progress.of (.ok (r :: rest.map (skipped job))) = .failed := by
        simp [Progress.of, hstop]
      rw [hprogress]
      exact ⟨[v], .failure hended hr, ⟨by simp [hv], fun h => by cases h⟩, by simp [hv],
        by simp [hv]⟩

/-- A job takes a course through its steps. -/
lemma runJob_course (job : Job) (w : World τ) :
    let progress := Progress.of (runJob c ws base job host w).1
    ∃ visits, Course c ws base host w visits progress (runJob c ws base job host w).2 ∧
      OfJob job visits ∧ (progress = .done → visits.map (·.step) = job.steps) := by
  rw [runJob_eq]
  obtain ⟨visits, hcourse, ⟨hsteps, hall⟩, hjob, hhead⟩ := runSteps_course c ws base host job
    w.clock job.steps (w.did [.tell (Console.jobStarted job.name job.runsOn)])
  refine ⟨visits, .told _ hcourse, ⟨hsteps, fun v hv => (hjob v hv).1, fun v hv u hu => ?_⟩, hall⟩
  rw [(hjob v hv).2, hhead u hu]
  rfl

/-- Jobs take a course through their steps. -/
lemma runJobs_course (jobs : List Job) (w : World τ) :
    ∃ visits, Course c ws base host w visits (Progress.of (runJobs c ws base jobs host w).1)
        (runJobs c ws base jobs host w).2 ∧ OfJobs jobs visits := by
  induction jobs generalizing w with
  | nil => exact ⟨[], .finished w, .none []⟩
  | cons job rest ih =>
    obtain ⟨visits, hcourse, hjob, hall⟩ := runJob_course c ws base host job w
    rw [runJobs_cons]
    rcases hrun : runJob c ws base job host w with ⟨e | rs, w'⟩
    all_goals
      rw [hrun] at hcourse hall
      dsimp only at hcourse hall ⊢
    · exact ⟨visits, hcourse, .last hjob⟩
    by_cases hfailure : rs.any isFailure = true
    · have hprogress : ∀ more, Progress.of (.ok (rs ++ more)) = Progress.of (.ok rs) := by
        simp [Progress.of, hfailure]
      rw [if_pos hfailure, hprogress]
      exact ⟨visits, hcourse, .last hjob⟩
    · obtain ⟨more, hmore, hjobs⟩ := ih w'
      have hdone : Progress.of (.ok rs) = .done := by simp [Progress.of, hfailure]
      rw [hdone] at hcourse
      rw [if_neg hfailure, Progress.of_map_append (Bool.eq_false_iff.mpr hfailure)]
      exact ⟨visits ++ more, hcourse.append hmore, .next hjob (hall hdone) hjobs⟩

/-- A run takes a course through the steps of its workflow. -/
theorem run_course (wf : Workflow) (e : Event) (w : World τ) :
    ∃ visits, Course c ws (runVariables wf e ws.place) host w visits
        (Progress.of ((run c wf e ws host w).1.map RunResult.steps)) (run c wf e ws host w).2 ∧
      OfJobs wf.jobs visits := by
  rw [run_eq]
  set opening : Message := Console.runStarted wf.name e wf.steps.length
  obtain ⟨visits, hcourse, hjobs⟩ := runJobs_course c ws (runVariables wf e ws.place) host wf.jobs
    (w.did [.tell opening])
  refine ⟨visits, .told opening ?_, hjobs⟩
  generalize runJobs c ws (runVariables wf e ws.place) wf.jobs host (w.did [.tell opening]) =
    ended at hcourse ⊢
  rcases ended with ⟨_ | _, _⟩
  · exact hcourse
  · exact hcourse

/-- The deeds of a run. -/
def runDeeds (wf : Workflow) (e : Event) (w : World τ) : List (Action τ) :=
  deeds (w.added (run c wf e ws host w).2)

/-- The deeds of a run are those of its visits. -/
theorem run_visits (wf : Workflow) (e : Event) (w : World τ) :
    ∃ visits, Course c ws (runVariables wf e ws.place) host w visits
        (Progress.of ((run c wf e ws host w).1.map RunResult.steps)) (run c wf e ws host w).2 ∧
      OfJobs wf.jobs visits ∧
      runDeeds c ws host wf e w =
        (visits.map fun v => v.part c ws (runVariables wf e ws.place) host).flatten ∧
      partsOf (runDeeds c ws host wf e w) =
        visits.map fun v => v.part c ws (runVariables wf e ws.place) host := by
  obtain ⟨visits, hcourse, hjobs⟩ := run_course c ws host wf e w
  obtain ⟨log, hlog, hdeeds⟩ := hcourse.adds
  rw [← World.added_eq hlog] at hdeeds
  refine ⟨visits, hcourse, hjobs, hdeeds, ?_⟩
  rw [runDeeds, hdeeds, Visit.partsOf_flatten_part]

end Sequence

end CiRunner
