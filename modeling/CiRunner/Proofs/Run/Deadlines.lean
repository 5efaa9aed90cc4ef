import CiRunner.Decimal.Binary
import CiRunner.Proofs.Run.Course

/-!
# Deadlines

Time limits are judged here on the exact scale of the rational numbers, on which a limit in minutes
is sixty times its value.  A job with a limit has a deadline, which is counted from the start of the
job.  A step gets what is left until then, or its own limit if that is shorter, and it is killed
when that is over.  A step that is killed fails and is the last one, so whenever a step is begun,
some time is left to its job: this is the invariant that carries the bounds on steps and jobs.
-/

namespace CiRunner

/-! ## Exact time -/

/-- The exact value of a double, zero for one that is no finite number. -/
def exactValue (x : Float) : ℚ :=
  match Decimal.Binary.read x with
  | .finite b => b.toRat
  | _ => 0

/-- Time in seconds, without rounding. -/
instance : Timeline ℚ where
  zero := 0
  plus a b := a + b
  minus a b := a - b
  shorter a b := decide (a < b)
  within a b := decide (a ≤ b)
  ofMinutes m := 60 * exactValue m
  seconds t := Decimal.Binary.nearest (t < 0) t.num.natAbs t.den

namespace Timeline

@[simp] lemma plus_rat (a b : ℚ) : plus a b = a + b := rfl

@[simp] lemma minus_rat (a b : ℚ) : minus a b = a - b := rfl

@[simp] lemma within_rat (a b : ℚ) : within a b = decide (a ≤ b) := rfl

@[simp] lemma ofMinutes_rat (m : Float) : (ofMinutes m : ℚ) = 60 * exactValue m := rfl

/-- The shorter of two times. -/
@[simp] lemma least_rat (a b : ℚ) : least a b = min a b := by
  have hshorter : shorter b a = decide (b < a) := rfl
  by_cases h : b < a
  · rw [least, hshorter, decide_eq_true h, if_pos rfl, min_eq_right h.le]
  · rw [least, hshorter, decide_eq_false h, min_eq_left (not_lt.mp h)]
    rfl

/-- Every exact time is a number. -/
@[simp] lemma due_rat (t : ℚ) : due t = t := by
  rw [due, within_rat, decide_eq_true le_rfl, if_pos rfl]

/-- A time that is positive is not clipped. -/
lemma clip_rat {t : ℚ} (h : 0 < t) : clip t = t := by
  have hshorter : shorter zero t = decide (0 < t) := rfl
  rw [clip, hshorter, decide_eq_true h, if_pos rfl]

end Timeline

/-! ## What a log tells of times -/

/-- The time at which a part of a log begins. -/
def startOf {τ : Type} : List (Action τ) → Option τ
  | .beginStep _ _ time :: _ => some time
  | _ => none

/-- The length of a timer that is started. -/
def Action.timer? {τ : Type} : Action τ → Option τ
  | startTimer _ length => some length
  | _ => none

/-- The lengths of the timers that are started in a part of a log. -/
def timersOf {τ : Type} (part : List (Action τ)) : List τ := part.filterMap Action.timer?

/-- What is told to the user starts no timer. -/
lemma timersOf_deeds {τ : Type} (log : List (Action τ)) : timersOf (deeds log) = timersOf log := by
  rw [timersOf, deeds, List.filterMap_filter]
  refine List.filterMap_congr fun a _ => ?_
  cases a <;> rfl

/-- The only timer of a command is started for its limit. -/
lemma Command.timersOf_trace {τ : Type} [Timeline τ] (c : Console) (pid : ℕ) (p : Program τ)
    (limit : Option τ) : timersOf (deeds (Command.trace c pid p limit)) = limit.toList := by
  have htells : ((pieces p.output).map fun piece =>
      (Action.tell (c.echo piece) : Action τ)).filterMap Action.timer? = [] := by
    simp [List.filterMap_eq_nil_iff, Action.timer?]
  have hending : (ending pid p limit).filterMap Action.timer? = [] := by
    unfold ending
    split <;> rfl
  rw [timersOf_deeds, timersOf, trace, List.filterMap_append, List.filterMap_append, hending, life,
    aftermath]
  generalize overruns p limit = killed
  generalize firesLate p limit = late
  cases limit <;> cases killed <;> cases late <;> cases p.interrupted <;> cases p.reaped <;>
    simp [htells, Action.timer?]

/-- The timers of a step: one if a process is started with a limit. -/
lemma Visit.timersOf_part_eq {τ : Type} [Timeline τ] (c : Console) (ws : Workspace)
    (base : Environment) (host : Host τ) (v : Visit τ) :
    timersOf (v.part c ws base host) =
      if (v.part c ws base host).any Action.isSpawn then v.limit.toList else [] := by
  have hclosing : timersOf (v.closing c ws base host) = [] ∧
      (v.closing c ws base host).any Action.isSpawn = false := by
    unfold closing
    split <;> exact ⟨rfl, rfl⟩
  have htimers : timersOf (v.part c ws base host) = timersOf (v.bodyDeeds c ws base host) := by
    rw [part, timersOf, List.filterMap_cons_none rfl, List.filterMap_append]
    exact (congrArg _ hclosing.1).trans (List.append_nil _)
  have hspawn : (v.part c ws base host).any Action.isSpawn =
      (v.bodyDeeds c ws base host).any Action.isSpawn := by
    rw [part, List.any_cons, List.any_append, hclosing.2, Bool.or_false]
    rfl
  rw [htimers, hspawn]
  rcases v.starts_or_quiet c ws base host with ⟨p, hstarts⟩ | hquiet
  · obtain ⟨words, directory, hdeeds⟩ := hstarts.bodyDeeds
    rw [hdeeds, List.any_cons, timersOf, List.filterMap_cons_none rfl]
    exact Command.timersOf_trace ..
  · have hnone : (v.bodyDeeds c ws base host).any Action.isSpawn = false :=
      List.any_eq_false.mpr fun a ha => by
        simp [(Action.kinds_of_isGit (hquiet.bodyDeeds a ha)).2.2]
    rw [hnone]
    refine List.filterMap_eq_nil_iff.mpr fun a ha => ?_
    have hgit := hquiet.bodyDeeds a ha
    cases a with
    | git => rfl
    | _ => cases hgit

/-- The step with a number starts at one time and stops at another one: this is when the next step
starts, or, for the last step, when the run is over.  If the step comes to its end, its mark has
that time. -/
structure Lasts {τ : Type} (parts : List (List (Action τ))) (finish : τ) (k : ℕ)
    (start stop : τ) : Prop where
  /-- The step starts at the mark of its begin. -/
  start : ∃ part, parts[k]? = some part ∧ startOf part = some start
  /-- It stops when the next step starts. -/
  next : ∀ part, parts[k + 1]? = some part → startOf part = some stop
  /-- If it is the last step, it stops when the run is over. -/
  last : k + 1 = parts.length → finish = stop
  /-- The mark of its end has this time. -/
  mark : ∀ part, parts[k]? = some part → ∀ r time, .endStep r time ∈ part → time = stop

/-! ## Commands -/

/-- Commands take some time or none, and a kill ends them. -/
structure Host.Punctual (host : Host ℚ) : Prop where
  /-- No command takes negative time. -/
  duration_nonneg : ∀ n, 0 ≤ (host.program n).duration
  /-- No command survives a kill. -/
  dies : ∀ n, (host.program n).survivesKill = false

namespace Command

variable {p : Program ℚ} {limit : Option ℚ}

/-- A command takes no negative time. -/
lemma runTime_nonneg (hduration : 0 ≤ p.duration) (hlimit : ∀ t ∈ limit, 0 < t) :
    0 ≤ runTime p limit := by
  unfold runTime
  cases limit with
  | none => exact hduration
  | some t =>
    split
    · simpa using (hlimit t rfl).le
    · exact hduration

/-- A command that a kill ends takes no longer than its limit, and it has to be killed for taking so
long. -/
lemma runTime_le {t : ℚ} (ht : limit = some t) (hdies : p.survivesKill = false) :
    runTime p limit ≤ t ∧ (overruns p limit = false → runTime p limit < t) := by
  subst ht
  have hoverruns : overruns p (some t) = decide (t ≤ p.duration) := by simp [overruns]
  have hshield : shield? p = none := by simp [shield?, hdies]
  unfold runTime
  rw [hoverruns, hshield]
  by_cases h : t ≤ p.duration
  · simp [h]
  · have hlt := not_le.mp h
    simp [h, hlt, hlt.le]

/-- A command that is killed for its time does not exit with zero. -/
lemma overruns_eq_false {killed : Bool} (hdies : p.survivesKill = false)
    (hcode : exitCode p killed = 0) : killed = false := by
  cases killed with
  | false => rfl
  | true => simp [exitCode, hdies, killedCode] at hcode

end Command

/-! ## One visit -/

namespace Visit

variable {c : Console} {ws : Workspace} {base : Environment} {host : Host ℚ} {v : Visit ℚ}

/-- The limits that there are for a step: its own, and what is left to its job. -/
def limits (v : Visit ℚ) : List ℚ :=
  (v.step.timeoutMinutes.map fun m => 60 * exactValue m).toList ++
    (v.job.timeoutMinutes.map fun m => v.jobStart + 60 * exactValue m - v.world.clock).toList

/-- Some time is left to the job of a step. -/
def HasTime (v : Visit ℚ) : Prop :=
  ∀ m, v.job.timeoutMinutes = some m → v.world.clock < v.jobStart + 60 * exactValue m

/-- As long as there is some time left, the limit of a step is the smallest of the limits. -/
lemma limit_eq_min? (h : v.HasTime) : v.limit = v.limits.min? := by
  unfold limit Sequence.stepLimit deadline limits
  cases hjob : v.job.timeoutMinutes with
  | none => cases v.step.timeoutMinutes <;> rfl
  | some m =>
    have hleft : 0 < v.jobStart + 60 * exactValue m - v.world.clock := sub_pos.mpr (h m hjob)
    cases v.step.timeoutMinutes with
    | none => simp [Timeline.clip_rat hleft]
    | some m' => simp [Timeline.clip_rat hleft, List.min?_cons]

variable (c ws base) in
/-- What a visit takes of the time that is left. -/
lemma elapsed (hhost : host.Punctual) (htime : v.HasTime) (hlimits : ∀ t ∈ v.limits, 0 < t) :
    v.world.clock ≤ (v.ended c ws base host).2.clock ∧
      ∀ t ∈ v.limits, (v.ended c ws base host).2.clock ≤ v.world.clock + t ∧
        ∀ r, (v.ended c ws base host).1 = .ok r → r.status = .success →
          (v.ended c ws base host).2.clock < v.world.clock + t := by
  have hlimit := limit_eq_min? htime
  rcases v.starts_or_quiet c ws base host with ⟨p, hstarts⟩ | hquiet
  · obtain ⟨hprogram, hthere⟩ := hstarts.program
    have hduration : 0 ≤ p.duration := hprogram ▸ hhost.duration_nonneg _
    have hdies : p.survivesKill = false := hprogram ▸ hhost.dies _
    have hnonneg : 0 ≤ Command.runTime p v.limit := Command.runTime_nonneg hduration fun t ht =>
      hlimits t (List.min?_mem (hlimit.symm.trans ht))
    rw [hstarts.clock, Timeline.plus_rat]
    refine ⟨by linarith, fun t ht => ?_⟩
    obtain ⟨least, hleast⟩ := Option.isSome_iff_exists.mp (List.isSome_min?_of_mem ht)
    have hle : least ≤ t := (List.min?_eq_some_iff.mp hleast).2 t ht
    obtain ⟨hruns, hfree⟩ := Command.runTime_le (hlimit.trans hleast) hdies
    refine ⟨by linarith, fun r hr hstatus => ?_⟩
    have hzero := hstarts.exitCode_eq_zero hr hstatus
    linarith [hfree (Command.overruns_eq_false hdies hzero)]
  · rw [hquiet.clock]
    refine ⟨le_rfl, fun t ht => ?_⟩
    have hpositive := hlimits t ht
    exact ⟨by linarith, fun r _ _ => by linarith⟩

/-- The limits of a step are positive if its own and that of its job are, as long as there is some
time left. -/
lemma limits_pos (htime : v.HasTime)
    (hstep : ∀ m, v.step.timeoutMinutes = some m → 0 < exactValue m) : ∀ t ∈ v.limits, 0 < t := by
  intro t ht
  rcases List.mem_append.mp ht with ht | ht
  · obtain ⟨m, hm, rfl⟩ := Option.map_eq_some_iff.mp (Option.mem_toList.mp ht)
    linarith [hstep m hm]
  · obtain ⟨m, hm, rfl⟩ := Option.map_eq_some_iff.mp (Option.mem_toList.mp ht)
    linarith [htime m hm]

/-- The timer of a step, if it starts a process, is for the smallest of its limits. -/
lemma timersOf_part (htime : v.HasTime) :
    timersOf (v.part c ws base host) =
      if (v.part c ws base host).any Action.isSpawn then v.limits.min?.toList else [] := by
  rw [v.timersOf_part_eq, limit_eq_min? htime]

end Visit

/-! ## Runs -/

/-- All time limits of a workflow are positive. -/
structure Workflow.PositiveLimits (wf : Workflow) : Prop where
  /-- The limits of jobs are positive. -/
  job : ∀ job ∈ wf.jobs, ∀ m, job.timeoutMinutes = some m → 0 < exactValue m
  /-- The limits of steps are positive. -/
  step : ∀ job ∈ wf.jobs, ∀ step ∈ job.steps, ∀ m, step.timeoutMinutes = some m → 0 < exactValue m

section Runs

variable {c : Console} {ws : Workspace} {base : Environment} {host : Host ℚ} {w w' : World ℚ}
variable {visits : List (Visit ℚ)} {progress : Progress} {wf : Workflow}

/-- Whenever a step is begun, some time is left to its job. -/
lemma Course.hasTime (h : Course c ws base host w visits progress w')
    (hjobs : OfJobs wf.jobs visits) (hlimits : wf.PositiveLimits) (hhost : host.Punctual) {i j : ℕ}
    {job : Job} {step : Step} (hjob : wf.jobs[i]? = some job) (hstep : job.steps[j]? = some step)
    {v : Visit ℚ} (hv : visits[stepNumber wf.jobs i j]? = some v) : v.HasTime := by
  induction j generalizing step v with
  | zero =>
    obtain ⟨rfl, -, u, hu, hstart⟩ := hjobs.visit hjob hstep hv
    obtain rfl : v = u := Option.some.inj (hv.symm.trans hu)
    intro m hm
    rw [hstart]
    linarith [hlimits.job _ (List.mem_of_getElem? hjob) m hm]
  | succ j ih =>
    rw [stepNumber_add] at hv
    have hlt := (List.getElem?_eq_some_iff.mp hv).1
    have hltj := (List.getElem?_eq_some_iff.mp hstep).1
    obtain ⟨u, hu⟩ : ∃ u, visits[stepNumber wf.jobs i j]? = some u :=
      ⟨_, List.getElem?_eq_getElem (Nat.lt_of_succ_lt hlt)⟩
    obtain ⟨before, hbefore⟩ : ∃ before, job.steps[j]? = some before :=
      ⟨_, List.getElem?_eq_getElem (Nat.lt_of_succ_lt hltj)⟩
    have htime := ih hbefore hu
    obtain ⟨hujob, hustep, first, hfirst, hustart⟩ := hjobs.visit hjob hbefore hu
    obtain ⟨hvjob, -, first', hfirst', hvstart⟩ := hjobs.visit hjob hstep hv
    obtain rfl : first = first' := Option.some.inj (hfirst.symm.trans hfirst')
    obtain ⟨⟨r, hr, hstatus⟩, hclock⟩ := h.next hu hv
    have hpositive := u.limits_pos htime fun m hm =>
      hlimits.step _ (List.mem_of_getElem? hjob) _ (List.mem_of_getElem? (hustep ▸ hbefore)) m hm
    intro m hm
    have hstart : v.jobStart = u.jobStart := hvstart.trans hustart.symm
    have hsame : v.job = u.job := hvjob.trans hujob.symm
    rw [hsame] at hm
    have hleft : u.jobStart + 60 * exactValue m - u.world.clock ∈ u.limits :=
      List.mem_append_right _ (by simp [hm])
    obtain ⟨-, hbound⟩ := u.elapsed c ws base hhost htime hpositive
    rw [hclock, hstart]
    linarith [(hbound _ hleft).2 r hr hstatus]

/-- When the steps of a course start and stop. -/
lemma Course.lasts (h : Course c ws base host w visits progress w') {k : ℕ} {v : Visit ℚ}
    (hv : visits[k]? = some v) :
    Lasts (visits.map fun v => v.part c ws base host) w'.clock k v.world.clock
      (v.ended c ws base host).2.clock where
  start := ⟨v.part c ws base host, by rw [List.getElem?_map, hv, Option.map_some], rfl⟩
  next part hpart := by
    rw [List.getElem?_map] at hpart
    obtain ⟨u, hu, rfl⟩ := Option.map_eq_some_iff.mp hpart
    exact congrArg some (h.next hv hu).2
  last hlast := by
    rw [List.length_map] at hlast
    refine h.last ?_
    rw [List.getLast?_eq_getElem?, ← hlast, Nat.add_sub_cancel, hv]
  mark part hpart r time hmark := by
    rw [List.getElem?_map, hv, Option.map_some] at hpart
    obtain rfl := Option.some.inj hpart
    exact (v.endStep_mem_part c ws base host hmark).2

end Runs

/-- In a run of a workflow with positive limits, in which commands take some time or none and do not
survive a kill, every step of a job with a limit starts before the deadline of the job, which is
counted from the start of the first step of the job, and stops no later than that.  So the steps of
a job together take no longer than its limit, and a step takes no longer than its own limit.  When a
step starts a process, it starts a timer for the smallest of the limits that there are, its own one
and what is left to the job; this is positive, and without a limit or a process there is no timer.
The first step starts when the run does, and each other step when the one before it stops. -/
theorem run_keeps_deadlines (c : Console) (ws : Workspace) (host : Host ℚ) (wf : Workflow)
    (e : Event) (w : World ℚ) (hlimits : wf.PositiveLimits) (hhost : host.Punctual) :
    let parts := partsOf (Sequence.runDeeds c ws host wf e w)
    (∀ part, parts[0]? = some part → startOf part = some w.clock) ∧
    ∀ (i j : ℕ) (job : Job) (step : Step) (part : List (Action ℚ)), wf.jobs[i]? = some job →
      job.steps[j]? = some step → parts[stepNumber wf.jobs i j]? = some part →
      ∃ first jobStart start stop, parts[stepNumber wf.jobs i 0]? = some first ∧
        startOf first = some jobStart ∧
        Lasts parts (Sequence.run c wf e ws host w).2.clock (stepNumber wf.jobs i j) start stop ∧
        start ≤ stop ∧
        (∀ m, job.timeoutMinutes = some m →
          start < jobStart + 60 * exactValue m ∧ stop ≤ jobStart + 60 * exactValue m) ∧
        (∀ m, step.timeoutMinutes = some m → stop - start ≤ 60 * exactValue m) ∧
        (∀ length ∈ timersOf part, 0 < length) ∧
        timersOf part =
          if part.any Action.isSpawn then
            ((step.timeoutMinutes.map fun m => 60 * exactValue m).toList ++
              (job.timeoutMinutes.map fun m =>
                jobStart + 60 * exactValue m - start).toList).min?.toList
          else [] := by
  intro parts
  obtain ⟨visits, hcourse, hjobs, -, hparts⟩ := Sequence.run_visits c ws host wf e w
  have hparts : parts = visits.map fun v => v.part c ws (runVariables wf e ws.place) host := hparts
  rw [hparts]
  constructor
  · intro part hpart
    rw [List.getElem?_map] at hpart
    obtain ⟨v, hv, rfl⟩ := Option.map_eq_some_iff.mp hpart
    exact congrArg some (hcourse.first (List.head?_eq_getElem? ▸ hv))
  · intro i j job step part hjob hstep hpart
    rw [List.getElem?_map] at hpart
    obtain ⟨v, hv, rfl⟩ := Option.map_eq_some_iff.mp hpart
    obtain ⟨rfl, rfl, u, hu, hstart⟩ := hjobs.visit hjob hstep hv
    have htime := hcourse.hasTime hjobs hlimits hhost hjob hstep hv
    have hpositive := v.limits_pos htime
      (hlimits.step _ (List.mem_of_getElem? hjob) _ (List.mem_of_getElem? hstep))
    obtain ⟨hle, hbound⟩ :=
      v.elapsed c ws (runVariables wf e ws.place) hhost htime hpositive
    refine ⟨u.part c ws (runVariables wf e ws.place) host, v.jobStart, v.world.clock, _,
      by rw [List.getElem?_map, hu, Option.map_some], congrArg some hstart.symm, hcourse.lasts hv,
      hle, fun m hm => ⟨htime m hm, ?_⟩, fun m hm => ?_, fun length hlength => ?_,
      v.timersOf_part htime⟩
    · have hleft : v.jobStart + 60 * exactValue m - v.world.clock ∈ v.limits :=
        List.mem_append_right _ (by simp [hm])
      linarith [(hbound _ hleft).1]
    · have hown : 60 * exactValue m ∈ v.limits := List.mem_append_left _ (by simp [hm])
      linarith [(hbound _ hown).1]
    · rw [v.timersOf_part htime] at hlength
      split at hlength
      · exact hpositive _ (List.min?_mem (Option.mem_toList.mp hlength))
      · cases hlength

/-- A job with a limit of a minute, in which the first step has half a minute. -/
def hurriedBuild : Workflow where
  name := "ci"
  jobs := [
    { name := "check", timeoutMinutes := some 1.0
      steps := [{ name := "Build", run := some "make", timeoutMinutes := some 0.5 },
        { name := "Test", run := some "make test" }] }]

/-- A host on which the first program takes twenty seconds and every other one a minute. -/
def slowHost : Host ℚ where
  program n := { duration := if n = 0 then 20 else 60 }
  git _ _ := none
  environment := []
  directory := []
  temporary := ["tmp"]
  script _ := []
  now _ := default
  freshName _ := ""

/-- The limits of the job and its first step are positive, and the others are absent. -/
lemma hurriedBuild_positiveLimits : hurriedBuild.PositiveLimits := by
  have hpositive : 0 < exactValue 1.0 ∧ 0 < exactValue 0.5 := by decide +kernel
  constructor
  · rintro job hjob m hm
    obtain rfl := List.mem_singleton.mp hjob
    obtain rfl := Option.some.inj hm
    exact hpositive.1
  · rintro job hjob step hstep m hm
    obtain rfl := List.mem_singleton.mp hjob
    rcases List.mem_cons.mp hstep with rfl | hstep
    · obtain rfl := Option.some.inj hm
      exact hpositive.2
    · obtain rfl := List.mem_singleton.mp hstep
      cases hm

/-- The tests are begun after twenty seconds, have a timer for what is left of the minute, and are
over when the minute is. -/
theorem run_keeps_deadlines_of_hurriedBuild :
    let ended := Sequence.run {} hurriedBuild { kind := "push", branch := .text "main" }
      (Workspace.inPlace [] "/" "") slowHost { clock := 0, tree := ⟨[]⟩ }
    let parts := partsOf (Sequence.runDeeds {} (Workspace.inPlace [] "/" "") slowHost hurriedBuild
      { kind := "push", branch := .text "main" } { clock := 0, tree := ⟨[]⟩ })
    hurriedBuild.PositiveLimits ∧ slowHost.Punctual ∧
      ∃ part stop, parts[1]? = some part ∧ Lasts parts ended.2.clock 1 20 stop ∧
        timersOf part = [40] ∧ stop ≤ 60 := by
  intro ended parts
  have hhost : slowHost.Punctual :=
    ⟨fun n => by unfold slowHost; dsimp only; split <;> norm_num, fun n => rfl⟩
  have hsecond : (parts[1]?).map (fun part => (startOf part, timersOf part)) =
      some (some 20, [40]) := by decide +kernel
  have hone : exactValue 1.0 = 1 := by decide +kernel
  obtain ⟨part, hpart, htimes⟩ := Option.map_eq_some_iff.mp hsecond
  obtain ⟨hstart, htimers⟩ := Prod.mk.inj htimes
  obtain ⟨hbegin, hsteps⟩ := run_keeps_deadlines {} (Workspace.inPlace [] "/" "") slowHost
    hurriedBuild { kind := "push", branch := .text "main" } { clock := 0, tree := ⟨[]⟩ }
    hurriedBuild_positiveLimits hhost
  obtain ⟨first, jobStart, start, stop, hfirst, hjobStart, hlasts, -, hdeadline, -⟩ :=
    hsteps 0 1 _ _ part rfl rfl hpart
  have hzero : jobStart = 0 := Option.some.inj (hjobStart.symm.trans (hbegin first hfirst))
  obtain ⟨part', hpart', hstart'⟩ := hlasts.start
  obtain rfl : part = part' := Option.some.inj (hpart.symm.trans hpart')
  obtain rfl : start = 20 := Option.some.inj (hstart'.symm.trans hstart)
  have hstop := (hdeadline 1.0 rfl).2
  rw [hzero, hone] at hstop
  exact ⟨hurriedBuild_positiveLimits, hhost, part, stop, hpart, hlasts, htimers, by linarith⟩

end CiRunner
