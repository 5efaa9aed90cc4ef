import CiRunner.Proofs.Run.Interruptions
import CiRunner.Proofs.Run.Rejections
import CiRunner.Proofs.Workflow.Reading
import CiRunner.Workflow.Files

/-!
# Faults of runs

What is wrong with a step is meant to show up as its failure, and nearly all of it does: a command
that fails, a shell or a directory that is missing, an action that is not supported, a checkout that
Git does not do.  Three defects break the run off with a fault instead: a working directory that is
no text or has a null character, and one that the system refuses to look at, which documents may
give, and a shell that is not known, which only scripts may.

All other faults come from outside: the user interrupts a command or a call of Git, or the system
refuses it.  It refuses a command that has a null character, is too long or gets a variable whose
name it does not take, all of which documents may give, and a directory that may not be entered.  So
is a run broken off by the standard streams when they reject what it tells.
-/

namespace CiRunner

open Success

variable {τ : Type}

/-! ## Defects -/

/-- The fault that a run comes to when it comes to a step that cannot be started at all, with some
tree of files: its working directory cannot be a place, the system refuses to look at it, or its
shell is not known. -/
def Step.defect? (host : Host τ) (t : FileTree) (place : Location) (step : Step) : Option Fault :=
  if step.isAction then none
  else
    match Sequence.directoryOf place step.cwd with
    | .error fault => some fault
    | .ok directory =>
      if t.isDir directory then
        match Command.shellWords? step.shell with
        | none => some (.unknownShell step.shell)
        | some _ => none
      else (host.hides t directory).map .directoryHidden

variable {host : Host τ} {t : FileTree} {place : Location} {step : Step} {fault : Fault}

/-- With a known shell only the working directory can be a defect. -/
lemma Step.directoryOf_of_defect? (hshell : Command.shellWords? step.shell ≠ none)
    (h : step.defect? host t place = some fault) :
    Sequence.directoryOf place step.cwd = .error fault ∨
      ∃ directory reason, Sequence.directoryOf place step.cwd = .ok directory ∧
        host.hides t directory = some reason ∧ fault = .directoryHidden reason := by
  unfold defect? at h
  split at h
  · cases h
  split at h
  · rename_i heq
    rw [heq, Option.some.inj h]
    exact Or.inl rfl
  · rename_i directory hplace
    split at h
    · split at h
      · exact absurd ‹_› hshell
      · cases h
    · obtain ⟨reason, hreason, rfl⟩ := Option.map_eq_some_iff.mp h
      exact Or.inr ⟨directory, reason, hplace, hreason, rfl⟩

/-- What is related to a list, one by one, is related to something in it. -/
lemma exists_related {α β : Type} {R : α → β → Prop} {l : List α} {l' : List β}
    (h : List.Forall₂ R l l') {b : β} (hb : b ∈ l') : ∃ a, R a b := by
  induction h with
  | nil => cases hb
  | @cons a first l l' hfirst hrest ih =>
    rcases List.mem_cons.mp hb with rfl | hb
    · exact ⟨a, hfirst⟩
    · exact ih hb

/-- The steps of a document have known shells. -/
lemma Workflow.shellWords?_of_ofText {source : Option String} {text : String} {wf : Workflow}
    (h : ofText source text = .ok wf) {p : Job × Step} (hp : p ∈ wf.steps) :
    Command.shellWords? p.2.shell ≠ none := by
  obtain ⟨doc, -, hvalue⟩ := ofText_eq_ok_iff.mp h
  obtain ⟨events, entry, rest, -, hjobs, -⟩ := ofValue_eq_ok hvalue
  obtain ⟨job, hjob, hin⟩ := List.mem_flatMap.mp hp
  obtain ⟨step, hstep, rfl⟩ := List.mem_map.mp hin
  obtain ⟨entry', hread⟩ := exists_related (readJobs_eq_ok hjobs) hjob
  obtain ⟨specs, -, -, hspecs⟩ := hread.steps
  obtain ⟨spec, hspec⟩ := exists_related hspecs hstep
  rcases hspec.shell with hshell | hshell
  all_goals simp [hshell, Command.shellWords?]

section Visits

variable [Timeline τ] (c : Console) (ws : Workspace) (base : Environment)

/-- A visit that leaves nothing but the mark of its begin behind is broken off. -/
lemma Visit.error_of_part {v : Visit τ} {a : Action τ} (h : v.part c ws base host = [a]) :
    ∃ fault, (v.ended c ws base host).1 = .error fault := by
  cases hended : (v.ended c ws base host).1 with
  | error fault => exact ⟨fault, rfl⟩
  | ok r => simp [Visit.part, Visit.closing, hended] at h

/-- A visit is broken off by a defect of its step, before anything else is done, or from outside.
Without a mark of anything that was done there is a defect exactly if there is one afterwards. -/
lemma Visit.defect?_of_error {v : Visit τ} (h : (v.ended c ws base host).1 = .error fault) :
    (v.step.defect? host (v.ended c ws base host).2.tree ws.place = some fault ∧
        v.part c ws base host = [.beginStep v.job.name v.step.name v.world.clock]) ∨
      fault.isOutside = true ∧ ∀ a, v.part c ws base host = [a] →
        v.step.defect? host (v.ended c ws base host).2.tree ws.place = none := by
  obtain ⟨e, hbody, he, hw⟩ | ⟨outcome, r, -, hok, -⟩ := v.ended_cases c ws base host
  swap
  · cases hok.symm.trans h
  cases he.symm.trans h
  have hpart : v.part c ws base host =
      .beginStep v.job.name v.step.name v.world.clock :: v.bodyDeeds c ws base host := by
    rw [Visit.part, Visit.closing, h, List.append_nil]
  have hends := v.body_ends c ws base host
  have hadds := v.bodyDeeds_eq c ws base host
  rw [hbody] at hends
  rw [hw, hpart]
  generalize (v.body c ws base host).2 = w' at hends hadds
  generalize hresult : (Except.error fault : Except Fault Outcome) = result at hends
  cases hends with
  | action hstep hasks =>
    rw [← hresult] at hasks
    obtain ⟨n, args, reply, -, hbreach⟩ := hasks.broken fault rfl
    exact Or.inr ⟨Git.isOutside_of_breach? hbreach, fun _ _ => by simp [Step.defect?, hstep]⟩
  | noPlace hstep hplace =>
    cases hresult
    rw [hadds [] (by simp)]
    exact Or.inl ⟨by simp [Step.defect?, hstep, hplace], rfl⟩
  | hidden hstep hplace hnone hreason =>
    cases hresult
    rw [hadds [] (by simp)]
    exact Or.inl ⟨by simp [Step.defect?, hstep, hplace, hnone, hreason], rfl⟩
  | unknownShell hstep hplace hdirectory hshell =>
    cases hresult
    rw [hadds [] (by simp)]
    exact Or.inl ⟨by simp [Step.defect?, hstep, hplace, hdirectory, hshell], rfl⟩
  | noDirectory | missing => cases hresult
  | refused hstep hplace hdirectory hshell hmissing hreason =>
    cases hresult
    exact Or.inr ⟨rfl, fun _ _ => by simp [Step.defect?, hstep, hplace, hdirectory, hshell]⟩
  | @started directory words p hstep hplace hdirectory hshell hprogram hthere =>
    refine Or.inr ⟨?_, fun a ha => ?_⟩
    · split at hresult
      · rw [Except.error.inj hresult]
        exact Command.isOutside_interruption p
      · cases hresult
    · rw [hadds _ (World.did_actions ..)] at ha
      cases (List.cons_eq_cons.mp ha).2

/-- A step whose working directory cannot be a place is broken off. -/
lemma Visit.error_of_directoryOf {v : Visit τ} (hstep : v.step.isAction = false)
    (h : Sequence.directoryOf ws.place v.step.cwd = .error fault) :
    (v.ended c ws base host).1 = .error fault := by
  rw [Visit.ended_eq_error_iff]
  have hends := v.body_ends c ws base host
  generalize (v.body c ws base host).1 = result at hends ⊢
  generalize (v.body c ws base host).2 = w' at hends
  cases hends with
  | noPlace _ hplace => rw [Except.error.inj (hplace.symm.trans h)]
  | action haction => simp [hstep] at haction
  | hidden _ hplace | noDirectory _ hplace | unknownShell _ hplace | missing _ hplace
  | refused _ hplace | started _ hplace =>
    cases hplace.symm.trans h

end Visits

/-! ## The entries of a result -/

/-- What a step leaves behind is a part of a log. -/
lemma StepLog.isPart {host : Host τ} {ws : Workspace} {job : Job} {step : Step}
    {r : Option StepResult} {part : List (Action τ)} (h : StepLog host ws job step r part) :
    IsPart part := by
  have hclosed : ∀ {body : List (Action τ)}, BodyLog step body → ∀ r stop,
      ∀ b ∈ body ++ [.endStep r stop], b.isBegin = false := by
    intro body hbody r stop b hb
    rcases List.mem_append.mp hb with hb | hb
    · exact Action.isBegin_eq_false_of_isMark (hbody.unmarked b hb)
    · rw [List.mem_singleton.mp hb]
      rfl
  cases h with
  | succeeded hbody => exact ⟨_, _, rfl, rfl, hclosed hbody _ _⟩
  | failed hbody => exact ⟨_, _, rfl, rfl, hclosed hbody _ _⟩
  | broken hbody =>
    exact ⟨_, _, rfl, rfl, fun b hb => Action.isBegin_eq_false_of_isMark (hbody.unmarked b hb)⟩

/-- What the entry of a step says: a step that was begun is a success only with the evidence for it,
else it is a failure; the steps after a failure are skipped, and no others. -/
inductive Entry (host : Host τ) (ws : Workspace) (job : Job) (step : Step)
    (parts : List (List (Action τ))) (results : List StepResult) (k : ℕ) (s : StepResult) : Prop
  /-- The step succeeded. -/
  | success {part : List (Action τ)} (hstatus : s.status = .success) (hpart : parts[k]? = some part)
      (hlog : StepLog host ws job step (some s) part)
  /-- The step failed, and all later ones are skipped. -/
  | failure {part : List (Action τ)} (hstatus : s.status = .failure) (hpart : parts[k]? = some part)
      (hlog : StepLog host ws job step (some s) part)
      (hlater : ∀ k' s', k < k' → results[k']? = some s' → s'.status = .skipped)
  /-- The step was not begun, because an earlier one failed. -/
  | skipped {k' : ℕ} {s' : StepResult} (hstatus : s.status = .skipped) (hnone : parts[k]? = none)
      (hearlier : k' < k) (hs' : results[k']? = some s') (hfailure : s'.status = .failure)

namespace Entry

variable {host : Host τ} {ws : Workspace} {job : Job} {step : Step}
variable {parts : List (List (Action τ))} {results : List StepResult} {k : ℕ} {s : StepResult}

/-- An entry says the same with a step before it. -/
lemma cons (h : Entry host ws job step parts results k s) (part : List (Action τ))
    (r : StepResult) : Entry host ws job step (part :: parts) (r :: results) (k + 1) s := by
  cases h with
  | success hstatus hpart hlog => exact .success hstatus hpart hlog
  | failure hstatus hpart hlog hlater =>
    refine .failure hstatus hpart hlog fun k' s' hlt hs' => ?_
    obtain ⟨k', rfl⟩ : ∃ n, k' = n + 1 := ⟨k' - 1, by omega⟩
    exact hlater k' s' (Nat.lt_of_succ_lt_succ hlt) hs'
  | skipped hstatus hnone hearlier hs' hfailure =>
    exact .skipped hstatus hnone (Nat.succ_lt_succ hearlier) hs' hfailure

end Entry

namespace FailFast

variable {host : Host τ} {ws : Workspace} {steps : List (Job × Step)}
variable {parts : List (List (Action τ))}

/-- The parts of a run are parts of a log. -/
lemma isPart {result : Except Fault (List StepResult)} (h : FailFast host ws steps result parts) :
    ∀ part ∈ parts, IsPart part := by
  induction h with
  | finished => simp
  | success hstep hr hrest ih => exact List.forall_mem_cons.mpr ⟨hstep.isPart, ih⟩
  | failure hstep hr => exact List.forall_mem_singleton.mpr hstep.isPart
  | fault hstep => exact List.forall_mem_singleton.mpr hstep.isPart

/-- There is an entry for every step. -/
lemma entry {results : List StepResult} (h : FailFast host ws steps (.ok results) parts) {k : ℕ}
    {job : Job} {step : Step} (hk : steps[k]? = some (job, step)) :
    ∃ s, results[k]? = some s ∧ Entry host ws job step parts results k s := by
  generalize hok : Except.ok results = ended at h
  induction h generalizing results k with
  | finished => simp at hk
  | @success job' step' r part rest result parts hstep hr hrest ih =>
    cases result with
    | error e => cases hok
    | ok tail =>
      cases hok
      cases k with
      | zero =>
        cases hk
        exact ⟨r, rfl, .success hr rfl hstep⟩
      | succ k =>
        obtain ⟨s, hs, hentry⟩ := ih hk rfl
        exact ⟨s, hs, hentry.cons part r⟩
  | @failure job' step' r part rest hstep hr =>
    cases hok
    cases k with
    | zero =>
      cases hk
      refine ⟨r, rfl, .failure hr rfl hstep fun k' s' hlt hs' => ?_⟩
      obtain ⟨k', rfl⟩ : ∃ n, k' = n + 1 := ⟨k' - 1, by omega⟩
      have hmem : s' ∈ skipAll rest := List.mem_of_getElem? (i := k') hs'
      obtain ⟨p, -, rfl⟩ := List.mem_map.mp hmem
      rfl
    | succ k =>
      have hget : (skipAll rest)[k]? = some (Sequence.skipped job step) := by
        have hrest : rest[k]? = some (job, step) := hk
        rw [skipAll, List.getElem?_map, hrest, Option.map_some]
      exact ⟨_, hget, .skipped rfl rfl (Nat.zero_lt_succ k) rfl hr⟩
  | fault hstep => cases hok

end FailFast

/-- A run stops at the first step that fails, part by part of its log. -/
lemma Sequence.run_parts [Timeline τ] (c : Console) (ws : Workspace) (host : Host τ)
    (wf : Workflow) (e : Event) (w : World τ) :
    FailFast host ws wf.steps ((run c wf e ws host w).1.map RunResult.steps)
      (partsOf (runDeeds c ws host wf e w)) := by
  obtain ⟨log, parts, hlog, hdeeds, hrun⟩ := run_failFast c host ws wf e w
  rw [runDeeds, World.added_eq hlog, hdeeds, partsOf_flatten hrun.isPart]
  exact hrun

/-! ## The faults of a run -/

section Runs

variable [Timeline τ] (c : Console) (ws : Workspace) {host : Host τ} (wf : Workflow) (e : Event)
variable (w : World τ)

variable (host) in
/-- A run comes to a step with a defect, in the tree of files that it leaves behind: the step is
begun, and nothing more is done. -/
def Sequence.ComesTo (fault : Fault) : Prop :=
  ∃ (k : ℕ) (job : Job) (step : Step) (time : τ), wf.steps[k]? = some (job, step) ∧
    (partsOf (runDeeds c ws host wf e w))[k]? = some [.beginStep job.name step.name time] ∧
    step.defect? host (run c wf e ws host w).2.tree ws.place = some fault

/-- A run ends with a fault exactly if it comes to a step with this defect, or if the fault breaks
it off from outside. -/
lemma Sequence.run_eq_error_iff (fault : Fault) :
    (run c wf e ws host w).1 = .error fault ↔ ComesTo c ws host wf e w fault ∨
      host.BreaksOff fault w (run c wf e ws host w).2 := by
  obtain ⟨visits, hcourse, hjobs, -, hparts⟩ := run_visits c ws host wf e w
  have hheeds := run_heeds host c ws wf e w
  have houtside : fault.isOutside = true → ((run c wf e ws host w).1 = .error fault ↔
      host.BreaksOff fault w (run c wf e ws host w).2) :=
    fun h => faultOf_eq_some_iff.symm.trans (hheeds.outside fault h)
  constructor
  · intro herror
    have hcourse' := hcourse
    rw [herror] at hcourse'
    obtain ⟨before, v, rfl, hended⟩ := hcourse'.broken
    have hlast : (before ++ [v])[before.length]? = some v := by simp
    have hdefect := Visit.defect?_of_error c ws _ (congrArg Prod.fst hended)
    rw [hended] at hdefect
    rcases hdefect with ⟨hdefect, hpart⟩ | ⟨hfault, -⟩
    · refine Or.inl ⟨before.length, v.job, v.step, v.world.clock, hjobs.getElem? hlast, ?_, hdefect⟩
      rw [hparts, List.getElem?_map, hlast, Option.map_some, hpart]
    · exact Or.inr ((houtside hfault).mp herror)
  · rintro (⟨k, job, step, time, hstep, hpart, hdefect⟩ | hbreaks)
    · rw [hparts, List.getElem?_map] at hpart
      obtain ⟨v, hv, hpart⟩ := Option.map_eq_some_iff.mp hpart
      obtain ⟨fault', hended⟩ := Visit.error_of_part c ws _ hpart
      cases hstep.symm.trans (hjobs.getElem? hv)
      obtain ⟨hbroken, hw⟩ := hcourse.broken_of_error hv hended
      rw [hw] at hdefect
      rcases Visit.defect?_of_error c ws _ hended with ⟨hdefect', -⟩ | ⟨-, hnone⟩
      · cases hdefect'.symm.trans hdefect
        exact Progress.eq_error_of_broken hbroken
      · cases (hnone _ hpart).symm.trans hdefect
    · exact (houtside hbreaks.isOutside).mpr hbreaks

/-- A run that comes to a working directory that cannot be a place ends with a fault. -/
lemma Sequence.run_eq_error_of_directoryOf {k : ℕ} {job : Job} {step : Step} {fault : Fault}
    (hstep : wf.steps[k]? = some (job, step)) (haction : step.isAction = false)
    (hbegun : k < (partsOf (runDeeds c ws host wf e w)).length)
    (hplace : directoryOf ws.place step.cwd = .error fault) :
    (run c wf e ws host w).1 = .error fault := by
  obtain ⟨visits, hcourse, hjobs, -, hparts⟩ := run_visits c ws host wf e w
  rw [hparts, List.length_map] at hbegun
  have hv := List.getElem?_eq_getElem hbegun
  cases hstep.symm.trans (hjobs.getElem? hv)
  have hended : (visits[k].ended c ws (runVariables wf e ws.place) host).1 = .error fault :=
    Visit.error_of_directoryOf c ws _ haction hplace
  exact Progress.eq_error_of_broken (hcourse.broken_of_error hv hended).1

end Runs

/-- A run ends with a fault exactly if the last step that it comes to has this defect, or if the
fault breaks off a program that it asks for or a call of Git: the system refuses it, or the user
interrupts it.  Every working directory that cannot be a place is a defect, and for workflows that
are read from documents there is no other, but that the system may refuse to look at a place.  So
the run gives a result if no step has a defect and nothing is broken off, provided that the standard
streams take what it tells; if they do not, it gives none.  In a result there is an entry for every
step: whatever else is wrong with a step that was begun makes it a failure, and the steps after it
are skipped. -/
theorem run_returns_unless_defect [Timeline τ] (c : Console) (wf : Workflow) (e : Event)
    (ws : Workspace) (host : Host τ) (w : World τ) :
    let ended := Sequence.run c wf e ws host w
    (∀ fault, ended.1 = .error fault ↔
      Sequence.ComesTo c ws host wf e w fault ∨ host.BreaksOff fault w ended.2) ∧
    (∀ (k : ℕ) (job : Job) (step : Step) (fault : Fault), wf.steps[k]? = some (job, step) →
      step.isAction = false → k < (partsOf (Sequence.runDeeds c ws host wf e w)).length →
        Sequence.directoryOf ws.place step.cwd = .error fault → ended.1 = .error fault) ∧
    (∀ source text, Workflow.ofText source text = .ok wf → ∀ p ∈ wf.steps, ∀ t fault,
      p.2.defect? host t ws.place = some fault →
        Sequence.directoryOf ws.place p.2.cwd = .error fault ∨
          ∃ directory reason, Sequence.directoryOf ws.place p.2.cwd = .ok directory ∧
            host.hides t directory = some reason ∧ fault = .directoryHidden reason) ∧
    ((∀ p ∈ wf.steps, p.2.defect? host ended.2.tree ws.place = none) →
      (∀ fault, ¬host.BreaksOff fault w ended.2) → ∃ r, ended.1 = .ok r) ∧
    (∀ s : Streams,
      (RunM.Taken s (fun (_ : Streams) => Sequence.run c wf e ws) host w →
        @Sequence.run τ _ s c wf e ws host w = ended) ∧
      (¬RunM.Taken s (fun (_ : Streams) => Sequence.run c wf e ws) host w →
        ∃ fault, (@Sequence.run τ _ s c wf e ws host w).1 = .error fault)) ∧
    ∀ r, ended.1 = .ok r → ∀ (k : ℕ) (job : Job) (step : Step),
      wf.steps[k]? = some (job, step) → ∃ s, r.steps[k]? = some s ∧
        Entry host ws job step (partsOf (Sequence.runDeeds c ws host wf e w)) r.steps k s := by
  intro ended
  have hiff : ∀ fault, ended.1 = .error fault ↔
      Sequence.ComesTo c ws host wf e w fault ∨ host.BreaksOff fault w ended.2 :=
    Sequence.run_eq_error_iff c ws wf e w
  refine ⟨hiff, fun k job step fault hstep haction hbegun hplace =>
    Sequence.run_eq_error_of_directoryOf c ws wf e w hstep haction hbegun hplace, ?_, ?_, ?_, ?_⟩
  · intro source text hread p hp t fault hdefect
    exact Step.directoryOf_of_defect? (Workflow.shellWords?_of_ofText hread hp) hdefect
  · intro hnone hquiet
    cases hrun : ended.1 with
    | ok r => exact ⟨r, rfl⟩
    | error fault =>
      rcases (hiff fault).mp hrun with ⟨k, job, step, time, hstep, -, hdefect⟩ | hbreaks
      · cases (hnone _ (List.mem_of_getElem? hstep)).symm.trans hdefect
      · exact absurd hbreaks (hquiet fault)
  · intro s
    have hfollows : RunM.Follows s fun (_ : Streams) =>
        (Sequence.run c wf e ws : RunM τ RunResult) := Sequence.run_follows c ws wf e
    refine ⟨hfollows.eq_of_taken, fun hnot => ?_⟩
    obtain ⟨-, -, ⟨htaken, -⟩ | ⟨-, -, -, -, fault, -, -, hfault, -⟩⟩ :=
      hfollows.taken_or_breaksOff host w
    · exact absurd htaken hnot
    · exact ⟨fault, hfault⟩
  · intro r hr k job step hstep
    have hrun := Sequence.run_parts c ws host wf e w
    rw [show (Sequence.run c wf e ws host w).1 = .ok r from hr] at hrun
    exact hrun.entry hstep

/-- A host on which nothing is broken off. -/
lemma Host.not_breaksOff_scripted_nil (fault : Fault) (w w' : World Float) :
    ¬(Host.scripted []).BreaksOff fault w w' := by
  rintro (⟨n, -, -, h⟩ | ⟨call, -, reply, h, -⟩)
  · simp [Host.scripted, Command.breach?] at h
  · simp [Host.scripted] at h

/-- Building and packing gives a result, but not if the build writes what the streams reject. -/
theorem run_returns_unless_defect_of_build :
    (∃ r, (Sequence.run {} buildAndPack { kind := "push", branch := .text "main" }
      (Workspace.inPlace [] "/" "") (Host.scripted []) World.initial).1 = .ok r) ∧
    ∃ fault, rejectedBuild.1 = .error fault := by
  have hlaws := run_returns_unless_defect {} buildAndPack
    { kind := "push", branch := .text "main" } (Workspace.inPlace [] "/" "") (Host.scripted [])
    World.initial
  refine ⟨hlaws.2.2.2.1 (by decide +kernel) fun fault =>
    Host.not_breaksOff_scripted_nil fault _ _, ?_⟩
  exact ((run_returns_unless_defect {} buildAndPack { kind := "push", branch := .text "main" }
    (Workspace.inPlace [] "/" "") (writingHost [195, 169, 10]) World.initial).2.2.2.2.1
    asciiStreams).2 (by decide +kernel)

/-- A document in which the working directory of the first step is a list. -/
def misplacedText : String :=
  "\n".intercalate ["on: push", "jobs:", "  check:", "    steps:", "      - run: make",
    "        working-directory: [src]", "      - run: make test", ""]

/-- Files with this document. -/
def misplacedFiles : WorkflowFiles where
  tree := ⟨[(["ci.yml"], .file misplacedText.toUTF8.toList)]⟩
  script _ := []
  directory := []
  home := none

/-- What comes of a workflow in the root directory, on a host on which all programs succeed. -/
def runInRoot (wf : Workflow) : Except Fault RunResult :=
  (Sequence.run {} wf { kind := "push", branch := .text "main" } (Workspace.inPlace [] "/" "")
    (Host.scripted []) World.initial).1

/-- The value that breaks a run off because it is no place for a step, if one does. -/
def misplaced? : Except Fault RunResult → Option Value
  | .error (.directoryNotText v) => some v
  | _ => none

/-- A value that breaks a run off is that of its fault. -/
lemma eq_error_of_misplaced? {result : Except Fault RunResult} {v : Value}
    (h : misplaced? result = some v) : result = .error (.directoryNotText v) := by
  unfold misplaced? at h
  split at h
  · rw [Option.some.inj h]
  · cases h

/-- The workflow is accepted, but its first step breaks the run off: there is no entry that says
what is wrong, and none for the second step. -/
theorem run_crashes_of_misplaced_step :
    World.initial.tree.isDir (Workspace.inPlace [] "/" "").place = true ∧
      (∀ fault w w', ¬(Host.scripted []).BreaksOff fault w w') ∧
      ∃ wf v, misplacedFiles.load (Path.ofText "ci.yml") = .ok wf ∧
        runInRoot wf = .error (.directoryNotText v) := by
  have hmisplaced : ((misplacedFiles.load (Path.ofText "ci.yml")).toOption.bind
      fun wf => misplaced? (runInRoot wf)).isSome = true := by decide +kernel
  refine ⟨rfl, Host.not_breaksOff_scripted_nil, ?_⟩
  cases hload : misplacedFiles.load (Path.ofText "ci.yml") with
  | error reason =>
    rw [hload] at hmisplaced
    cases hmisplaced
  | ok wf =>
    rw [hload] at hmisplaced
    obtain ⟨v, hv⟩ := Option.isSome_iff_exists.mp hmisplaced
    exact ⟨wf, v, rfl, eq_error_of_misplaced? hv⟩

end CiRunner
