import CiRunner.Proofs.Run.Faults
import CiRunner.Proofs.Run.GitCalls
import CiRunner.Proofs.Success

/-!
# The clones of an isolated run

All steps of an isolated run share one working tree, and every checkout among them clones into it.
Git refuses to clone into a directory that is filled already.  So the first checkout of a run can
succeed, and no later one can, in whichever job it is.
-/

namespace CiRunner

open RunM

variable {τ : Type}

/-! ## Clones -/

namespace GitCall

/-- Whether a call asks for a clone. -/
def isClone (call : GitCall) : Bool := call.args.head? == some "clone"

/-- A call asks for a clone into a directory. -/
def ClonesInto (call : GitCall) (directory : String) : Prop :=
  call.args.head? = some "clone" ∧ call.args.getLast? = some directory

/-- What clones into some directory is a clone. -/
lemma ClonesInto.isClone {call : GitCall} {directory : String} (h : call.ClonesInto directory) :
    call.isClone = true :=
  beq_iff_eq.mpr h.1

/-- What is said of every two clones into one directory concerns clones alone. -/
lemma pairwise_filter_isClone {R : GitCall → GitCall → Prop} {calls : List GitCall} :
    (calls.filter isClone).Pairwise (fun a b => ∀ directory, a.ClonesInto directory →
        b.ClonesInto directory → R a b) ↔
      calls.Pairwise fun a b => ∀ directory, a.ClonesInto directory →
        b.ClonesInto directory → R a b := by
  rw [List.pairwise_filter]
  refine List.Pairwise.iff fun a b => ⟨fun hR directory ha hb => ?_, fun hR _ _ => hR⟩
  exact hR ha.isClone hb.isClone directory ha hb

end GitCall

/-- A clone into a directory is asked for only while no earlier one into it has succeeded. -/
def Host.ClonesOnce (host : Host τ) (calls : List GitCall) : Prop :=
  calls.Pairwise fun earlier later => ∀ directory, earlier.ClonesInto directory →
    later.ClonesInto directory → ¬host.Grants earlier

/-- Git refuses to clone into a directory into which it has cloned before. -/
def Host.RefusesFilled (host : Host τ) (calls : List GitCall) : Prop :=
  calls.Pairwise fun earlier later => ∀ directory, earlier.ClonesInto directory →
    later.ClonesInto directory → host.Grants earlier → ¬host.Grants later

namespace Host

variable {host : Host τ} {calls calls' : List GitCall}
variable (h : calls.filter GitCall.isClone = calls'.filter GitCall.isClone)
include h

/-- Only the clones among the calls matter. -/
lemma clonesOnce_congr : host.ClonesOnce calls ↔ host.ClonesOnce calls' := by
  rw [ClonesOnce, ClonesOnce, ← GitCall.pairwise_filter_isClone, h,
    GitCall.pairwise_filter_isClone]

/-- Only the clones among the calls matter. -/
lemma refusesFilled_congr : host.RefusesFilled calls ↔ host.RefusesFilled calls' := by
  rw [RefusesFilled, RefusesFilled, ← GitCall.pairwise_filter_isClone, h,
    GitCall.pairwise_filter_isClone]

omit h in
/-- A clone after one that has succeeded. -/
lemma not_clonesOnce {a b : GitCall} (hcalls : [a, b].Sublist calls) (hgrants : host.Grants a)
    {directory : String} (ha : a.ClonesInto directory) (hb : b.ClonesInto directory) :
    ¬host.ClonesOnce calls :=
  fun honce => List.pairwise_pair.mp (honce.sublist hcalls) directory ha hb hgrants

end Host

/-- The arguments with which the source of an isolated working tree is cloned. -/
def Workspace.cloneArgs (ws : Workspace) : List String :=
  ["clone", "--no-checkout", "--quiet", ws.source, ws.place.text]

/-! ## One checkout -/

/-- An action that is no clone. -/
def Action.IsNoClone (a : Action τ) : Prop :=
  ∀ args directory, a = .git args directory → args.head? ≠ some "clone"

namespace Checkout

/-- What is left of a checkout in an isolated working tree after the clone. -/
def afterClone (ws : Workspace) (s : Step) : RunM τ (Except String String) := do
  match ← (Git.checkout (reference ws s) ws.place.text).run with
  | .ok () => return .ok ("checked out " ++ reference ws s ++ " from " ++ ws.source ++ label s)
  | .error e => return .error e.message

/-- A checkout in an isolated working tree begins with a clone. -/
lemma perform_isolated {ws : Workspace} (hi : ws.isolated = true) (s : Step) (host : Host τ)
    (w : World τ) :
    perform ws s host w =
      match (Git.call ws.cloneArgs none).run host w with
      | (.ok (.ok _), w') => afterClone ws s host w'
      | (.ok (.error e), w') => (.ok (.error e.message), w')
      | (.error fault, w') => (.error fault, w') := by
  simp only [perform, hi, if_true, clone, Git.clone, ExceptT.run_bind, bind_apply]
  unfold Workspace.cloneArgs
  rcases (Git.call _ none).run host w with ⟨_ | _ | _, _⟩
  · rfl
  · rfl
  · simp only [afterClone, bind_apply]
    rfl

/-- After the clone of a checkout there is no other one. -/
lemma afterClone_counts (ws : Workspace) (s : Step) (host : Host τ) :
    Leads host (World.Counts Action.IsNoClone) (afterClone ws s) := by
  have hcall : ∀ name args directory, name ≠ "clone" →
      Leads host (World.Counts Action.IsNoClone) (Git.call (name :: args) directory).run := by
    intro name args directory hname
    refine Git.call_counts ?_
    rintro args' directory' ⟨⟩
    simpa using hname
  have hcheckout : Leads host (World.Counts Action.IsNoClone)
      (Git.checkout (reference ws s) ws.place.text).run :=
    Git.checkout_ends (Q := fun _ => World.Counts Action.IsNoClone) (hcall _ _ _ (by decide))
      (hcall _ _ _ (by decide)) (hcall _ _ _ (by decide))
  refine hcheckout.bind fun answer => ?_
  cases answer with
  | ok _ => exact Leads.pure _
  | error e => exact Leads.pure _

/-- The first call of a checkout in an isolated working tree is a clone, and no other one is.  If
the checkout is done, Git has granted the clone. -/
lemma calls_perform {ws : Workspace} (hi : ws.isolated = true) (s : Step) (host : Host τ)
    (w : World τ) :
    let ended := perform ws s host w
    ∃ later, w.calls ended.2 = ⟨w.gitCalls, ws.cloneArgs⟩ :: later ∧
      (∀ call ∈ later, call.isClone = false) ∧
      ∀ done, ended.1 = .ok (.ok done) → host.Grants ⟨w.gitCalls, ws.cloneArgs⟩ := by
  intro ended
  obtain ⟨hcalls, hgrants⟩ := Git.calls_call ws.cloneArgs none host w
  have hcounts : World.Counts (fun _ => True) w ((Git.call ws.cloneArgs none).run host w).2 :=
    Git.call_counts trivial w
  have hended : ended = _ := perform_isolated hi s host w
  rcases hcall : (Git.call ws.cloneArgs none).run host w with ⟨fault | (e | answer), w'⟩
  all_goals
    rw [hcall] at hended hcalls hgrants hcounts
    dsimp only at hended hcalls hgrants hcounts
    rw [hended]
  · exact ⟨[], hcalls, nofun, nofun⟩
  · exact ⟨[], hcalls, nofun, nofun⟩
  · have hafter := afterClone_counts ws s host w'
    refine ⟨w'.calls (afterClone ws s host w').2, ?_, fun call hcall => ?_,
      fun _ _ => hgrants answer rfl⟩
    · rw [hcounts.calls_trans hafter, hcalls, List.singleton_append]
    · obtain ⟨directory, hnone⟩ := hafter.of_mem_calls hcall
      exact beq_eq_false_iff_ne.mpr (hnone call.args directory rfl)

end Checkout

/-- The action of a checkout in an isolated working tree makes the calls of the checkout, and if it
succeeds, Git has granted the clone. -/
lemma Sequence.calls_runAction {ws : Workspace} (hi : ws.isolated = true) (job : Job) {step : Step}
    (hc : Checkout.isCheckout step = true) (host : Host τ) (w : World τ) :
    let ended := runAction ws job step host w
    ∃ later, w.calls ended.2 = ⟨w.gitCalls, ws.cloneArgs⟩ :: later ∧
      (∀ call ∈ later, call.isClone = false) ∧
      (ended.1 = .ok .success → host.Grants ⟨w.gitCalls, ws.cloneArgs⟩) := by
  obtain ⟨later, hcalls, hlater, hgrants⟩ := Checkout.calls_perform hi step host w
  have hcounts : World.Counts (fun _ => True) w (Checkout.perform ws step host w).2 :=
    Checkout.perform_leads (fun _ _ => Git.call_counts trivial) w
  rw [runAction, if_pos hc, bind_apply]
  rcases hperform : Checkout.perform ws step host w with ⟨fault | (message | done), w'⟩
  all_goals rw [hperform] at hcalls hgrants hcounts
  · exact ⟨later, hcalls, hlater, nofun⟩
  · exact ⟨later, hcalls, hlater, nofun⟩
  · -- what was done is told
    have htold : World.Counts (fun a => a.isGit = false) w'
        (w'.did [.tell (Console.info done)]) :=
      World.counts_did (by simp [Action.isGit]) (by simp [Action.isGit]) rfl rfl
    refine ⟨later, ?_, hlater, fun _ => hgrants done rfl⟩
    refine (hcounts.calls_trans htold).trans ?_
    rw [hcalls, htold.calls_eq_nil, List.append_nil]

/-- A checkout is an action. -/
lemma Checkout.isAction_of_isCheckout {s : Step} (h : isCheckout s = true) : s.isAction = true := by
  unfold isCheckout at h
  unfold Step.isAction
  cases huses : s.uses with
  | none => simp [huses] at h
  | some action => rfl

/-! ## The clones of a course -/

section Course

variable [Timeline τ] (c : Console) (ws : Workspace) (base : Environment) (host : Host τ)

namespace Visit

variable (v : Visit τ)

/-- The calls of Git that the step makes. -/
def calls : List GitCall := v.world.calls (v.ended c ws base host).2

/-- The call with which a checkout in an isolated working tree begins. -/
def clone : GitCall := ⟨v.world.gitCalls, ws.cloneArgs⟩

/-- Whether the step is a checkout. -/
def isCheckout : Bool := Checkout.isCheckout v.step

/-- A step only counts the calls that it makes. -/
lemma ended_counts : World.Counts (fun _ => True) v.world (v.ended c ws base host).2 :=
  Sequence.runStep_ends ((Sequence.remarks_counts fun _ _ => trivial).reports c) ws base v.job
    (Sequence.runBody_counts (fun _ _ => trivial) c ws base v.job fun _ _ _ => trivial) v.deadline
    v.world

/-- The calls of a step are those of its body. -/
lemma calls_eq : v.calls c ws base host = (v.opened c).calls (v.body c ws base host).2 := by
  have hbody : World.Counts (fun _ => True) (v.opened c) (v.body c ws base host).2 :=
    Sequence.runBody_counts (fun _ _ => trivial) c ws base v.job (fun _ _ _ => trivial) v.limit
      (v.opened c)
  -- the marks of the step are no calls
  have hopened : World.Counts (fun a => a.isGit = false) v.world (v.opened c) :=
    World.counts_did (v := v.world) (by simp [Action.isGit]) (by simp [Action.isGit]) rfl rfl
  have hclosed : World.Counts (fun a => a.isGit = false) (v.body c ws base host).2
      (v.ended c ws base host).2 := by
    rcases v.ended_cases c ws base host with ⟨e, -, -, h⟩ | ⟨outcome, r, -, -, -, h⟩
    · rw [h]
      exact Std.Refl.refl _
    · rw [h]
      exact World.counts_did (v := (v.body c ws base host).2) (by simp [Action.isGit])
        (by simp [Action.isGit]) rfl rfl
  have hrest : World.Counts (fun _ => True) (v.opened c) (v.ended c ws base host).2 :=
    trans_of (World.Counts _) hbody (hclosed.mono fun _ _ => trivial)
  rw [calls, hopened.calls_trans hrest, hbody.calls_trans hclosed, hopened.calls_eq_nil,
    hclosed.calls_eq_nil, List.append_nil, List.nil_append]

/-- A step that is no checkout calls no Git. -/
lemma calls_of_not_isCheckout (h : v.isCheckout = false) : v.calls c ws base host = [] := by
  have hbody : World.Counts (fun a => a.isGit = false) (v.opened c) (v.body c ws base host).2 :=
    Sequence.runBody_counts (fun _ ha => ha) c ws base v.job
      (fun hc => absurd hc (Bool.eq_false_iff.mp h)) v.limit (v.opened c)
  rw [calls_eq]
  exact hbody.calls_eq_nil

/-- A checkout in an isolated working tree makes one clone, by its first call, and if it succeeds
Git has granted the clone. -/
lemma calls_of_isCheckout (hi : ws.isolated = true) (h : v.isCheckout = true) :
    ∃ later, v.calls c ws base host = v.clone ws :: later ∧
      (∀ call ∈ later, call.isClone = false) ∧
      ∀ r, (v.ended c ws base host).1 = .ok r → r.status = .success →
        host.Grants (v.clone ws) := by
  have hbody : v.body c ws base host = Sequence.runAction ws v.job v.step host (v.opened c) := by
    rw [body, Sequence.runBody, if_pos (Checkout.isAction_of_isCheckout h)]
  obtain ⟨later, hcalls, hlater, hgrants⟩ :=
    Sequence.calls_runAction hi v.job h host (v.opened c)
  refine ⟨later, ?_, hlater, fun r hr hstatus => ?_⟩
  · rw [calls_eq, hbody]
    exact hcalls
  · exact hgrants (hbody ▸ v.body_eq_success c ws base host hr hstatus)

end Visit

namespace Course

variable {c ws base host}
variable {w w' : World τ} {visits : List (Visit τ)} {progress : Progress}

/-- A course only counts the calls that its visits make. -/
lemma calls_eq (h : Course c ws base host w visits progress w') :
    World.Counts (fun _ => True) w w' ∧
      w.calls w' = visits.flatMap fun v => v.calls c ws base host := by
  induction h with
  | finished w => exact ⟨Std.Refl.refl w, World.Counts.calls_eq_nil (Std.Refl.refl w)⟩
  | @told w w' visits progress m h ih =>
    obtain ⟨hcounts, hcalls⟩ := ih
    have htold : World.Counts (fun a => a.isGit = false) w (w.did [.tell m]) :=
      World.counts_did (by simp [Action.isGit]) (by simp [Action.isGit]) rfl rfl
    refine ⟨trans_of (World.Counts _) (htold.mono fun _ _ => trivial) hcounts, ?_⟩
    rw [htold.calls_trans hcounts, htold.calls_eq_nil, hcalls, List.nil_append]
  | @success v r w₁ w' visits progress hrun hr hrest ih =>
    obtain ⟨hcounts, hcalls⟩ := ih
    have hended := v.ended_counts c ws base host
    rw [hrun] at hended
    refine ⟨trans_of (World.Counts _) hended hcounts, ?_⟩
    rw [hended.calls_trans hcounts, hcalls, List.flatMap_cons, Visit.calls, hrun]
  | @failure v r w' hrun hr =>
    have hended := v.ended_counts c ws base host
    rw [hrun] at hended
    refine ⟨hended, ?_⟩
    rw [List.flatMap_singleton, Visit.calls, hrun]
  | @fault v e w' hrun =>
    have hended := v.ended_counts c ws base host
    rw [hrun] at hended
    refine ⟨hended, ?_⟩
    rw [List.flatMap_singleton, Visit.calls, hrun]

/-- The clones of a course in an isolated working tree are those with which its checkouts begin. -/
lemma clones_eq (h : Course c ws base host w visits progress w') (hi : ws.isolated = true) :
    (w.calls w').filter GitCall.isClone =
      (visits.filter Visit.isCheckout).map (Visit.clone ws) := by
  rw [h.calls_eq.2, List.filter_flatMap]
  clear h
  induction visits with
  | nil => rfl
  | cons v rest ih =>
    rw [List.flatMap_cons, ih, List.filter_cons]
    by_cases hv : v.isCheckout = true
    · obtain ⟨later, hcalls, hlater, -⟩ := v.calls_of_isCheckout c ws base host hi hv
      have hnone : later.filter GitCall.isClone = [] :=
        List.filter_eq_nil_iff.mpr fun call hcall => by simp [hlater call hcall]
      have hclone : (v.clone ws).isClone = true := rfl
      rw [if_pos hv, hcalls, List.filter_cons_of_pos hclone, hnone]
      rfl
    · rw [if_neg hv, v.calls_of_not_isCheckout c ws base host (Bool.eq_false_iff.mpr hv)]
      rfl

/-- All visits before the last one are successes. -/
lemma pairwise_success (h : Course c ws base host w visits progress w') :
    visits.Pairwise fun v _ => ∃ r, (v.ended c ws base host).1 = .ok r ∧ r.status = .success := by
  induction h with
  | finished w => exact List.Pairwise.nil
  | told m h ih => exact ih
  | success hrun hr hrest ih =>
    exact List.pairwise_cons.mpr ⟨fun _ _ => ⟨_, by rw [hrun], hr⟩, ih⟩
  | failure hrun hr => exact List.pairwise_singleton ..
  | fault hrun => exact List.pairwise_singleton ..

/-- Of two checkouts in an isolated working tree the first one has cloned, and did so earlier. -/
lemma pairwise_clones (h : Course c ws base host w visits progress w') (hi : ws.isolated = true) :
    (visits.filter Visit.isCheckout).Pairwise fun u v =>
      host.Grants (u.clone ws) ∧ (u.clone ws).number < (v.clone ws).number := by
  have hnumbers : ((visits.filter Visit.isCheckout).map (Visit.clone ws)).Pairwise
      fun a b => a.number < b.number := by
    rw [← h.clones_eq hi]
    exact (callsFrom_pairwise w.gitCalls _).filter _
  rw [List.pairwise_map] at hnumbers
  have hgrants : (visits.filter Visit.isCheckout).Pairwise fun u _ => host.Grants (u.clone ws) := by
    refine List.pairwise_filter.mpr (h.pairwise_success.imp fun {u v} hu hcheckout _ => ?_)
    obtain ⟨r, hr, hstatus⟩ := hu
    obtain ⟨later, -, -, hgrant⟩ := u.calls_of_isCheckout c ws base host hi hcheckout
    exact hgrant r hr hstatus
  exact hgrants.and hnumbers

/-- What is said of every two clones into one directory is said of the clones of every two checkouts
in an isolated working tree. -/
lemma pairwise_iff (h : Course c ws base host w visits progress w') (hi : ws.isolated = true)
    (R : GitCall → GitCall → Prop) :
    (w.calls w').Pairwise (fun a b => ∀ directory, a.ClonesInto directory →
        b.ClonesInto directory → R a b) ↔
      (visits.filter Visit.isCheckout).Pairwise fun u v => R (u.clone ws) (v.clone ws) := by
  rw [← GitCall.pairwise_filter_isClone, h.clones_eq hi, List.pairwise_map]
  refine List.Pairwise.iff fun u v => ⟨fun hR => ?_, fun hR _ _ _ => hR⟩
  exact hR ws.place.text ⟨rfl, rfl⟩ ⟨rfl, rfl⟩

/-- In an isolated working tree it is cloned only once exactly if there is at most one checkout. -/
lemma clonesOnce_iff (h : Course c ws base host w visits progress w') (hi : ws.isolated = true) :
    host.ClonesOnce (w.calls w') ↔ visits.countP Visit.isCheckout ≤ 1 := by
  rw [Host.ClonesOnce, h.pairwise_iff hi fun a _ => ¬host.Grants a,
    List.countP_eq_length_filter]
  have hpairs := h.pairwise_clones hi
  generalize visits.filter Visit.isCheckout = checkouts at hpairs ⊢
  rcases checkouts with _ | ⟨u, _ | ⟨v, rest⟩⟩
  · simp
  · simp
  · -- the first of two checkouts has cloned before the second one
    have hgrants := ((List.pairwise_cons.mp hpairs).1 v List.mem_cons_self).1
    have hlength : ¬(u :: v :: rest).length ≤ 1 := by simp
    refine iff_of_false (fun hnone => ?_) hlength
    exact (List.pairwise_cons.mp hnone).1 v List.mem_cons_self hgrants

/-- Where Git refuses to clone into a filled directory, no checkout after another one succeeds. -/
lemma not_success_of_refusesFilled (h : Course c ws base host w visits progress w')
    (hi : ws.isolated = true) (hrefuses : host.RefusesFilled (w.calls w')) {i k : ℕ}
    {u v : Visit τ} (hik : i < k) (hu : visits[i]? = some u) (hv : visits[k]? = some v)
    (hcu : u.isCheckout = true) (hcv : v.isCheckout = true) {r : StepResult}
    (hr : (v.ended c ws base host).1 = .ok r) : r.status ≠ .success := by
  rw [Host.RefusesFilled, h.pairwise_iff hi fun a b => host.Grants a → ¬host.Grants b,
    List.pairwise_filter] at hrefuses
  have hpairs := List.pairwise_filter.mp (h.pairwise_clones hi)
  obtain ⟨hi', rfl⟩ := List.getElem?_eq_some_iff.mp hu
  obtain ⟨hk', rfl⟩ := List.getElem?_eq_some_iff.mp hv
  have hgrants := (List.pairwise_iff_getElem.mp hpairs i k hi' hk' hik hcu hcv).1
  have hrefused := List.pairwise_iff_getElem.mp hrefuses i k hi' hk' hik hcu hcv hgrants
  intro hstatus
  obtain ⟨later, -, -, hgrant⟩ := visits[k].calls_of_isCheckout c ws base host hi hcv
  exact hrefused (hgrant r hr hstatus)

end Course

end Course

/-- How many of the steps that were begun in a log are checkouts. -/
def Workflow.checkoutsBegun (wf : Workflow) (log : List (Action τ)) : ℕ :=
  (wf.steps.take (log.countP Action.isBegin)).countP fun p => Checkout.isCheckout p.2

/-- The visits among which checkouts are counted go through the steps of the jobs. -/
lemma OfJobs.countP_isCheckout {jobs : List Job} {visits : List (Visit τ)}
    (h : OfJobs jobs visits) :
    visits.countP Visit.isCheckout =
      ((stepsOf jobs).take visits.length).countP fun p => Checkout.isCheckout p.2 := by
  have htake := List.prefix_iff_eq_take.mp h.steps
  rw [List.length_map] at htake
  rw [← htake, List.countP_map]
  rfl

/-- The end of a step that came to one is marked with its result. -/
lemma StepLog.exists_endStep {host : Host τ} {ws : Workspace} {job : Job} {step : Step}
    {r : StepResult} {part : List (Action τ)} (h : StepLog host ws job step (some r) part) :
    ∃ stop, .endStep r stop ∈ part := by
  cases h with
  | @succeeded _ stop => exact ⟨stop, by simp⟩
  | @failed _ stop => exact ⟨stop, by simp⟩

/-- No checkout that comes after another one has succeeded. -/
def Workflow.OnlyFirstCheckout (wf : Workflow) (result : RunResult) : Prop :=
  ∀ (i k : ℕ) (p q : Job × Step) (s : StepResult), i < k → wf.steps[i]? = some p →
    wf.steps[k]? = some q → Checkout.isCheckout p.2 = true → Checkout.isCheckout q.2 = true →
      result.steps[k]? = some s → s.status ≠ .success

section Runs

variable [Timeline τ] (c : Console) (wf : Workflow) (e : Event) {ws : Workspace} (host : Host τ)
variable (w : World τ)

/-- A run in an isolated working tree clones with every checkout that it begins. -/
lemma Sequence.run_clones (hi : ws.isolated = true) :
    let ran := run c wf e ws host w
    ((w.calls ran.2).filter GitCall.isClone).map GitCall.args =
        List.replicate (wf.checkoutsBegun (w.added ran.2)) ws.cloneArgs ∧
      (host.ClonesOnce (w.calls ran.2) ↔ wf.checkoutsBegun (w.added ran.2) ≤ 1) := by
  intro ran
  obtain ⟨visits, hcourse, hjobs⟩ := run_course c ws host wf e w
  have hbegun : wf.checkoutsBegun (w.added ran.2) = visits.countP Visit.isCheckout := by
    rw [Workflow.checkoutsBegun, hcourse.countP_isBegin, hjobs.countP_isCheckout]
    rfl
  rw [hbegun]
  refine ⟨?_, hcourse.clonesOnce_iff hi⟩
  rw [hcourse.clones_eq hi, List.map_map, List.countP_eq_length_filter, List.eq_replicate_iff]
  refine ⟨by rw [List.length_map], fun args hargs => ?_⟩
  obtain ⟨v, -, rfl⟩ := List.mem_map.mp hargs
  rfl

/-- Where Git refuses to clone into a filled directory, only the first checkout of a run in an
isolated working tree can succeed. -/
lemma Sequence.run_onlyFirstCheckout (hi : ws.isolated = true) {result : RunResult}
    (hresult : (run c wf e ws host w).1 = .ok result)
    (hrefuses : host.RefusesFilled (w.calls (run c wf e ws host w).2)) :
    wf.OnlyFirstCheckout result := by
  intro i k p q s hik hp hq hcp hcq hs hstatus
  obtain ⟨visits, hcourse, hjobs, -, hparts⟩ := run_visits c ws host wf e w
  have hrun := run_parts c ws host wf e w
  rw [hresult] at hrun
  obtain ⟨job, step⟩ := q
  obtain ⟨s', hs', hentry⟩ := hrun.entry hq
  cases hs.symm.trans hs'
  cases hentry with
  | failure h => cases hstatus.symm.trans h
  | skipped h => cases hstatus.symm.trans h
  | @success part _ hpart hlog =>
    rw [hparts, List.getElem?_map] at hpart
    obtain ⟨v, hv, rfl⟩ := Option.map_eq_some_iff.mp hpart
    obtain ⟨stop, hend⟩ := hlog.exists_endStep
    have hended := (v.endStep_mem_part c ws _ host hend).1
    -- the earlier checkout was visited before this one
    obtain ⟨hk, -⟩ := List.getElem?_eq_some_iff.mp hv
    have hu := List.getElem?_eq_getElem (hik.trans hk)
    cases hp.symm.trans (hjobs.getElem? hu)
    cases hq.symm.trans (hjobs.getElem? hv)
    exact hcourse.not_success_of_refusesFilled hi hrefuses hik hu hv hcp hcq hended hstatus

end Runs

/-! ## Triggers -/

/-- An action that begins no step, clones nothing and makes no temporary directory. -/
structure Action.IsAside (a : Action τ) : Prop where
  /-- No step is begun. -/
  not_begin : a.isBegin = false
  /-- Nothing is cloned. -/
  noClone : a.IsNoClone
  /-- No temporary directory is made. -/
  not_make : ∀ place, a ≠ .makeTemporary place

/-- What surrounds a run begins no step, clones nothing and makes no temporary directory. -/
lemma Trigger.surrounds_isAside : Trigger.Surrounds (τ := τ) Action.IsAside where
  inside _ := ⟨rfl, by rintro _ _ ⟨⟩; decide, nofun⟩
  status _ := ⟨rfl, by rintro _ _ ⟨⟩; decide, nofun⟩
  tell _ := ⟨rfl, nofun, nofun⟩
  remove _ := ⟨rfl, nofun, nofun⟩

namespace World.Counts

variable {w w' : World τ} (h : World.Counts Action.IsAside w w')
include h

/-- Nothing is cloned aside. -/
lemma clones_eq_nil : (w.calls w').filter GitCall.isClone = [] := by
  refine List.filter_eq_nil_iff.mpr fun call hcall hclone => ?_
  obtain ⟨directory, haside⟩ := h.of_mem_calls hcall
  exact haside.noClone call.args directory rfl (beq_iff_eq.mp hclone)

/-- No step is begun aside. -/
lemma countP_isBegin : (w.added w').countP Action.isBegin = 0 :=
  List.countP_eq_zero.mpr fun a ha => by simp [(h.of_mem_added ha).not_begin]

/-- No temporary directory is made aside. -/
lemma not_mem_make (place : Location) : .makeTemporary place ∉ w.added w' :=
  fun hmem => (h.of_mem_added hmem).not_make place rfl

end World.Counts

/-! ## Isolated runs -/

section Isolated

variable [Timeline τ] {c : Console} {wf : Workflow} {e : Event} {o : RunOptions} {host : Host τ}

/-- A run makes no temporary directory. -/
lemma Sequence.run_not_mem_make (ws : Workspace) (w : World τ) (place : Location) :
    .makeTemporary place ∉ w.added (run c wf e ws host w).2 := by
  obtain ⟨-, log, hlog, hquiet⟩ := run_proceeds (T := host.Alters) c
    (fun _ _ step _ => Step.keepsTo_alters host ws step) e w
  rw [World.added_eq hlog]
  exact not_mem_makeTemporary hquiet

/-- An isolated trigger clones and begins what its run does, if there is one, and makes no temporary
directory but that of its run. -/
lemma Trigger.trigger_clones (c : Console) (wf : Workflow) (e : Event) {o : RunOptions}
    (ho : o.isolated = true) (host : Host τ) (w : World τ) :
    let ended := trigger c wf e o host w
    ((∀ result, ended.1 ≠ .ok (some result)) ∧ World.Counts Action.IsAside w ended.2) ∨
    ∃ place start,
      let ws := Workspace.isolatedIn place e (o.sourceOn host)
      let ran := Sequence.run c wf e ws host start
      ended.1 = ran.1.map some ∧
      (w.calls ended.2).filter GitCall.isClone = (start.calls ran.2).filter GitCall.isClone ∧
      (w.added ended.2).countP Action.isBegin = (start.added ran.2).countP Action.isBegin ∧
      ∀ directory, .makeTemporary directory ∈ w.added ended.2 → directory = place := by
  have hcases := trigger_isolated surrounds_isAside c wf e ho host w
  generalize trigger c wf e o host w = ended at hcases ⊢
  refine hcases.imp_right ?_
  rintro ⟨parent, w₁, hbefore, hresult, hafter⟩
  set place := Workspace.nextTemporary w₁ parent with hplace
  refine ⟨place, readied c w₁ parent (Workspace.isolatedIn place e (o.sourceOn host)), hresult, ?_⟩
  set ws := Workspace.isolatedIn place e (o.sourceOn host)
  have hready : World.Counts (fun a => a.isGit = false ∧ a.isBegin = false ∧
      ∀ directory, a = .makeTemporary directory → directory = place) w₁ (readied c w₁ parent ws) :=
    readied_counts c w₁ parent ws ⟨rfl, rfl, by rintro _ ⟨⟩; rfl⟩ fun _ => ⟨rfl, rfl, nofun⟩
  generalize readied c w₁ parent ws = start at hready hafter ⊢
  have hmake : ∀ directory,
      .makeTemporary directory ∉ start.added (Sequence.run c wf e ws host start).2 :=
    Sequence.run_not_mem_make ws start
  have hrun : World.Counts (fun _ => True) start (Sequence.run c wf e ws host start).2 :=
    Sequence.run_counts (fun _ _ => trivial) c ws e (fun _ _ _ _ _ _ _ => trivial) start
  generalize Sequence.run c wf e ws host start = ran at hrun hafter hmake ⊢
  -- the actions and the calls come in four parts: before, ready, the run, after
  have hrest : World.Counts (fun _ => True) start ended.2 :=
    trans_of (World.Counts _) hrun (hafter.mono fun _ _ => trivial)
  have hall : World.Counts (fun _ => True) w₁ ended.2 :=
    trans_of (World.Counts _) (hready.mono fun _ _ => trivial) hrest
  have hquiet : w₁.calls start = [] := (hready.mono fun _ ha => ha.1).calls_eq_nil
  have hnone : (w₁.added start).countP Action.isBegin = 0 :=
    List.countP_eq_zero.mpr fun a ha => by simp [(hready.of_mem_added ha).2.1]
  refine ⟨?_, ?_, fun directory hmem => ?_⟩
  · rw [hbefore.calls_trans hall, hready.calls_trans hrest, hrun.calls_trans hafter]
    simp only [hquiet, List.filter_append, hbefore.clones_eq_nil, hafter.clones_eq_nil,
      List.nil_append, List.append_nil]
  · rw [hbefore.added_trans hall, hready.added_trans hrest, hrun.added_trans hafter]
    simp only [List.countP_append, hbefore.countP_isBegin, hafter.countP_isBegin, hnone,
      Nat.zero_add, Nat.add_zero]
  · rw [hbefore.added_trans hall, hready.added_trans hrest, hrun.added_trans hafter] at hmem
    simp only [List.mem_append, hbefore.not_mem_make, hafter.not_mem_make, hmake, false_or,
      or_false] at hmem
    exact (hready.of_mem_added hmem).2.2 directory rfl

end Isolated

/-- An isolated run clones with every checkout that it begins, with the same arguments each time:
into the working tree that its temporary directory holds.  So it clones only while no earlier
clone into that place has succeeded exactly if it begins at most one checkout.  As Git refuses to
clone into a directory that is filled, no checkout after the first one succeeds, in whichever jobs
they are. -/
theorem isolated_run_clones_per_checkout [Timeline τ] (c : Console) (wf : Workflow) (e : Event)
    {o : RunOptions} (ho : o.isolated = true) (host : Host τ) (w : World τ) :
    let ended := Trigger.trigger c wf e o host w
    let log := w.added ended.2
    let calls := w.calls ended.2
    (∃ place : Location,
      (∀ directory, .makeTemporary directory ∈ log → place = directory ++ [Workspace.treeName]) ∧
      (calls.filter GitCall.isClone).map GitCall.args = List.replicate (wf.checkoutsBegun log)
        ["clone", "--no-checkout", "--quiet", o.sourceOn host, place.text]) ∧
    (host.ClonesOnce calls ↔ wf.checkoutsBegun log ≤ 1) ∧
    (host.RefusesFilled calls → ∀ result, ended.1 = .ok (some result) →
      wf.OnlyFirstCheckout result) := by
  intro ended log calls
  rcases Trigger.trigger_clones c wf e ho host w with
    ⟨hnone, haside⟩ | ⟨place, start, hresult, hclones, hbegun, hmake⟩
  · -- no step is begun
    have hclones : calls.filter GitCall.isClone = [] := haside.clones_eq_nil
    have hbegun : wf.checkoutsBegun log = 0 := by
      rw [Workflow.checkoutsBegun, show log.countP _ = 0 from haside.countP_isBegin]
      rfl
    refine ⟨⟨[], fun directory hmem => absurd hmem (haside.not_mem_make directory), ?_⟩, ?_,
      fun _ result hresult => absurd hresult (hnone result)⟩
    · rw [hclones, hbegun]
      rfl
    · have hempty : calls.filter GitCall.isClone = [].filter GitCall.isClone := hclones
      rw [Host.clonesOnce_congr hempty, hbegun]
      exact iff_of_true List.Pairwise.nil (Nat.zero_le 1)
  · set ws := Workspace.isolatedIn place e (o.sourceOn host) with hws
    have hbegun' : wf.checkoutsBegun log =
        wf.checkoutsBegun (start.added (Sequence.run c wf e ws host start).2) := by
      rw [Workflow.checkoutsBegun, Workflow.checkoutsBegun, ← hbegun]
    have hi : ws.isolated = true := rfl
    obtain ⟨hargs, hiff⟩ := Sequence.run_clones c wf e host start hi
    refine ⟨⟨ws.place, fun directory hmem => ?_, ?_⟩, ?_, fun hrefuses result hended => ?_⟩
    · rw [hmake directory hmem, hws]
      rfl
    · rw [hbegun', show calls.filter _ = _ from hclones]
      exact hargs
    · rw [hbegun', ← hiff]
      exact Host.clonesOnce_congr hclones
    · obtain ⟨r, hran, hsame⟩ := Success.map_eq_ok_iff.mp (hresult.symm.trans hended)
      cases hsame
      exact Sequence.run_onlyFirstCheckout c wf e host start rfl hran
        ((Host.refusesFilled_congr hclones).mp hrefuses)

/-- A workflow that checks out in each of two jobs. -/
def checkoutTwice : Workflow where
  name := "ci"
  jobs := [
    { name := "check", steps := [{ name := "Fetch", uses := some "actions/checkout@v4" }] },
    { name := "pack", steps := [{ name := "Fetch", uses := some "actions/checkout@v4" }] }]

/-- A host on which Git does what it is asked, but for a clone after the first checkout. -/
def fillingHost : Host Float :=
  { Host.scripted [] with
    git := fun n args => some { exitCode := if args.head? = some "clone" ∧ 2 < n then 128 else 0 } }

/-- What comes of the two checkouts in an isolated run. -/
def checkedOutTwice : Except Fault (Option RunResult) × World Float :=
  Trigger.trigger {} checkoutTwice { kind := "push", branch := .text "main" }
    { isolated := true, force := true } fillingHost .initial

/-- In both jobs it is cloned from the root into the same directory. -/
theorem isolated_run_clones_per_checkout_of_two :
    checkoutTwice.checkoutsBegun (World.initial.added checkedOutTwice.2) = 2 ∧
      ∃ place : Location, ((World.initial.calls checkedOutTwice.2).filter GitCall.isClone).map
        GitCall.args = List.replicate 2 ["clone", "--no-checkout", "--quiet", "/", place.text] := by
  have hbegun : checkoutTwice.checkoutsBegun (World.initial.added checkedOutTwice.2) = 2 := by
    decide +kernel
  obtain ⟨⟨place, -, hclones⟩, -⟩ := isolated_run_clones_per_checkout {} checkoutTwice
    { kind := "push", branch := .text "main" } (o := { isolated := true, force := true }) rfl
    fillingHost .initial
  refine ⟨hbegun, place, ?_⟩
  rw [← hbegun]
  exact hclones

/-- The clone of the second job comes after that of the first one has succeeded, so Git refuses it
and the second checkout fails. -/
theorem second_checkout_clones_again :
    ¬fillingHost.ClonesOnce (World.initial.calls checkedOutTwice.2) ∧
      (checkedOutTwice.1.toOption.bind fun result => result.map fun r => r.steps.map (·.status)) =
        some [.success, .failure] := by
  set args := ["clone", "--no-checkout", "--quiet", "/", "/tmp/branchci_1/repo"]
  have hcalls : [⟨1, args⟩, ⟨3, args⟩].Sublist (World.initial.calls checkedOutTwice.2) := by
    decide +kernel
  have hgrants : fillingHost.Grants ⟨1, args⟩ := ⟨_, rfl, rfl, rfl⟩
  refine ⟨Host.not_clonesOnce hcalls hgrants ⟨rfl, rfl⟩ ⟨rfl, rfl⟩, ?_⟩
  decide +kernel

end CiRunner
