import CiRunner.CommandLine.Commands
import CiRunner.Proofs.Run.StepLog

/-!
# What commands begin with

A check and a run begin alike: they load the workflow and make the event.  On the way nothing is
started.  The files are looked at, Git may be asked about the checkout, and what cannot be done is
told and ends the program with the exit code one.

`Commands.Finds` says this of a search, and it passes from one search to the next.
-/

namespace CiRunner

open RunM

variable {τ α β : Type}

/-! ## Searches -/

/-- The actions that were added have a property, and no process was asked for. -/
structure World.AddsIdly (P : Action τ → Prop) (w w' : World τ) : Prop where
  /-- No process was asked for. -/
  attempts_eq : w'.attempts = w.attempts
  /-- What was done. -/
  adds : w.Adds P w'

instance (P : Action τ → Prop) : IsPreorder (World τ) (World.AddsIdly P) where
  refl w := ⟨rfl, Std.Refl.refl (r := World.Adds P) w⟩
  trans _ _ _ h h' := ⟨h'.attempts_eq.trans h.attempts_eq, trans_of (World.Adds P) h.adds h'.adds⟩

/-- Of the actions that were added something weaker may be said. -/
lemma World.AddsIdly.mono {P Q : Action τ → Prop} {w w' : World τ} (h : w.AddsIdly P w')
    (hPQ : ∀ a, P a → Q a) : w.AddsIdly Q w' :=
  ⟨h.attempts_eq, h.adds.mono hPQ⟩

/-- A call of Git asks for no process. -/
lemma Git.call_addsIdly (host : Host τ) (args : List String) (directory : Option String) :
    Leads host (World.AddsIdly fun a => a.isGit = true) (Git.call args directory).run := by
  intro w
  refine ⟨?_, Git.call_adds_git host args directory w⟩
  rw [Git.call_eq]
  cases host.git w.gitCalls args with
  | none => rfl
  | some reply => rfl

/-- An action asks Git, or it tells that something cannot be done. -/
def Action.IsInquiry (a : Action τ) : Prop :=
  a.isGit = true ∨
    ∃ title message details suggestion, a = .tell (Console.error title message details suggestion)

/-- By an inquiry no process and no run is started. -/
lemma Action.IsInquiry.startsNothing {a : Action τ} (h : a.IsInquiry) :
    a.isSpawn = false ∧ ∀ name e steps, a ≠ .tell (Console.runStarted name e steps) := by
  rcases h with hgit | ⟨title, message, details, suggestion, rfl⟩
  · refine ⟨(Action.kinds_of_isGit hgit).2.2, fun name e steps => ?_⟩
    rintro rfl
    cases hgit
  · refine ⟨rfl, fun name e steps heq => ?_⟩
    have hstream : Stream.err = Stream.out := congrArg Message.stream (Action.tell.inj heq)
    cases hstream

namespace Commands

/-- One computation after another: a fault and an exit of the first end both. -/
lemma bind_run_apply {β : Type} (m : CommandM τ α) (f : α → CommandM τ β) (host : Host τ)
    (w : World τ) :
    (m >>= f).run host w =
      match m.run host w with
      | (.ok (.ok a), w') => (f a).run host w'
      | (.ok (.error exit), w') => (.ok (.error exit), w')
      | (.error fault, w') => (.error fault, w') := by
  rw [ExceptT.run_bind, RunM.bind_apply]
  rcases m.run host w with ⟨_ | _ | _, _⟩ <;> rfl

/-- What a search comes to: it finds something after nothing but questions to Git, or it ends the
program with the exit code one, or it is broken off. -/
inductive Finds (w : World τ) (good : α → Prop) : Except Fault (Except Exit α) × World τ → Prop
  /-- Something is found. -/
  | found {a : α} {w' : World τ} (hlog : w.AddsIdly (fun b => b.isGit = true) w') (h : good a) :
      Finds w good (.ok (.ok a), w')
  /-- The program is ended. -/
  | refused {exit : Exit} {w' : World τ} (hlog : w.AddsIdly Action.IsInquiry w')
      (hcode : exit.toNat = 1) : Finds w good (.ok (.error exit), w')
  /-- There is a fault. -/
  | broken {fault : Fault} {w' : World τ} (hlog : w.AddsIdly Action.IsInquiry w') :
      Finds w good (.error fault, w')

namespace Finds

variable {host : Host τ} {w : World τ} {good : α → Prop} {fine : β → Prop}

/-- What is there already is found. -/
lemma pure {a : α} (h : good a) : Finds w good ((Pure.pure a : CommandM τ α).run host w) :=
  .found (Std.Refl.refl (r := World.AddsIdly _) w) h

/-- The program may be ended without a message. -/
lemma throw {exit : Exit} (hcode : exit.toNat = 1) :
    Finds w good ((MonadExcept.throw exit : CommandM τ α).run host w) :=
  .refused (Std.Refl.refl (r := World.AddsIdly _) w) hcode

/-- The program is ended after a message. -/
lemma refuse (title message : String) (details : List String) (suggestion : Option String) :
    Finds w good
      ((Commands.refuse title message details suggestion : CommandM τ α).run host w) := by
  have htold : (Action.tell (Console.error title message details suggestion) :
      Action τ).IsInquiry := Or.inr ⟨title, message, details, suggestion, rfl⟩
  have hlog : w.AddsIdly Action.IsInquiry
      (w.did [.tell (Console.error title message details suggestion)]) :=
    ⟨rfl, _, World.did_actions .., List.forall_mem_singleton.mpr htold⟩
  exact .refused hlog rfl

/-- What cannot end the program may ask Git. -/
lemma lift {body : RunM τ α} (hbody : Leads host (World.AddsIdly fun a => a.isGit = true) body)
    (hgood : ∀ a w', body host w = (.ok a, w') → good a) :
    Finds w good ((Commands.host body).run host w) := by
  have hlog := hbody w
  rw [Commands.host, ExceptT.run_lift, map_apply]
  rcases hended : body host w with ⟨fault | a, w'⟩
  all_goals rw [hended] at hlog
  · exact .broken (hlog.mono fun _ hgit => Or.inl hgit)
  · exact .found hlog (hgood a w' hended)

/-- One search after another. -/
lemma bind {m : CommandM τ α} {f : α → CommandM τ β} (hm : Finds w good (m.run host w))
    (hf : ∀ a w', good a → Finds w' fine ((f a).run host w')) :
    Finds w fine ((m >>= f).run host w) := by
  rw [bind_run_apply]
  generalize m.run host w = ended at hm ⊢
  cases hm with
  | refused hlog hcode => exact .refused hlog hcode
  | broken hlog => exact .broken hlog
  | @found a w' hgit hgood =>
    have hfirst : w.AddsIdly Action.IsInquiry w' := hgit.mono fun _ h => Or.inl h
    have hnext := hf a w' hgood
    dsimp only
    generalize (f a).run host w' = last at hnext ⊢
    cases hnext with
    | found hlog h => exact .found (trans_of (World.AddsIdly _) hgit hlog) h
    | refused hlog hcode => exact .refused (trans_of (World.AddsIdly _) hfirst hlog) hcode
    | broken hlog => exact .broken (trans_of (World.AddsIdly _) hfirst hlog)

end Finds

end Commands

/-! ## The workflow and the event -/

/-- The branch of an event that a checkout stands for is a text. -/
lemma Event.branch_of_ofCheckout {kind root : String} {branch sha : Option String} {host : Host τ}
    {e : Event} {w w' : World τ}
    (h : Event.ofCheckout kind branch sha root host w = (.ok (.ok e), w')) :
    ∃ name, e.branch = .text name := by
  unfold Event.ofCheckout at h
  by_cases hkind : eventKinds.contains kind = false
  · rw [if_pos hkind] at h
    cases h
  rw [if_neg hkind] at h
  obtain ⟨here, w₁, -, h⟩ := bind_eq_ok_iff.mp h
  cases hbranch : branch.or here with
  | none =>
    rw [hbranch] at h
    cases h
  | some name =>
    rw [hbranch] at h
    cases sha with
    | some sha =>
      cases h
      exact ⟨name, rfl⟩
    | none =>
      obtain ⟨commit, w₂, -, h⟩ := bind_eq_ok_iff.mp h
      cases h
      exact ⟨name, rfl⟩

namespace Commands

/-- What event a checkout stands for is found out by asking Git. -/
lemma ofCheckout_leads {host : Host τ} {R : World τ → World τ → Prop} [IsPreorder _ R]
    (hgit : ∀ args, Leads host R (Git.call args (some ".")).run) (kind : String)
    (branch sha : Option String) :
    Leads host R (Event.ofCheckout kind branch sha "." : RunM τ (Except EventError Event)) := by
  have hhere : Leads host R (Event.branchHere "." : RunM τ (Option String)) := by
    refine (Leads.run_bind (hgit _) fun _ => Leads.pure _).bind fun answer => ?_
    split <;> exact Leads.pure _
  have hask : Leads host R (Event.ask (Git.headCommit (some ".")) : RunM τ (Option String)) := by
    refine (hgit _).bind fun answer => ?_
    split <;> exact Leads.pure _
  unfold Event.ofCheckout
  split
  · exact Leads.pure _
  refine hhere.bind fun here => ?_
  split
  · exact Leads.pure _
  · cases sha with
    | some sha => exact Leads.pure _
    | none => exact hask.bind fun _ => Leads.pure _

variable (workflow : Option String) (kind : String) (branch sha : Option String) (host : Host τ)
variable (w : World τ)

/-- A workflow file is searched for among the files. -/
lemma findFile_finds :
    Finds w (fun _ => True) ((findFile workflow : CommandM τ Path).run host w) := by
  have honly : ∀ files w',
      Finds w' (fun _ => True) ((findOnly files : CommandM τ Path).run host w') := by
    intro files w'
    unfold findOnly
    split
    · exact .refuse ..
    · exact .pure trivial
    · exact .refuse ..
  refine (Finds.lift (fun u => Std.Refl.refl u) fun _ _ _ => trivial).bind fun files w' _ => ?_
  split
  · exact honly files w'
  · exact honly files w'
  · split
    · exact .pure trivial
    · exact .refuse ..

/-- A workflow is loaded from the files. -/
lemma loadWorkflow_finds :
    Finds w (fun _ => True) ((loadWorkflow workflow : CommandM τ Workflow).run host w) := by
  refine (findFile_finds workflow host w).bind fun file w' _ => ?_
  refine (Finds.lift (fun u => Std.Refl.refl u) fun _ _ _ => trivial).bind fun files w'' _ => ?_
  split
  · exact .pure trivial
  · exact .refuse ..
  · exact .throw rfl

/-- The event is made by asking Git, and its branch is a text. -/
lemma makeEvent_finds :
    Finds w (fun e => ∃ name, e.branch = .text name)
      ((makeEvent kind branch sha : CommandM τ Event).run host w) := by
  have hask : Leads host (World.AddsIdly fun a => a.isGit = true)
      (Event.ofCheckout kind branch sha "." : RunM τ (Except EventError Event)) :=
    ofCheckout_leads (fun args => Git.call_addsIdly host args _) kind branch sha
  have hfound : Finds w (fun answer => ∀ e, answer = .ok e → ∃ name, e.branch = .text name)
      ((Commands.host (Event.ofCheckout kind branch sha ".") :
        CommandM τ (Except EventError Event)).run host w) := by
    refine .lift hask fun answer w' hended e he => ?_
    rw [he] at hended
    exact Event.branch_of_ofCheckout hended
  refine hfound.bind fun answer w' hanswer => ?_
  cases answer with
  | ok e => exact .pure (hanswer e rfl)
  | error reason => exact .refuse ..

/-- Loads the workflow and makes the event, with which a check and a run begin. -/
def prepare (workflow : Option String) (kind : String) (branch sha : Option String) :
    CommandM τ (Workflow × Event) := do
  let wf ← loadWorkflow workflow
  let e ← makeEvent kind branch sha
  return (wf, e)

/-- The workflow is loaded and the event is made by asking Git. -/
lemma prepare_finds :
    Finds w (fun found => ∃ name, found.2.branch = .text name)
      ((prepare workflow kind branch sha : CommandM τ (Workflow × Event)).run host w) := by
  refine (loadWorkflow_finds workflow host w).bind fun wf w₁ _ => ?_
  exact (makeEvent_finds kind branch sha host w₁).bind fun e w₂ he => .pure he

/-- A command that loads the workflow and makes the event first does what comes of that. -/
lemma run_of_prepare (f : Workflow → Event → CommandM τ β) :
    (loadWorkflow workflow >>= fun wf => makeEvent kind branch sha >>= f wf).run host w =
      match (prepare workflow kind branch sha).run host w with
      | (.ok (.ok found), w') => (f found.1 found.2).run host w'
      | (.ok (.error exit), w') => (.ok (.error exit), w')
      | (.error fault, w') => (.error fault, w') := by
  have hprepare : (loadWorkflow workflow >>= fun wf => makeEvent kind branch sha >>= f wf) =
      prepare workflow kind branch sha >>= fun found => f found.1 found.2 := by
    simp [prepare]
  rw [hprepare, bind_run_apply]
  rcases (prepare workflow kind branch sha).run host w with ⟨_ | _ | _, _⟩ <;> rfl

end Commands

end CiRunner
