import CiRunner.Proofs.Run.Course
import CiRunner.Proofs.Run.Isolation

/-!
# The calls of Git

A world counts the calls of Git, and a host answers a call by how many came before it.  So the calls
in a log have numbers, and whether a call succeeded can be told from the log and the host alone.

`World.Counts` says which actions a computation adds and that it counts the calls among them.  It is
shown of the primitive steps here and lifted to whole runs: whatever holds of all other actions and
of the calls that the checkouts of a workflow can make holds of everything that a run does.
-/

namespace CiRunner

open RunM

variable {τ α : Type}

/-! ## Numbered calls -/

/-- A call of Git. -/
structure GitCall where
  /-- How many calls came before it. -/
  number : ℕ
  /-- Its arguments. -/
  args : List String
  deriving DecidableEq, Repr

/-- Git does what a call asks for. -/
def Host.Grants (host : Host τ) (call : GitCall) : Prop :=
  ∃ reply, host.git call.number call.args = some reply ∧ Git.breach? reply = none ∧
    reply.exitCode = 0

/-- The calls of Git in a log, when so many came before. -/
def callsFrom : ℕ → List (Action τ) → List GitCall
  | _, [] => []
  | n, .git args _ :: log => ⟨n, args⟩ :: callsFrom (n + 1) log
  | n, _ :: log => callsFrom n log

/-- A call is counted and all other actions are not. -/
lemma callsFrom_cons (n : ℕ) (a : Action τ) (log : List (Action τ)) :
    callsFrom n (a :: log) = callsFrom n [a] ++ callsFrom (n + [a].countP Action.isGit) log := by
  cases a <;> rfl

/-- The calls in one log after another. -/
lemma callsFrom_append (n : ℕ) (log more : List (Action τ)) :
    callsFrom n (log ++ more) =
      callsFrom n log ++ callsFrom (n + log.countP Action.isGit) more := by
  induction log generalizing n with
  | nil => rfl
  | cons a log ih =>
    rw [List.cons_append, callsFrom_cons, ih, callsFrom_cons n a log, List.append_assoc,
      Nat.add_assoc, ← List.countP_append, List.singleton_append]

/-- A call that is found in a log was made, after those that came before the log. -/
lemma of_mem_callsFrom {n : ℕ} {log : List (Action τ)} {call : GitCall}
    (h : call ∈ callsFrom n log) :
    n ≤ call.number ∧ ∃ directory, .git call.args directory ∈ log := by
  induction log generalizing n with
  | nil => cases h
  | cons a log ih =>
    rw [callsFrom_cons, List.mem_append] at h
    rcases h with h | h
    · cases a with
      | git args directory =>
        obtain rfl := List.mem_singleton.mp h
        exact ⟨le_rfl, directory, List.mem_cons_self⟩
      | _ => cases h
    · obtain ⟨hle, directory, hmem⟩ := ih h
      exact ⟨(Nat.le_add_right ..).trans hle, directory, List.mem_cons_of_mem _ hmem⟩

/-- Calls are numbered in their order. -/
lemma callsFrom_pairwise (n : ℕ) (log : List (Action τ)) :
    (callsFrom n log).Pairwise fun a b => a.number < b.number := by
  induction log generalizing n with
  | nil => exact List.Pairwise.nil
  | cons a log ih =>
    cases a with
    | git args directory =>
      refine List.pairwise_cons.mpr ⟨fun call hcall => ?_, ih (n + 1)⟩
      exact (of_mem_callsFrom hcall).1
    | _ => exact ih n

/-! ## Counting -/

namespace World

/-- Actions that all have a property were added to a world, and the calls of Git among them were
counted. -/
def Counts (P : Action τ → Prop) (w w' : World τ) : Prop :=
  ∃ log, w'.actions.toList = w.actions.toList ++ log ∧
    w'.gitCalls = w.gitCalls + log.countP Action.isGit ∧ ∀ a ∈ log, P a

/-- The calls of Git between two worlds. -/
def calls (w w' : World τ) : List GitCall := callsFrom w.gitCalls (w.added w')

/-- The calls are those among the actions that were added. -/
lemma calls_eq {w w' : World τ} {log : List (Action τ)}
    (h : w'.actions.toList = w.actions.toList ++ log) : w.calls w' = callsFrom w.gitCalls log := by
  rw [calls, added_eq h]

instance (P : Action τ → Prop) : IsPreorder (World τ) (World.Counts P) where
  refl w := ⟨[], by simp, by simp, by simp⟩
  trans := by
    rintro u v w ⟨log, hlog, hcount, h⟩ ⟨more, hmore, hcount', h'⟩
    refine ⟨log ++ more, by rw [hmore, hlog, List.append_assoc], ?_, fun a ha => ?_⟩
    · rw [hcount', hcount, List.countP_append, Nat.add_assoc]
    · exact (List.mem_append.mp ha).elim (h a) (h' a)

namespace Counts

variable {P Q : Action τ → Prop} {u v w : World τ}

/-- Where calls are counted the actions are added. -/
lemma adds (h : Counts P u v) : u.Adds P v := by
  obtain ⟨log, hlog, -, hall⟩ := h
  exact ⟨log, hlog, hall⟩

/-- The actions that were added have the property. -/
lemma of_mem_added (h : Counts P u v) {a : Action τ} (ha : a ∈ u.added v) : P a :=
  h.adds.of_mem_added ha

/-- What is added on the way is added in two parts. -/
lemma added_trans (h : Counts P u v) (h' : Counts Q v w) :
    u.added w = u.added v ++ v.added w :=
  h.adds.added_trans h'.adds

/-- The calls of Git on the way are those of the two parts. -/
lemma calls_trans (h : Counts P u v) (h' : Counts Q v w) : u.calls w = u.calls v ++ v.calls w := by
  rw [calls, h.added_trans h', callsFrom_append, calls, calls]
  obtain ⟨log, hlog, hcount, -⟩ := h
  rw [added_eq hlog, hcount]

/-- A call that is found between two worlds has the property. -/
lemma of_mem_calls (h : Counts P u v) {call : GitCall} (hcall : call ∈ u.calls v) :
    ∃ directory, P (.git call.args directory) := by
  obtain ⟨-, directory, hmem⟩ := of_mem_callsFrom hcall
  exact ⟨directory, h.of_mem_added hmem⟩

/-- Where no action is a call of Git, none is found. -/
lemma calls_eq_nil (h : Counts (fun a => a.isGit = false) u v) : u.calls v = [] := by
  refine List.eq_nil_iff_forall_not_mem.mpr fun call hcall => ?_
  obtain ⟨directory, hgit⟩ := h.of_mem_calls hcall
  cases hgit

/-- Of the actions something weaker may be said. -/
lemma mono (h : Counts P u v) (hPQ : ∀ a, P a → Q a) : Counts Q u v := by
  obtain ⟨log, hlog, hcount, hall⟩ := h
  exact ⟨log, hlog, hcount, fun a ha => hPQ a (hall a ha)⟩

end Counts

/-- Actions that are no calls of Git. -/
lemma counts_did {P : Action τ → Prop} {w v : World τ} {log : List (Action τ)}
    (hgit : ∀ a ∈ log, a.isGit = false) (h : ∀ a ∈ log, P a) (hactions : v.actions = w.actions)
    (hcalls : v.gitCalls = w.gitCalls) : Counts P w (v.did log) := by
  refine ⟨log, by rw [did_actions, hactions], ?_, h⟩
  have hnone : log.countP Action.isGit = 0 :=
    List.countP_eq_zero.mpr fun a ha => by simp [hgit a ha]
  rw [hnone]
  exact hcalls

end World

/-! ## Single steps -/

variable {P : Action τ → Prop} {host : Host τ}

/-- An action that is no call of Git. -/
lemma RunM.act_counts {a : Action τ} (hgit : a.isGit = false) (h : P a) :
    Leads host (World.Counts P) (act a) :=
  fun w => World.counts_did (List.forall_mem_singleton.mpr hgit) (List.forall_mem_singleton.mpr h)
    (v := w) rfl rfl

/-- A call of Git. -/
lemma Git.call_counts {args : List String} {directory : Option String}
    (h : P (.git args directory)) : Leads host (World.Counts P) (Git.call args directory).run := by
  intro w
  rw [Git.call_eq]
  have hcount : [Action.git (τ := τ) args directory].countP Action.isGit = 1 := rfl
  cases host.git w.gitCalls args with
  | none => exact ⟨_, World.did_actions .., by rw [hcount]; rfl, List.forall_mem_singleton.mpr h⟩
  | some reply =>
    exact ⟨_, World.did_actions .., by rw [hcount]; rfl, List.forall_mem_singleton.mpr h⟩

/-- The call that is made, and that Git grants it if it gives an answer. -/
lemma Git.calls_call (args : List String) (directory : Option String) (host : Host τ)
    (w : World τ) :
    w.calls ((Git.call args directory).run host w).2 = [⟨w.gitCalls, args⟩] ∧
      ∀ answer, ((Git.call args directory).run host w).1 = .ok (.ok answer) →
        host.Grants ⟨w.gitCalls, args⟩ := by
  rw [Git.call_eq]
  cases hreply : host.git w.gitCalls args with
  | none => exact ⟨World.calls_eq (World.did_actions ..), nofun⟩
  | some reply =>
    refine ⟨World.calls_eq (World.did_actions ..), fun answer h => ?_⟩
    cases hb : Git.breach? reply with
    | some fault => simp [hb] at h
    | none =>
      by_cases hcode : reply.exitCode = 0
      · exact ⟨reply, hreply, hb, hcode⟩
      · simp [hb, hcode] at h

variable [Timeline τ]

/-- A command calls no Git. -/
lemma Command.execute_counts (hother : ∀ a : Action τ, a.isGit = false → P a) (c : Console)
    (job : Job) (step : Step) (directory : Location) (env : Environment) (limit : Option τ) :
    Leads host (World.Counts P) (Command.execute c job step directory env limit) := by
  intro w
  cases hwords : Command.shellWords? step.shell with
  | none =>
    rw [Command.execute_unknownShell _ _ _ _ _ _ hwords]
    exact Std.Refl.refl w
  | some words =>
    cases hm : (host.program w.attempts).missing with
    | true =>
      rw [Command.execute_missing _ _ _ _ _ _ hwords hm]
      exact ⟨[], by simp, rfl, by simp⟩
    | false =>
      rw [Command.execute_started _ _ _ _ _ _ hwords rfl hm]
      have hgit : ∀ a ∈ Action.spawn (1001 + w.started) (words ++ [step.run.getD ""]) directory
          env :: trace c (1001 + w.started) (host.program w.attempts) limit, a.isGit = false := by
        refine List.forall_mem_cons.mpr ⟨rfl, fun a ha => ?_⟩
        rcases isTell_or_isFollowUp_of_mem_trace ha with h | h
        · cases a <;> first | rfl | cases h
        · exact (Action.kinds_of_isFollowUp h).2.2
      exact World.counts_did hgit (fun a ha => hother a (hgit a ha)) rfl rfl

/-! ## Runs -/

namespace Sequence

variable (hother : ∀ a : Action τ, a.isGit = false → P a) (c : Console) (ws : Workspace)
include hother

/-- The body of a step makes the calls of its checkout, if it is one. -/
lemma runBody_counts (base : Environment) (job : Job) {step : Step}
    (hcalls : Checkout.isCheckout step = true →
      ∀ call ∈ Checkout.calls ws step, P (.git call.1 call.2)) (limit : Option τ) :
    Leads host (World.Counts P) (runBody c ws base job step limit) := by
  unfold runBody
  split
  · exact runAction_leads (fun hc call hcall => Git.call_counts (hcalls hc call hcall))
      (fun _ => act_counts rfl (hother _ rfl)) job
  · unfold runCommand
    cases directoryOf ws.place step.cwd with
    | error fault => exact Leads.throw _
    | ok directory =>
      refine Leads.get.bind fun w => ?_
      split
      · exact read_leads.bind fun _ => Command.execute_counts hother c job step _ _ limit
      · refine read_leads.bind fun _ => Leads.get.bind fun _ => ?_
        split
        · exact Leads.throw _
        · exact Leads.pure _

omit [Timeline τ] in
/-- What a run says of itself is no call of Git. -/
lemma remarks_counts : Remarks host fun _ => World.Counts P :=
  ⟨fun _ => Ends.tell (act_counts rfl (hother _ rfl)), fun _ _ _ => act_counts rfl (hother _ rfl),
    fun _ _ => act_counts rfl (hother _ rfl)⟩

/-- A run makes the calls of its checkouts. -/
theorem run_counts {wf : Workflow} (e : Event)
    (hcalls : ∀ job ∈ wf.jobs, ∀ step ∈ job.steps, Checkout.isCheckout step = true →
      ∀ call ∈ Checkout.calls ws step, P (.git call.1 call.2)) :
    Leads host (World.Counts P) (run c wf e ws) :=
  run_ends ((remarks_counts hother).reports c) ws fun job hjob step hstep =>
    runBody_counts hother c ws _ job (hcalls job hjob step hstep)

end Sequence

/-! ## Isolated runs -/

/-- What is not done by the steps of an isolated run: two questions to Git, what is told, and the
removal of its directory. -/
structure Trigger.Surrounds (P : Action τ → Prop) : Prop where
  /-- It is asked whether the root is a working tree. -/
  inside : ∀ directory, P (.git ["rev-parse", "--is-inside-work-tree"] directory)
  /-- It is asked whether that has changes. -/
  status : ∀ directory, P (.git ["status", "--porcelain"] directory)
  /-- Something is told. -/
  tell : ∀ m, P (.tell m)
  /-- A directory is removed. -/
  remove : ∀ place, P (.removeTemporary place)

/-- The world in which the steps of an isolated run begin. -/
def Trigger.readied (c : Console) (w : World τ) (parent : Location) (ws : Workspace) : World τ :=
  (Workspace.opened w parent).did [.tell (c.remark ("workspace: " ++ ws.place.text ++
    " (isolated=" ++ (if ws.isolated then "True" else "False") ++ ")"))]

omit [Timeline τ] in
/-- The directory of the run is made and its place is told. -/
lemma Trigger.readied_counts (c : Console) (w : World τ) (parent : Location) (ws : Workspace)
    (hmake : P (.makeTemporary (Workspace.nextTemporary w parent))) (htell : ∀ m, P (.tell m)) :
    World.Counts P w (readied c w parent ws) := by
  have hopened : World.Counts P w (Workspace.opened w parent) :=
    World.counts_did (List.forall_mem_singleton.mpr rfl) (List.forall_mem_singleton.mpr hmake)
      rfl rfl
  have htold : World.Counts P (Workspace.opened w parent) (readied c w parent ws) :=
    World.counts_did (v := Workspace.opened w parent) (List.forall_mem_singleton.mpr rfl)
      (List.forall_mem_singleton.mpr (htell _)) rfl rfl
  exact trans_of (World.Counts P) hopened htold

omit [Timeline τ] in
/-- What a computation comes to may be told after it. -/
lemma RunM.bind_tell_apply (m : RunM τ α) (f : α → Message) (host : Host τ) (w : World τ) :
    ∃ log, (∀ a ∈ log, ∃ m, a = .tell m) ∧
      (m >>= fun a => tell (f a) >>= fun _ => pure a) host w =
        ((m host w).1, (m host w).2.did log) := by
  rw [bind_apply]
  rcases m host w with ⟨fault | a, w'⟩
  · exact ⟨[], nofun, by rw [World.did_nil]⟩
  · exact ⟨[.tell (f a)], fun b hb => ⟨f a, List.mem_singleton.mp hb⟩, rfl⟩

/-- In an isolated working tree a run breaks off before its first step, or it runs the workflow in a
temporary directory that is made for it and removed after it. -/
lemma Trigger.withIsolated_isolated (hP : Surrounds P) (c : Console) (wf : Workflow) (e : Event)
    (workDir : Option String) (source : String) (host : Host τ) (w : World τ) :
    let ended := Workspace.withIsolated e workDir source (runIn c wf e) host w
    (∃ fault, ended = (.error fault, w)) ∨
    ∃ parent w₁, World.Counts P w w₁ ∧
      let ws := Workspace.isolatedIn (Workspace.nextTemporary w₁ parent) e source
      let ran := Sequence.run c wf e ws host (readied c w₁ parent ws)
      ended.1 = ran.1 ∧ World.Counts P ran.2 ended.2 := by
  have hclosed : ∀ (u : World τ) (place : Location), World.Counts P u (Workspace.closed u place) :=
    fun u place => World.counts_did (List.forall_mem_singleton.mpr rfl)
      (List.forall_mem_singleton.mpr (hP.remove place)) rfl rfl
  intro ended
  have hended : ended = _ := Workspace.withIsolated_eq e workDir source (runIn c wf e) host w
  rw [hended]
  rcases Workspace.temporaryParent_cases workDir host w with
    ⟨fault, -, h⟩ | h | ⟨place, tree, -, -, h⟩
  all_goals rw [h]
  · exact Or.inl ⟨fault, rfl⟩
  · exact Or.inr ⟨host.temporary, w, Std.Refl.refl w, rfl, hclosed _ _⟩
  · have hmade : World.Counts P w { w with tree } := ⟨[], by simp, by simp, by simp⟩
    exact Or.inr ⟨place, { w with tree }, hmade, rfl, hclosed _ _⟩

/-- An isolated run that is started breaks off before its first step, or it runs the workflow in a
temporary directory that is made for it, with nothing but what surrounds a run before and after. -/
lemma Trigger.start_isolated (hP : Surrounds P) (c : Console) (wf : Workflow) (e : Event)
    {o : RunOptions} (ho : o.isolated = true) (host : Host τ) (w : World τ) :
    let ended := start c wf e o host w
    (∃ fault, ended.1 = .error fault ∧ World.Counts P w ended.2) ∨
    ∃ parent w₁, World.Counts P w w₁ ∧
      let ws := Workspace.isolatedIn (Workspace.nextTemporary w₁ parent) e (o.sourceOn host)
      let ran := Sequence.run c wf e ws host (readied c w₁ parent ws)
      ended.1 = ran.1 ∧ World.Counts P ran.2 ended.2 := by
  intro ended
  have hwarn : World.Counts P w (warnOfChanges o host w).2 :=
    warnOfChanges_leads (Git.call_counts (hP.inside _)) (Git.call_counts (hP.status _))
      (fun m => act_counts rfl (hP.tell m)) w
  simp only [ended, start]
  rw [RunM.bind_apply]
  rcases hrun : warnOfChanges o host w with ⟨fault | _, w₀⟩
  all_goals
    rw [hrun] at hwarn
    dsimp only at hwarn ⊢
  · exact Or.inl ⟨fault, rfl, hwarn⟩
  obtain ⟨log, htold, heq⟩ := RunM.bind_tell_apply
    (Workspace.provide o.root e o.isolated o.workDir o.source (runIn c wf e)) Console.results host
    w₀
  -- the results are told at the end, whatever the run came to
  have htell : ∀ u : World τ, World.Counts P u (u.did log) := by
    intro u
    refine World.counts_did (fun a ha => ?_) (fun a ha => ?_) rfl rfl
    all_goals obtain ⟨m, rfl⟩ := htold a ha
    · rfl
    · exact hP.tell m
  rw [heq, provide_isolated e host ho]
  rcases withIsolated_isolated hP c wf e o.workDir (o.sourceOn host) host w₀ with
    ⟨fault, h⟩ | ⟨parent, w₁, hbefore, hresult, hafter⟩
  · rw [h]
    exact Or.inl ⟨fault, rfl, trans_of (World.Counts P) hwarn (htell _)⟩
  · exact Or.inr ⟨parent, w₁, trans_of (World.Counts P) hwarn hbefore, hresult,
      trans_of (World.Counts P) hafter (htell _)⟩

/-- An isolated run that is started makes the calls of its checkouts and asks two questions before
them. -/
theorem Trigger.start_counts (hother : ∀ a : Action τ, a.isGit = false → P a)
    (hinside : ∀ directory, P (.git ["rev-parse", "--is-inside-work-tree"] directory))
    (hstatus : ∀ directory, P (.git ["status", "--porcelain"] directory)) (c : Console)
    {wf : Workflow} {e : Event} {o : RunOptions} (ho : o.isolated = true)
    (hcalls : ∀ place, ∀ job ∈ wf.jobs, ∀ step ∈ job.steps, Checkout.isCheckout step = true →
      ∀ call ∈ Checkout.calls (Workspace.isolatedIn place e (o.sourceOn host)) step,
        P (.git call.1 call.2)) :
    Leads host (World.Counts P) (start c wf e o) := by
  intro w
  have hP : Surrounds P := ⟨hinside, hstatus, fun _ => hother _ rfl, fun _ => hother _ rfl⟩
  rcases start_isolated hP c wf e ho host w with
    ⟨fault, -, hcounts⟩ | ⟨parent, w₁, hbefore, -, hafter⟩
  · exact hcounts
  · set ws := Workspace.isolatedIn (Workspace.nextTemporary w₁ parent) e (o.sourceOn host)
    have hready : World.Counts P w₁ (readied c w₁ parent ws) :=
      readied_counts c w₁ parent ws (hother _ rfl) fun _ => hother _ rfl
    have hrun : World.Counts P (readied c w₁ parent ws)
        (Sequence.run c wf e ws host (readied c w₁ parent ws)).2 :=
      Sequence.run_counts hother c ws e (hcalls _) (readied c w₁ parent ws)
    exact trans_of (World.Counts P) hbefore (trans_of (World.Counts P) hready
      (trans_of (World.Counts P) hrun hafter))

/-- An isolated trigger starts no step, or it runs the workflow in a temporary directory that is
made for it, with nothing but what surrounds a run before and after. -/
theorem Trigger.trigger_isolated (hP : Surrounds P) (c : Console) (wf : Workflow) (e : Event)
    {o : RunOptions} (ho : o.isolated = true) (host : Host τ) (w : World τ) :
    let ended := trigger c wf e o host w
    ((∀ result, ended.1 ≠ .ok (some result)) ∧ World.Counts P w ended.2) ∨
    ∃ parent w₁, World.Counts P w w₁ ∧
      let ws := Workspace.isolatedIn (Workspace.nextTemporary w₁ parent) e (o.sourceOn host)
      let ran := Sequence.run c wf e ws host (readied c w₁ parent ws)
      ended.1 = ran.1.map some ∧ World.Counts P ran.2 ended.2 := by
  intro ended
  rcases trigger_cases c wf e host o w with ⟨fault, -, h⟩ | ⟨-, -, h⟩ | ⟨-, h⟩
  all_goals rw [show ended = _ from h]
  · exact Or.inl ⟨nofun, Std.Refl.refl w⟩
  · exact Or.inl ⟨nofun, World.counts_did (v := w) (List.forall_mem_singleton.mpr rfl)
      (List.forall_mem_singleton.mpr (hP.tell _)) rfl rfl⟩
  · rcases start_isolated hP c wf e ho host w with
      ⟨fault, hfault, hcounts⟩ | ⟨parent, w₁, hbefore, hresult, hafter⟩
    · refine Or.inl ⟨fun result => ?_, hcounts⟩
      rw [hfault]
      nofun
    · exact Or.inr ⟨parent, w₁, hbefore, congrArg (Except.map some) hresult, hafter⟩

end CiRunner
