import CiRunner.Proofs.Run.Effects
import CiRunner.Proofs.Run.Temporary

/-!
# Isolated runs leave nothing behind

An isolated run works in a temporary directory that is removed when it is over.  Whatever programs
and Git do and however the run ends, nothing is left at that place or below it.  If moreover
programs and Git keep to the directories they are given and no step leaves the working tree, nothing
else is changed either, but for the directories on the way to the one that temporary directories are
made in.  A run in place makes and removes nothing itself.
-/

namespace CiRunner

variable {τ : Type}

/-! ## Hosts that keep to directories -/

namespace Git

/-- The calls of Git that work on the files of a directory. -/
def IsWork (args : List String) : Prop :=
  args.head? = some "clone" ∨ args.head? = some "checkout" ∨ args.head? = some "fetch"

/-- The calls of Git that only ask for something. -/
def IsQuery (args : List String) : Prop :=
  args.head? = some "rev-parse" ∨ args.head? = some "status"

end Git

/-- A host whose programs and whose Git keep to the directories they are given. -/
structure Host.Confined (host : Host τ) : Prop where
  /-- The working directory is a place as systems name it. -/
  directory : host.directory.Proper
  /-- So is the directory for temporary files. -/
  temporary : host.temporary.Proper
  /-- Programs change nothing outside their directory. -/
  program : ∀ n directory t,
    FileTree.SameOutside directory t ((host.program n).changes directory t)
  /-- Git changes nothing outside the directory it works on. -/
  git : ∀ n args reply, host.git n args = some reply → Git.IsWork args →
    ∀ directory t, FileTree.SameOutside directory t (reply.changes directory t)
  /-- Git changes nothing when it is asked for something. -/
  query : ∀ n args reply, host.git n args = some reply → Git.IsQuery args →
    ∀ directory t, FileTree.Same t (reply.changes directory t)

/-- The working directory of no step leads out of a working tree. -/
def Workflow.StaysIn (wf : Workflow) (place : Location) : Prop :=
  ∀ job ∈ wf.jobs, ∀ step ∈ job.steps, ∀ directory,
    Sequence.directoryOf place step.cwd = .ok directory → place <+: directory

/-- A file tree comes from another one by changes that programs and Git make. -/
inductive Host.Alters (host : Host τ) (t : FileTree) : FileTree → Prop
  /-- There is no change. -/
  | refl : Alters host t t
  /-- A program makes a change. -/
  | program {t' : FileTree} (h : Alters host t t') (n : ℕ) (directory : Location) :
      Alters host t ((host.program n).changes directory t')
  /-- Git makes a change. -/
  | git {t' : FileTree} (h : Alters host t t') {n : ℕ} {args : List String} {reply : GitReply}
      (hreply : host.git n args = some reply) (directory : Location) :
      Alters host t (reply.changes directory t')

instance (host : Host τ) : IsPreorder FileTree host.Alters where
  refl _ := .refl
  trans t t' t'' h h' := by
    induction h' with
    | refl => exact h
    | program _ n directory ih => exact .program ih n directory
    | git _ hreply directory ih => exact .git ih hreply directory

/-! ## Steps in a working tree -/

/-- In an isolated working tree Git works on its directory. -/
lemma Checkout.placeOf_calls {ws : Workspace} (hi : ws.isolated = true) (hplace : ws.place.Proper)
    (host : Host τ) {step : Step} {call : List String × Option String} (h : call ∈ calls ws step) :
    Git.IsWork call.1 ∧ Git.placeOf host call.1 call.2 = ws.place := by
  have hread := Path.resolve_ofText_text hplace host.directory
  simp only [calls, hi, if_true, List.mem_cons, List.not_mem_nil, or_false] at h
  rcases h with rfl | rfl | rfl | rfl
  · exact ⟨Or.inl rfl, hread⟩
  · exact ⟨Or.inr (Or.inl rfl), hread⟩
  · exact ⟨Or.inr (Or.inr rfl), hread⟩
  · exact ⟨Or.inr (Or.inl rfl), hread⟩

/-- A step in an isolated working tree keeps to the directory of that, as far as the host keeps to
directories and the step stays in the working tree. -/
lemma Step.keepsTo_isolated {host : Host τ} {ws : Workspace} {step : Step} {P : Prop}
    {directory : Location} (hi : ws.isolated = true) (hws : directory <+: ws.place)
    (hplace : P → ws.place.Proper) (hhost : P → host.Confined)
    (hstays : P → ∀ cwd, Sequence.directoryOf ws.place step.cwd = .ok cwd → ws.place <+: cwd) :
    step.KeepsTo (FileTree.Given P (FileTree.SameOutside directory)) host ws where
  program _ cwd hcwd n t hP :=
    ((hhost hP).program n cwd t).mono (hws.trans (hstays hP cwd hcwd))
  git call hcall n reply hreply t hP := by
    obtain ⟨hwork, hplaceOf⟩ := Checkout.placeOf_calls hi (hplace hP) host hcall
    rw [hplaceOf]
    exact ((hhost hP).git n call.1 reply hreply hwork ws.place t).mono hws

/-- A step makes no change but those of programs and Git. -/
lemma Step.keepsTo_alters (host : Host τ) (ws : Workspace) (step : Step) :
    step.KeepsTo host.Alters host ws where
  program _ directory _ n _ := .program .refl n directory
  git _ _ _ _ hreply _ := .git .refl hreply _

/-! ## What is left behind -/

/-- The same stands at every place, but missing directories on the way to the one for temporary
directories were made. -/
def Host.MadeFor (host : Host τ) (workDir : Option String) (t t' : FileTree) : Prop :=
  ∀ p, t'.get? p = t.get? p ∨
    ∃ place, Workspace.workPlace? host workDir = some place ∧ p <+: place ∧ t.get? p = none ∧
      t'.get? p = some .directory

/-- What an isolated run leaves behind: nothing. -/
structure LeavesNothing (host : Host τ) (wf : Workflow) (workDir : Option String)
    (log : List (Action τ)) (t t' : FileTree) : Prop where
  /-- Nothing stands at or below the place of a temporary directory that was made. -/
  gone : ∀ place, .makeTemporary place ∈ log → ∀ p, place <+: p → t'.get? p = none
  /-- Everything else is as before, if programs and Git keep to the directories they are given and
  no step leaves its working tree. -/
  frame : host.Confined → (∀ place, .makeTemporary place ∈ log →
    wf.StaysIn (place ++ [Workspace.treeName])) → host.MadeFor workDir t t'

/-- An action that makes a temporary directory is not among those that make none. -/
lemma not_mem_makeTemporary {log : List (Action τ)} (h : ∀ a ∈ log, a.isTemporary = false)
    {place : Location} : .makeTemporary place ∉ log :=
  fun hmem => by cases h _ hmem

/-- Nothing is left by what makes no temporary directory and changes no files. -/
lemma LeavesNothing.of_same {host : Host τ} {wf : Workflow} {workDir : Option String}
    {log : List (Action τ)} (hlog : ∀ a ∈ log, a.isTemporary = false) {t t' : FileTree}
    (h : FileTree.Given host.Confined FileTree.Same t t') :
    LeavesNothing host wf workDir log t t' where
  gone _ hmem := absurd hmem (not_mem_makeTemporary hlog)
  frame hhost _ p := Or.inl (h hhost p)

/-- Nothing is left if nothing happens before and after but what changes no files. -/
lemma LeavesNothing.surround {host : Host τ} {wf : Workflow} {workDir : Option String}
    {before log after : List (Action τ)} {t t₁ t₂ : FileTree}
    (h : LeavesNothing host wf workDir log t₁ t₂)
    (hbefore : ∀ a ∈ before, a.isTemporary = false)
    (hsame : FileTree.Given host.Confined FileTree.Same t t₁)
    (hafter : ∀ a ∈ after, a.isTemporary = false) :
    LeavesNothing host wf workDir (before ++ log ++ after) t t₂ where
  gone place hmem := by
    rcases List.mem_append.mp hmem with hmem | hmem
    · rcases List.mem_append.mp hmem with hmem | hmem
      · exact absurd hmem (not_mem_makeTemporary hbefore)
      · exact h.gone place hmem
    · exact absurd hmem (not_mem_makeTemporary hafter)
  frame hhost hstays p := by
    have hframe := h.frame hhost fun place hmem =>
      hstays place (List.mem_append_left _ (List.mem_append_right _ hmem))
    rcases hframe p with hp | ⟨place, hplace, hp, hnone, hmade⟩
    · exact Or.inl (hp.trans (hsame hhost p))
    · exact Or.inr ⟨place, hplace, hp, (hsame hhost p).symm.trans hnone, hmade⟩

/-! ## Runs in an isolated working tree -/

section Runs

variable [Timeline τ] (c : Console) (wf : Workflow) (e : Event) (host : Host τ)

/-- A run in a working tree changes the files as its steps do. -/
lemma Trigger.runIn_proceeds {T : FileTree → FileTree → Prop} [IsPreorder FileTree T]
    {ws : Workspace} (h : ∀ job ∈ wf.jobs, ∀ step ∈ job.steps, step.KeepsTo T host ws) :
    RunM.Leads host (World.Proceeds T) (Trigger.runIn c wf e ws) :=
  (RunM.act_proceeds rfl).bind fun _ => Sequence.run_proceeds c h e

/-- Nothing is left of a run in a temporary directory that was removed. -/
lemma Workspace.closed_leavesNothing (workDir : Option String) (source : String) {t : FileTree}
    (w : World τ) {parent : Location} (hparent : host.Confined → parent.Proper)
    (hmade : host.MadeFor workDir t w.tree) :
    let place := nextTemporary w parent
    let w' :=
      closed (Trigger.runIn c wf e (isolatedIn place e source) host (opened w parent)).2 place
    ∃ log, w'.actions.toList = w.actions.toList ++ log ∧ .makeTemporary place ∈ log ∧
      LeavesNothing host wf workDir log t w'.tree := by
  intro place w'
  set ws := isolatedIn place e source with hws
  have hne : place ≠ [] := nextTemporary_ne_nil w parent
  have hinside : place <+: ws.place := List.prefix_append ..
  set P := host.Confined ∧ wf.StaysIn ws.place with hP
  have hkeeps : ∀ job ∈ wf.jobs, ∀ step ∈ job.steps,
      step.KeepsTo (FileTree.Given P (FileTree.SameOutside place)) host ws :=
    fun job hjob step hstep => Step.keepsTo_isolated rfl hinside
      (fun hP => proper_isolatedIn w (hparent hP.1) e source) (fun hP => hP.1)
      (fun hP => hP.2 job hjob step hstep)
  obtain ⟨htree, log, hlog, hquiet⟩ := Trigger.runIn_proceeds c wf e host hkeeps (opened w parent)
  refine ⟨.makeTemporary place :: (log ++ [.removeTemporary place]), ?_, by simp, ?_, ?_⟩
  · have hend : w'.actions.toList =
        (Trigger.runIn c wf e ws host (opened w parent)).2.actions.toList ++
          [.removeTemporary place] := World.did_actions ..
    have hstart : (opened w parent).actions.toList =
        w.actions.toList ++ [.makeTemporary place] := World.did_actions ..
    rw [hend, hlog, hstart]
    simp
  · intro made hmem p hp
    have hmade : made = place := by
      rcases List.mem_cons.mp hmem with hmem | hmem
      · cases hmem
        rfl
      · rcases List.mem_append.mp hmem with hmem | hmem
        · exact absurd hmem (not_mem_makeTemporary hquiet)
        · simp at hmem
    rw [hmade] at hp
    exact FileTree.get?_remove_of_prefix hne hp _
  · intro hhost hstays p
    have hrun := htree ⟨hhost, hstays place List.mem_cons_self⟩
    by_cases hp : place <+: p
    · -- nothing was there before, since the place was free when the directory was made
      have hfree : w.tree.get? p = none := get?_nextTemporary w parent hp
      have hbefore : t.get? p = none := by
        rcases hmade p with hsame | ⟨_, -, -, hnone, -⟩
        · exact hsame.symm.trans hfree
        · exact hnone
      exact Or.inl ((FileTree.get?_remove_of_prefix hne hp _).trans hbefore.symm)
    · have hsame : w'.tree.get? p = w.tree.get? p :=
        calc w'.tree.get? p
            = (Trigger.runIn c wf e ws host (opened w parent)).2.tree.get? p :=
              FileTree.sameOutside_remove hne _ p hp
          _ = (opened w parent).tree.get? p := hrun p hp
          _ = w.tree.get? p := sameOutside_opened w parent p hp
      rw [hsame]
      exact hmade p

/-- Nothing is left of what is done with an isolated working tree. -/
lemma Workspace.withIsolated_leavesNothing (workDir : Option String) (source : String)
    (w : World τ) :
    ∃ log, (withIsolated e workDir source (Trigger.runIn c wf e) host w).2.actions.toList =
        w.actions.toList ++ log ∧
      LeavesNothing host wf workDir log w.tree
        (withIsolated e workDir source (Trigger.runIn c wf e) host w).2.tree ∧
      ∀ r, (withIsolated e workDir source (Trigger.runIn c wf e) host w).1 = .ok r →
        ∃ place, .makeTemporary place ∈ log := by
  rw [withIsolated_eq]
  rcases temporaryParent_cases workDir host w with
    ⟨fault, -, h⟩ | h | ⟨place, tree, hplace, ht, h⟩
  all_goals rw [h]
  · exact ⟨[], by simp, .of_same (by simp) (Std.Refl.refl _), fun r hr => by cases hr⟩
  · have hmade : host.MadeFor workDir w.tree w.tree := fun _ => Or.inl rfl
    obtain ⟨log, hlog, hmem, hleaves⟩ := closed_leavesNothing c wf e host workDir source w
      Host.Confined.temporary hmade
    exact ⟨log, hlog, hleaves, fun _ _ => ⟨_, hmem⟩⟩
  · have hmade : host.MadeFor workDir w.tree tree := fun p =>
      (FileTree.madeTowards_makeDirs ht p).imp_right fun hp => ⟨place, hplace, hp⟩
    obtain ⟨log, hlog, hmem, hleaves⟩ := closed_leavesNothing c wf e host workDir source
      { w with tree } (fun hhost => proper_workPlace? hhost.directory hplace) hmade
    exact ⟨log, hlog, hleaves, fun _ _ => ⟨_, hmem⟩⟩

/-! ## Before the run -/

/-- Where an isolated run clones from. -/
def RunOptions.sourceOn (o : RunOptions) (host : Host τ) : String :=
  match o.source with
  | none | some "" => ((Path.ofText o.root).resolve host.directory).text
  | some source => source

namespace Trigger

omit [Timeline τ] in
/-- Whether a run starts is found out without doing anything. -/
lemma starts_leads {R : World τ → World τ → Prop} [IsPreorder (World τ) R] (o : RunOptions) :
    RunM.Leads host R (starts wf e o) := by
  unfold starts
  split
  · exact RunM.Leads.pure _
  · cases wf.shouldRun e with
    | ok run => exact RunM.Leads.pure _
    | error reason => exact RunM.Leads.throw _

omit [Timeline τ] in
/-- The warning about changes that a run does not see only asks Git something. -/
lemma warnOfChanges_proceeds {T : FileTree → FileTree → Prop} [IsPreorder FileTree T]
    (h : ∀ n args reply, host.git n args = some reply → Git.IsQuery args →
      ∀ directory t, T t (reply.changes directory t)) (o : RunOptions) :
    RunM.Leads host (World.Proceeds T) (warnOfChanges o) :=
  warnOfChanges_leads
    (Git.call_proceeds fun n reply hreply t => h n _ reply hreply (Or.inl rfl) _ t)
    (Git.call_proceeds fun n reply hreply t => h n _ reply hreply (Or.inr rfl) _ t)
    fun _ => RunM.act_proceeds rfl

/-- A trigger starts a run, or it only finds out that there is none to start. -/
lemma trigger_cases (o : RunOptions) (w : World τ) :
    (∃ fault, fault.isOutside = false ∧ trigger c wf e o host w = (.error fault, w)) ∨
    (o.force = false ∧ wf.shouldRun e = .ok false ∧
      trigger c wf e o host w = (.ok none, w.did [.tell (Console.notTriggered wf.name e)])) ∨
    ((o.force = true ∨ wf.shouldRun e = .ok true) ∧
      trigger c wf e o host w =
        ((start c wf e o host w).1.map some, (start c wf e o host w).2)) := by
  have hstarted : ∀ {w' : World τ}, starts wf e o host w = (.ok true, w') → w' = w →
      trigger c wf e o host w =
        ((start c wf e o host w).1.map some, (start c wf e o host w).2) := by
    rintro w' hstarts rfl
    rw [trigger, RunM.bind_apply, hstarts]
    exact RunM.bind_pure_apply ..
  cases hforce : o.force with
  | true =>
    have hstarts : starts wf e o host w = (.ok true, w) := by
      rw [starts, hforce]
      rfl
    exact Or.inr (Or.inr ⟨Or.inl rfl, hstarted hstarts rfl⟩)
  | false =>
    cases hrun : wf.shouldRun e with
    | error reason =>
      refine Or.inl ⟨.pattern reason, rfl, ?_⟩
      rw [trigger, RunM.bind_apply, starts, hforce, hrun]
      rfl
    | ok run =>
      have hstarts : starts wf e o host w = (.ok run, w) := by
        rw [starts, hforce, hrun]
        rfl
      cases run with
      | true => exact Or.inr (Or.inr ⟨Or.inr rfl, hstarted hstarts rfl⟩)
      | false =>
        refine Or.inr (Or.inl ⟨rfl, rfl, ?_⟩)
        rw [trigger, RunM.bind_apply, hstarts]
        rfl

/-! ## Around a run -/

/-- A run with everything that is done around it, but for the summary at its end. -/
def stage (c : Console) (wf : Workflow) (e : Event) (o : RunOptions) : RunM τ RunResult := do
  warnOfChanges o
  Workspace.provide o.root e o.isolated o.workDir o.source (runIn c wf e)

/-- A run that is started is summed up at its end. -/
lemma start_eq (o : RunOptions) :
    (start c wf e o : RunM τ RunResult) =
      stage c wf e o >>= fun r => RunM.tell (Console.results r) >>= fun _ => pure r := by
  simp [start, stage]

omit [Timeline τ] in
/-- What is done around a run keeps to a relation that holds along chains of computations, however
the run ends. -/
structure Encloses (c : Console) (host : Host τ) (Q : Option Fault → World τ → World τ → Prop) :
    Prop where
  /-- Something that does not come from outside breaks it off before the run. -/
  broken : ∀ {fault : Fault}, fault.isOutside = false → ∀ w, Q (some fault) w w
  /-- Git is asked about changes. -/
  git : ∀ args directory, RunM.Ends host Q (Git.call args directory).run
  /-- Changes are noted that the run does not see. -/
  note : ∀ place, RunM.Ends host Q (RunM.tell (note place))
  /-- It is remarked where the run is. -/
  remark : ∀ text, RunM.Ends host Q (RunM.tell (c.remark text))
  /-- A temporary directory is made, after the directories on the way to it. -/
  opened : ∀ w tree parent, Q none w (Workspace.opened { w with tree } parent)
  /-- It is removed, however the run ended. -/
  closed : ∀ {fault u v} place, Q fault u v → Q fault u (Workspace.closed v place)

section Encloses

variable {Q : Option Fault → World τ → World τ → Prop} [RunM.Chains Q]
variable {c wf e host} (h : Encloses c host Q)
variable (hrun : ∀ ws, RunM.Ends host Q (Sequence.run c wf e ws))

include h hrun

/-- A run in a working tree ends as the run itself. -/
lemma Encloses.runIn_ends (ws : Workspace) : RunM.Ends host Q (runIn c wf e ws) :=
  (h.remark _).bind fun _ => hrun ws

/-- A run in an isolated working tree ends as the run itself: the tree is removed in any case. -/
lemma Encloses.withIsolated_ends (workDir : Option String) (source : String) :
    RunM.Ends host Q (Workspace.withIsolated e workDir source (runIn c wf e)) := by
  intro w
  rw [Workspace.withIsolated_eq]
  rcases Workspace.temporaryParent_cases workDir host w with
    ⟨fault, hfault, heq⟩ | heq | ⟨place, tree, -, -, heq⟩
  all_goals rw [heq]
  · exact h.broken hfault w
  · exact h.closed _ (RunM.Chains.trans (h.opened w w.tree _) (h.runIn_ends hrun _ _))
  · exact h.closed _ (RunM.Chains.trans (h.opened w tree _) (h.runIn_ends hrun _ _))

/-- A run ends in any working tree as the run itself. -/
lemma Encloses.stage_ends (o : RunOptions) : RunM.Ends host Q (stage c wf e o) := by
  have hwarn : RunM.Ends host Q (warnOfChanges o) :=
    warnOfChanges_ends (h.git _ _) (h.git _ _) (h.broken rfl) h.note
  have hprovide : RunM.Ends host Q
      (Workspace.provide o.root e o.isolated o.workDir o.source (runIn c wf e)) := by
    refine RunM.Ends.bind (fun w => RunM.Chains.refl w) fun place => ?_
    dsimp only
    split
    · exact h.withIsolated_ends hrun o.workDir _
    · exact h.runIn_ends hrun _
  exact hwarn.bind fun _ => hprovide

/-- A trigger ends as the run that it starts, if what it tells keeps to the relation as well. -/
theorem Encloses.trigger_ends (htell : ∀ m, RunM.Ends host Q (RunM.tell m)) (o : RunOptions) :
    RunM.Ends host Q (trigger c wf e o) := by
  have hstart : RunM.Ends host Q (start c wf e o) := by
    rw [start_eq]
    exact (h.stage_ends hrun o).bind fun _ => (htell _).bind fun _ => RunM.Ends.pure _
  intro w
  rcases trigger_cases c wf e host o w with ⟨fault, hfault, heq⟩ | ⟨-, -, heq⟩ | ⟨-, heq⟩
  all_goals rw [heq]
  · exact h.broken hfault w
  · exact htell _ w
  · rw [faultOf_map]
    exact hstart w

end Encloses

omit [Timeline τ] in
/-- What a trigger does around its run keeps to a relation.  This is a part of another one, which
holds along chains of computations and looks at how the run ends. -/
structure Frames (host : Host τ) (R : World τ → World τ → Prop)
    (Q : Option Fault → World τ → World τ → Prop) : Prop where
  /-- The relation is a part. -/
  part : ∀ {fault w w'}, R w w' → Q fault w w'
  /-- Git is asked about changes. -/
  git : ∀ args directory, RunM.Leads host R (Git.call args directory).run
  /-- The user is told something. -/
  tell : ∀ m, RunM.Leads host R (RunM.tell m)
  /-- A temporary directory is made, after the directories on the way to it. -/
  opened : ∀ w tree parent, R w (Workspace.opened { w with tree } parent)
  /-- It is removed, however the run ended. -/
  closed : ∀ {fault u v} place, Q fault u v → Q fault u (Workspace.closed v place)

/-- A trigger ends as the run that it starts, where faults do not matter to what is around it. -/
theorem Frames.trigger_ends {R : World τ → World τ → Prop} [IsPreorder (World τ) R]
    {Q : Option Fault → World τ → World τ → Prop} [RunM.Chains Q] {c wf e host}
    (h : Frames host R Q) (hrun : ∀ ws, RunM.Ends host Q (Sequence.run c wf e ws))
    (o : RunOptions) : RunM.Ends host Q (trigger c wf e o) := by
  have hencloses : Encloses c host Q :=
    { broken := fun _ w => h.part (Std.Refl.refl w)
      git := fun args directory w => h.part (h.git args directory w)
      note := fun _ w => h.part (h.tell _ w)
      remark := fun _ w => h.part (h.tell _ w)
      opened := fun w tree parent => h.part (h.opened w tree parent)
      closed := h.closed }
  exact hencloses.trigger_ends hrun (fun m w => h.part (h.tell m w)) o

/-! ## Triggers -/

/-- A trigger in place changes files only through programs and Git. -/
lemma trigger_inPlace (o : RunOptions) (ho : o.isolated = false) :
    RunM.Leads host (World.Proceeds host.Alters) (trigger c wf e o) := by
  have hwarn : RunM.Leads host (World.Proceeds host.Alters) (warnOfChanges o) :=
    warnOfChanges_proceeds host (fun n args reply hreply _ directory t => .git .refl hreply _) o
  have hprovide : RunM.Leads host (World.Proceeds host.Alters)
      (Workspace.provide o.root e o.isolated o.workDir o.source (runIn c wf e)) := by
    refine RunM.read_leads.bind fun _ => ?_
    rw [ho]
    exact runIn_proceeds c wf e host fun _ _ step _ => Step.keepsTo_alters host _ step
  refine (starts_leads wf e host o).bind fun run => ?_
  split
  · refine RunM.Leads.bind ?_ fun _ => RunM.Leads.pure _
    exact hwarn.bind fun _ => hprovide.bind fun _ => (RunM.act_proceeds rfl).bind fun _ =>
      RunM.Leads.pure _
  · exact (RunM.act_proceeds rfl).bind fun _ => RunM.Leads.pure _

omit [Timeline τ] in
/-- An isolated run gets an isolated working tree. -/
lemma provide_isolated {α : Type} {o : RunOptions} (ho : o.isolated = true)
    (body : Workspace → RunM τ α) (w : World τ) :
    Workspace.provide o.root e o.isolated o.workDir o.source body host w =
      Workspace.withIsolated e o.workDir (o.sourceOn host) body host w := by
  simp only [ho, Workspace.provide, RunM.bind_apply, RunM.resolve_apply, if_true]
  rfl

omit [Timeline τ] in
/-- A run that is not isolated works in place. -/
lemma provide_inPlace {α : Type} {o : RunOptions} (ho : o.isolated = false)
    (body : Workspace → RunM τ α) (w : World τ) :
    ∃ ws, Workspace.provide o.root e o.isolated o.workDir o.source body host w =
      body ws host w := by
  rw [Workspace.provide, ho, RunM.bind_apply]
  exact ⟨_, rfl⟩

/-- It is remarked where a run is, and then it runs. -/
lemma runIn_apply (ws : Workspace) (w : World τ) :
    ∃ remark, runIn c wf e ws host w =
      Sequence.run c wf e ws host (w.did [.tell (c.remark remark)]) :=
  ⟨_, rfl⟩

/-- An isolated run that is started leaves nothing behind. -/
lemma start_leavesNothing (o : RunOptions) (ho : o.isolated = true) (w : World τ) :
    ∃ log, (start c wf e o host w).2.actions.toList = w.actions.toList ++ log ∧
      LeavesNothing host wf o.workDir log w.tree (start c wf e o host w).2.tree ∧
      ∀ r, (start c wf e o host w).1 = .ok r → ∃ place, .makeTemporary place ∈ log := by
  have hwarn : RunM.Leads host
      (World.Proceeds (FileTree.Given host.Confined FileTree.Same)) (warnOfChanges o) :=
    warnOfChanges_proceeds host (fun n args reply hreply hquery directory t hhost =>
      hhost.query n args reply hreply hquery directory t) o
  obtain ⟨hsame, before, hbefore, hquiet⟩ := hwarn w
  rw [start, RunM.bind_apply]
  rcases hrun : warnOfChanges o host w with ⟨fault | _, w₁⟩
  all_goals
    rw [hrun] at hsame hbefore
    dsimp only at hsame hbefore ⊢
  · exact ⟨before, hbefore, .of_same hquiet hsame, fun r hr => by cases hr⟩
  obtain ⟨log, hlog, hleaves, hmade⟩ :=
    Workspace.withIsolated_leavesNothing c wf e host o.workDir (o.sourceOn host) w₁
  rw [RunM.bind_apply, provide_isolated e host ho]
  rcases hend : Workspace.withIsolated e o.workDir (o.sourceOn host) (runIn c wf e) host w₁ with
    ⟨fault | r, w₂⟩
  all_goals
    rw [hend] at hlog hleaves hmade
    dsimp only at hlog hleaves hmade ⊢
    rw [hbefore, List.append_assoc] at hlog
  · refine ⟨before ++ log, hlog, ?_, fun r hr => by cases hr⟩
    have hout := hleaves.surround hquiet hsame (List.forall_mem_nil _)
    rwa [List.append_nil] at hout
  · obtain ⟨place, hmem⟩ := hmade r rfl
    refine ⟨(before ++ log) ++ [.tell (Console.results r)], ?_,
      hleaves.surround hquiet hsame (List.forall_mem_singleton.mpr rfl), fun _ _ => ⟨place, ?_⟩⟩
    · simp only [RunM.bind_apply, RunM.tell_apply, RunM.pure_apply, World.did_actions, hlog,
        List.append_assoc]
    · exact List.mem_append_left _ (List.mem_append_right _ hmem)

/-- An isolated trigger leaves nothing behind. -/
lemma trigger_leavesNothing (o : RunOptions) (ho : o.isolated = true) (w : World τ) :
    ∃ log, (trigger c wf e o host w).2.actions.toList = w.actions.toList ++ log ∧
      LeavesNothing host wf o.workDir log w.tree (trigger c wf e o host w).2.tree ∧
      ∀ r, (trigger c wf e o host w).1 = .ok (some r) → ∃ place, .makeTemporary place ∈ log := by
  rcases trigger_cases c wf e host o w with ⟨fault, -, h⟩ | ⟨-, -, h⟩ | ⟨-, h⟩
  all_goals rw [h]
  · exact ⟨[], by simp, .of_same (by simp) (Std.Refl.refl _), fun r hr => by cases hr⟩
  · exact ⟨[.tell (Console.notTriggered wf.name e)], World.did_actions ..,
      .of_same (List.forall_mem_singleton.mpr rfl) (Std.Refl.refl _), fun r hr => by cases hr⟩
  · obtain ⟨log, hlog, hleaves, hmade⟩ := start_leavesNothing c wf e host o ho w
    refine ⟨log, hlog, hleaves, fun r hr => ?_⟩
    cases hstart : (start c wf e o host w).1 with
    | error fault =>
      rw [hstart] at hr
      cases hr
    | ok result => exact hmade result hstart

end Trigger

/-- What a trigger leaves behind, however it ends.  If it is isolated, nothing stands any more at
the place of the temporary directory that it made, and as far as programs and Git keep to the
directories they are given and no step leaves its working tree, every other place is as before, but
for missing directories on the way to the one for temporary directories.  If it is in place, it
makes and removes nothing: all changes are those of programs and Git. -/
theorem trigger_leaves_nothing (o : RunOptions) (w : World τ) :
    ∃ log, (Trigger.trigger c wf e o host w).2.actions.toList = w.actions.toList ++ log ∧
      (o.isolated = true →
        LeavesNothing host wf o.workDir log w.tree (Trigger.trigger c wf e o host w).2.tree ∧
        ∀ r, (Trigger.trigger c wf e o host w).1 = .ok (some r) →
          ∃ place, .makeTemporary place ∈ log) ∧
      (o.isolated = false →
        host.Alters w.tree (Trigger.trigger c wf e o host w).2.tree ∧
        ∀ a ∈ log, a.isTemporary = false) := by
  cases ho : o.isolated with
  | true =>
    obtain ⟨log, hlog, hleaves⟩ := Trigger.trigger_leavesNothing c wf e host o ho w
    exact ⟨log, hlog, fun _ => hleaves, fun h => by cases h⟩
  | false =>
    obtain ⟨htree, log, hlog, hquiet⟩ := Trigger.trigger_inPlace c wf e host o ho w
    exact ⟨log, hlog, fun h => (by cases h), fun _ => ⟨htree, hquiet⟩⟩

/-- A host whose programs make a directory in their own. -/
def buildingHost : Host Float :=
  { Host.scripted [] with
    program := fun _ =>
      { duration := 1.0, changes := fun directory t => t.put (directory ++ ["out"]) .directory } }

/-- Nothing is left of the directories that a build makes in an isolated working tree. -/
theorem trigger_leaves_nothing_of_build :
    buildingHost.MadeFor (some "work") World.initial.tree
      (Trigger.trigger {} buildAndPack { kind := "push", branch := .text "main" }
        { isolated := true, workDir := some "work", force := true } buildingHost
        World.initial).2.tree := by
  obtain ⟨log, -, hisolated, -⟩ :=
    trigger_leaves_nothing {} buildAndPack { kind := "push", branch := .text "main" } buildingHost
      { isolated := true, workDir := some "work", force := true } World.initial
  refine (hisolated rfl).1.frame ⟨by decide, by decide, fun n directory t => ?_, ?_, ?_⟩ ?_
  · exact FileTree.sameOutside_put (List.prefix_append ..) (by simp) t .directory
  · intro n args reply hreply
    cases hreply
  · intro n args reply hreply
    cases hreply
  · -- no step has a working directory of its own
    intro place _ job hjob step hstep directory hdirectory
    have hcwd : step.cwd = .null := by
      fin_cases hjob <;> fin_cases hstep <;> rfl
    rw [hcwd] at hdirectory
    cases hdirectory
    exact List.prefix_rfl

end Runs

end CiRunner
