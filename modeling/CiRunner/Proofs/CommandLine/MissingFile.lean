import CiRunner.Proofs.CommandLine.Prediction
import CiRunner.Proofs.Run.Streams

/-!
# Reports of a missing workflow file

A command that loads a workflow reports its file as missing exactly if one is named and its path, as
it is written, does not lead to anything from the working directory (`Commands.reportsMissing_iff`).
Nothing else that such a command tells can be taken for this report: other things that cannot be
done have other titles, a run speaks on the standard output, and neither remarks nor faults begin
with an empty line.
-/

namespace CiRunner

open RunM

variable {τ α β : Type}

/-! ## Reports of a missing file -/

namespace Message

/-- A message reports that the workflow file was not found. -/
def ReportsMissing (m : Message) : Prop :=
  m.stream = .err ∧ "\nERROR: Workflow file not found\n".toList <+: m.text.toList

variable {m : Message}

/-- A message on the standard output does not. -/
lemma not_reportsMissing_of_out (h : m.stream = .out) : ¬m.ReportsMissing := by
  rintro ⟨herr, -⟩
  cases h.symm.trans herr

/-- Nor does one whose first line is not empty. -/
lemma not_reportsMissing_err {line : String} {c : Char} (hline : line.toList.head? = some c)
    (hc : c ≠ '\n') (lines : List String) : ¬(err (line :: lines)).ReportsMissing := by
  rintro ⟨-, tail, htail⟩
  obtain ⟨rest, hrest⟩ := List.head?_eq_some_iff.mp hline
  have hsame : '\n' = c := by
    simpa [err, ofLines, String.join_cons, hrest] using congrArg List.head? htail
  exact hc hsame.symm

end Message

namespace Console

/-- What is told about a workflow file that was not found. -/
def missingFile (path : String) : Message :=
  error "Workflow file not found" ("Could not find workflow file: " ++ path) []
    (some "Specify a different path:\n  branchci run --workflow .github/workflows/ci.yml")

/-- This is how a missing file is reported. -/
lemma reportsMissing_missingFile (path : String) : (missingFile path).ReportsMissing := by
  refine ⟨rfl, ?_⟩
  simp [missingFile, error, Message.err, Message.ofLines, String.join_cons]

/-- Something else that cannot be done is told under another title. -/
lemma not_reportsMissing_error {title : String} {c : Char} (htitle : title.toList.head? = some c)
    (hc : c ≠ 'W') (message : String) (details : List String) (suggestion : Option String) :
    ¬(error title message details suggestion).ReportsMissing := by
  rintro ⟨-, hstart⟩
  obtain ⟨rest, hrest⟩ := List.head?_eq_some_iff.mp htitle
  -- the title comes after the same eight characters
  simp [error, Message.err, Message.ofLines, String.join_cons, hrest] at hstart
  exact hc hstart.1.symm

/-- The kind of a fault is named by a word. -/
lemma head?_faultKind (fault : Fault) :
    ∃ c, (Commands.faultKind fault).toList.head? = some c ∧ c ≠ '\n' := by
  cases fault with
  | file reason => cases reason <;> simp [Commands.faultKind]
  | pattern reason => cases reason <;> simp [Commands.faultKind]
  | system reason | directoryHidden reason | notTold reason =>
    cases hkind : reason.kind <;> simp [Commands.faultKind, hkind, RefusalKind.name]
  | _ => simp [Commands.faultKind]

/-- What breaks a run off is told without a title. -/
lemma not_reportsMissing_fault (c : Console) (fault : Fault) :
    ¬(c.fault (Commands.faultKind fault) fault.message).ReportsMissing := by
  obtain ⟨first, hfirst, hne⟩ := head?_faultKind fault
  unfold Console.fault
  split
  · refine Message.not_reportsMissing_err (c := first) ?_ hne []
    split
    · exact hfirst
    · simp [hfirst]
  · exact Message.not_reportsMissing_err (c := 'E') (by simp) (by decide) []

/-- Remarks have no title either. -/
lemma not_reportsMissing_remark (c : Console) (text : String) :
    ¬(c.remark text).ReportsMissing := by
  unfold remark
  split
  · exact Message.not_reportsMissing_err (c := '[') (by simp) (by decide) []
  · rintro ⟨-, hstart⟩
    simp [Message.err, Message.ofLines] at hstart

end Console

/-- An action reports that the workflow file was not found. -/
def Action.ReportsMissing : Action τ → Prop
  | tell m => m.ReportsMissing
  | _ => False

/-- A trigger does not report it by anything that it usually does. -/
lemma Action.IsUsual.not_reportsMissing {c : Console} {a : Action τ} (h : a.IsUsual c) :
    ¬a.ReportsMissing := by
  cases a with
  | tell m =>
    rcases h with hout | ⟨text, rfl⟩
    · exact Message.not_reportsMissing_of_out hout
    · exact c.not_reportsMissing_remark text
  | _ => exact id

/-! ## Commands that load a workflow -/

/-- The workflow that a command is told to load; serving loads none by itself. -/
def Command.workflow? : Command → Option String
  | .run workflow .. => workflow
  | .check workflow .. => workflow
  | .describe workflow => workflow
  | .serve .. => none

namespace Commands

section Quiet

variable {host : Host τ}

/-- What cannot end the program leads where it leads by itself. -/
lemma host_leads {R : World τ → World τ → Prop} {body : RunM τ α} (h : Leads host R body) :
    Leads host R (Commands.host body).run := by
  intro w
  have hbody := h w
  rw [Commands.host, ExceptT.run_lift, map_apply]
  rcases hended : body host w with ⟨fault | a, w'⟩
  all_goals
    rw [hended] at hbody
    exact hbody

/-- Something is told that does not report a missing file. -/
lemma tell_quiet {m : Message} (h : ¬m.ReportsMissing) :
    Leads host (World.Adds fun a => ¬a.ReportsMissing) (tell m : CommandM τ Unit).run :=
  host_leads (tell_adds h)

/-- Something cannot be done for another reason than a missing file. -/
lemma refuse_quiet {title : String} {c : Char} (htitle : title.toList.head? = some c) (hc : c ≠ 'W')
    (message : String) (details : List String) (suggestion : Option String) :
    Leads host (World.Adds fun a => ¬a.ReportsMissing)
      (refuse title message details suggestion : CommandM τ α).run :=
  (tell_quiet (Console.not_reportsMissing_error htitle hc message details suggestion)).run_bind
    fun _ => Leads.pure _

/-- No event is made of a missing file. -/
lemma makeEvent_quiet (kind : String) (branch sha : Option String) :
    Leads host (World.Adds fun a => ¬a.ReportsMissing)
      (makeEvent kind branch sha : CommandM τ Event).run := by
  have hgit : ∀ args, Leads host (World.Adds fun a => ¬a.ReportsMissing)
      (Git.call args (some ".")).run := by
    intro args w
    refine (Git.call_adds_git host args (some ".") w).mono fun a ha => ?_
    have husual : a.IsUsual {} := Action.isUsual_of_isTell (Action.kinds_of_isGit ha).1
    exact husual.not_reportsMissing
  refine (host_leads (ofCheckout_leads hgit kind branch sha)).run_bind fun answer => ?_
  cases answer with
  | ok e => exact Leads.pure _
  | error reason => exact refuse_quiet (c := 'C') (by simp) (by decide) _ _ _

variable [Timeline τ]

omit [Timeline τ] in
/-- How a run ended is told in another way. -/
lemma finish_quiet (c : Console) (result : Except Fault (Option RunResult)) :
    Leads host (World.Adds fun a => ¬a.ReportsMissing) (finish c result) := by
  intro w
  rcases result with fault | result
  · by_cases hfault : fault = .interrupted
    · subst hfault
      exact World.adds_did (Message.not_reportsMissing_of_out rfl) w
    · rw [finish_of_ne_interrupted c host hfault]
      exact World.adds_did (c.not_reportsMissing_fault fault) w
  · exact Std.Refl.refl (r := World.Adds _) w

variable (host) in
/-- A command loads its workflow first, and what it does with it reports no missing file. -/
lemma perform_loads {i : Invocation} {path : String} (h : i.command.workflow? = some path) :
    ∃ rest : Workflow → CommandM τ Exit, perform i = loadWorkflow (some path) >>= rest ∧
      ∀ wf, Leads host (World.Adds fun a => ¬a.ReportsMissing) (rest wf).run := by
  obtain ⟨debug, quiet, command⟩ := i
  cases command with
  | run workflow kind branch sha isolated workDir force =>
    obtain rfl : workflow = some path := h
    refine ⟨_, rfl, fun wf => (makeEvent_quiet kind branch sha).run_bind fun e => ?_⟩
    have htrigger : Leads host (World.Adds fun a => ¬a.ReportsMissing)
        (attempt (Trigger.trigger { debug, quiet } wf e { isolated, workDir, force })) :=
      fun w => (Trigger.trigger_isUsual host _ wf e _ w).mono fun _ ha => ha.not_reportsMissing
    exact (host_leads htrigger).run_bind fun result => host_leads (finish_quiet _ result)
  | check workflow kind branch sha =>
    obtain rfl : workflow = some path := h
    refine ⟨_, rfl, fun wf => (makeEvent_quiet kind branch sha).run_bind fun e => ?_⟩
    dsimp only
    split
    · exact Leads.pure _
    · exact (tell_quiet (Message.not_reportsMissing_of_out rfl)).run_bind fun _ => Leads.pure _
    · exact (tell_quiet (Message.not_reportsMissing_of_out rfl)).run_bind fun _ => Leads.pure _
  | describe workflow =>
    obtain rfl : workflow = some path := h
    refine ⟨_, rfl, fun wf => ?_⟩
    exact (tell_quiet (Message.not_reportsMissing_of_out rfl)).run_bind fun _ => Leads.pure _
  | serve address port => cases h

end Quiet

end Commands

/-- The files among which a host looks workflows up. -/
def Host.filesIn (host : Host τ) (tree : FileTree) : WorkflowFiles where
  tree := tree
  script := host.script
  directory := host.directory
  home := host.environment.value? "HOME"
  users := host.users

namespace Commands

section Loading

variable (host : Host τ) (w : World τ)

/-- The files are looked at as they are. -/
lemma files_run : (Commands.host RunM.files : CommandM τ WorkflowFiles).run host w =
    (.ok (.ok (host.filesIn w.tree)), w) := rfl

/-- Looking at them reports nothing. -/
lemma files_quiet : Leads host (World.Adds fun a => ¬a.ReportsMissing)
    (Commands.host RunM.files : CommandM τ WorkflowFiles).run :=
  fun w => Std.Refl.refl (r := World.Adds _) w

/-- A file that is named is searched for by its path as it is written. -/
lemma findFile_of_ne {path : String} (h : path ≠ "") :
    (findFile (some path) : CommandM τ Path).run host w =
      if isThere (host.filesIn w.tree) path then (.ok (.ok (Path.ofText path)), w)
      else (.ok (.error (.code failed)), w.did [.tell (Console.missingFile path)]) := by
  have hfind : (findFile (some path) : CommandM τ Path) =
      Commands.host RunM.files >>= fun files =>
        if isThere files path then pure (Path.ofText path)
        else tell (Console.missingFile path) >>= fun _ => throw (.code failed) := by
    unfold findFile
    congr 1
    funext files
    split
    · cases ‹_›
    · exact absurd (Option.some.inj ‹_›) h
    · cases ‹some path = _›
      rfl
  rw [hfind, bind_run_apply, files_run]
  dsimp only
  split
  · rfl
  · rfl

/-- Without a name the only workflow file is taken, and none is missing. -/
lemma findFile_quiet_of_empty :
    Leads host (World.Adds fun a => ¬a.ReportsMissing)
      (findFile (some "") : CommandM τ Path).run := by
  refine (files_quiet host).run_bind fun files => ?_
  change Leads host _ (findOnly files : CommandM τ Path).run
  unfold findOnly
  split
  · exact refuse_quiet (c := 'N') (by simp) (by decide) _ _ _
  · exact Leads.pure _
  · exact refuse_quiet (c := 'M') (by simp) (by decide) _ _ _

/-- Loads the workflow of a file that was found. -/
def loadFound (file : Path) : CommandM τ Workflow := do
  let files ← Commands.host RunM.files
  match files.load file with
  | .ok w => return w
  | .error (.definition (.refused reason)) =>
    refuse "Invalid workflow" ("Could not load workflow from " ++ file.text) [reason.message] none
  | .error reason => throw (.load reason)

/-- A workflow is loaded from the file that is found. -/
lemma loadWorkflow_eq (workflow : Option String) :
    (loadWorkflow workflow : CommandM τ Workflow) = findFile workflow >>= loadFound := rfl

/-- A file that was found is not missing any more. -/
lemma loadFound_quiet (file : Path) :
    Leads host (World.Adds fun a => ¬a.ReportsMissing)
      (loadFound file : CommandM τ Workflow).run := by
  refine (files_quiet host).run_bind fun files => ?_
  split
  · exact Leads.pure _
  · exact refuse_quiet (c := 'I') (by simp) (by decide) _ _ _
  · exact Leads.pure _

variable {host w}

/-- What can be loaded of it is loaded. -/
lemma loadFound_of_load {file : Path} {wf : Workflow}
    (h : (host.filesIn w.tree).load file = .ok wf) :
    (loadFound file : CommandM τ Workflow).run host w = (.ok (.ok wf), w) := by
  rw [loadFound, bind_run_apply, files_run]
  dsimp only
  rw [h]
  rfl

/-- A workflow that can be loaded is loaded exactly if its path leads to a file as it is written. -/
lemma loadWorkflow_eq_ok_iff {path : String} (hne : path ≠ "") {wf : Workflow}
    (h : (host.filesIn w.tree).load (Path.ofText path) = .ok wf) :
    (loadWorkflow (some path) : CommandM τ Workflow).run host w = (.ok (.ok wf), w) ↔
      isThere (host.filesIn w.tree) path = true := by
  rw [loadWorkflow_eq, bind_run_apply, findFile_of_ne host w hne]
  by_cases hthere : isThere (host.filesIn w.tree) path = true
  · rw [if_pos hthere]
    exact iff_of_true (loadFound_of_load h) hthere
  · rw [if_neg hthere]
    exact iff_of_false nofun hthere

/-- The end of a command changes nothing any more. -/
lemma endOf_snd (ended : Except Fault (Except Exit Exit) × World τ) :
    (endOf ended).2 = ended.2 := by
  rcases ended with ⟨_ | _ | _, w⟩ <;> rfl

variable [Timeline τ]

/-- A command that loads a workflow reports its file as missing exactly if one is named whose path
does not lead to anything as it is written. -/
lemma reportsMissing_iff {args : List String} {i : Invocation} {path : String}
    (hread : Arguments.read? host.environment args = some i)
    (hworkflow : i.command.workflow? = some path) :
    (∃ a ∈ w.added (execute args host w).2, a.ReportsMissing) ↔
      path ≠ "" ∧ isThere (host.filesIn w.tree) path = false := by
  obtain ⟨rest, hperform, hrest⟩ := perform_loads host hworkflow
  have hend : (execute args host w).2 = ((perform i).run host w).2 := by
    rw [execute_apply hread, endOf_snd]
  have hquiet : ∀ {w'}, w.Adds (fun a => ¬a.ReportsMissing) w' →
      ¬∃ a ∈ w.added w', a.ReportsMissing :=
    fun hadds ⟨a, ha, hreports⟩ => hadds.of_mem_added ha hreports
  rw [hend, hperform, loadWorkflow_eq]
  by_cases hne : path = ""
  · subst hne
    have hall := ((findFile_quiet_of_empty host).run_bind (loadFound_quiet host)).run_bind hrest
    exact iff_of_false (hquiet (hall w)) fun h => h.1 rfl
  · by_cases hthere : isThere (host.filesIn w.tree) path = true
    · have hloaded := (loadFound_quiet host (Path.ofText path)).run_bind hrest w
      have hrun : ((findFile (some path) >>= loadFound) >>= rest : CommandM τ Exit).run host w =
          (loadFound (Path.ofText path) >>= rest : CommandM τ Exit).run host w := by
        rw [bind_assoc, bind_run_apply, findFile_of_ne host w hne, if_pos hthere]
      rw [hrun]
      exact iff_of_false (hquiet hloaded) fun h => Bool.eq_false_iff.mp h.2 hthere
    · have hmissing := findFile_of_ne host w hne
      rw [if_neg hthere] at hmissing
      rw [bind_run_apply, bind_run_apply, hmissing]
      dsimp only
      rw [World.added_eq (World.did_actions w _)]
      exact iff_of_true
        ⟨_, List.mem_singleton_self _, Console.reportsMissing_missingFile path⟩
        ⟨hne, Bool.eq_false_iff.mpr hthere⟩

end Loading

end Commands

end CiRunner
