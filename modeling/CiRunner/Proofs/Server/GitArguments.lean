import CiRunner.Proofs.Run.GitCalls
import CiRunner.Proofs.Server.Repository

/-!
# What Git is called with for a notification

The runs that a notification queues call Git with texts that its sender chose: the commit or the
branch to check out, and the repository to clone from if the settings let the sender name it.  Git
reads an argument that begins with a dash as an option.  Nothing separates the options of a call
from its other arguments, so such a text would be read as an option too.

This file says what the calls are and where each of their arguments comes from.
-/

namespace CiRunner

open RunM

variable {τ α : Type}

/-! ## The calls of serving a request -/

section Serving

variable {P : Action τ → Prop} {host : Host τ}

/-- Trying leads where the computation leads that is tried. -/
lemma RunM.Leads.attempt {R : World τ → World τ → Prop} {m : RunM τ α} (h : Leads host R m) :
    Leads host R (RunM.attempt m) :=
  h

/-- A fresh name is made without any action. -/
lemma RunM.freshName_counts : Leads host (World.Counts P) freshName :=
  fun _ => ⟨[], by simp [freshName_apply], rfl, nofun⟩

/-- The time is told without any action. -/
lemma RunM.now_counts : Leads host (World.Counts P) now :=
  fun _ => ⟨[], by simp [now_apply], rfl, nofun⟩

namespace Receiver

variable (hother : ∀ a : Action τ, a.isGit = false → P a)
include hother

omit hother in
/-- Queueing runs calls no Git. -/
lemma queueRuns_counts (e : Event) (h : RunHistory) (workflows : List Workflow) :
    Leads host (World.Counts P) (queueRuns e h workflows) := by
  induction workflows generalizing h with
  | nil => exact Leads.pure _
  | cons wf rest ih =>
    refine freshName_counts.bind fun runId => now_counts.bind fun time => ?_
    cases recordOf? runId wf e time with
    | none => exact Leads.pure _
    | some record =>
      dsimp only
      split
      · exact (ih _).bind fun _ => Leads.pure _
      · exact Leads.pure _

/-- Answering a request calls no Git. -/
lemma handle_counts (r : Receiver) (q : Request) : Leads host (World.Counts P) (r.handle q) := by
  obtain h | ⟨response, h⟩ := r.handle_cases q (τ := τ)
  · rw [h, notify]
    cases Notification.decide r.settings.webhookSecret r.workflows q with
    | queue e started =>
      refine (queueRuns_counts e r.history started).bind fun answered => ?_
      obtain ⟨result, history, queued⟩ := answered
      cases result with
      | ok _ => exact Leads.pure _
      | error fault => exact Leads.pure _
    | unmatched e => exact (act_counts rfl (hother _ rfl)).bind fun _ => Leads.pure _
    | refuse | dismiss | fault => exact Leads.pure _
  · rw [h]
    exact Leads.pure _

variable [Timeline τ]

/-- Carrying out a run makes the calls of the run. -/
lemma execute_counts {r : Receiver} {run : QueuedRun}
    (hstart : Leads host (World.Counts P)
      (Trigger.start { quiet := true } run.workflow run.event (runOptions r.settings run.event))) :
    Leads host (World.Counts P) (r.execute run) := by
  have hlog : ∀ level text, Leads host (World.Counts P) (log level text) :=
    fun _ _ => act_counts rfl (hother _ rfl)
  have hend : Leads host (World.Counts P) (runToEnd r.settings run) := by
    refine hstart.attempt.bind fun ended => ?_
    rcases ended with fault | result
    · cases fault with
      | interrupted => exact Leads.throw _
      | _ => exact Leads.pure _
    · exact Leads.pure _
  refine (hlog _ _).bind fun _ => hend.bind fun outcome => ?_
  have hlogEnd : Leads host (World.Counts P) (logEnd run.runId outcome) := by
    cases outcome <;> exact hlog _ _
  exact hlogEnd.bind fun _ => now_counts.bind fun _ => Leads.pure _

/-- Carrying out runs makes the calls of the runs. -/
lemma foldlM_execute_counts {r : Receiver} {runs : List QueuedRun}
    (hstart : ∀ run ∈ runs, Leads host (World.Counts P)
      (Trigger.start { quiet := true } run.workflow run.event (runOptions r.settings run.event))) :
    Leads host (World.Counts P) (runs.foldlM execute r) := by
  induction runs generalizing r with
  | nil => exact Leads.pure _
  | cons run rest ih =>
    obtain ⟨hrun, hrest⟩ := List.forall_mem_cons.mp hstart
    intro w
    have hcounts := execute_counts hother hrun w
    rw [List.foldlM_cons, bind_apply]
    rcases hexecute : r.execute run host w with ⟨fault | r', w'⟩
    all_goals rw [hexecute] at hcounts
    · exact hcounts
    · -- the settings stay the same
      obtain ⟨outcome, time, rfl⟩ := eq_of_execute hexecute
      exact trans_of (World.Counts P) hcounts
        (ih (r := { r with history := historyAfter r.history run.runId outcome time }) hrest w')

/-- Serving a request makes the calls of the runs that it queues. -/
theorem serve_counts {r : Receiver} {q : Request}
    (hstart : ∀ kind payload e, Notification.Announces r.settings.webhookSecret q kind payload e →
      e.mark?.isSome = true → ∀ wf ∈ r.workflows, Leads host (World.Counts P)
        (Trigger.start { quiet := true } wf e (runOptions r.settings e))) :
    Leads host (World.Counts P) (r.serve q) := by
  intro w
  have hhandle : World.Counts P w (r.handle q host w).2 := handle_counts hother r q w
  obtain ⟨reply, w₁, hreply⟩ := r.handle_returns q host w
  rw [hreply] at hhandle
  have hruns : ∀ run ∈ reply.queued, Leads host (World.Counts P)
      (Trigger.start { quiet := true } run.workflow run.event
        (runOptions r.settings run.event)) := by
    intro run hrun
    obtain ⟨⟨kind, payload, hannounces⟩, hmem, hmark⟩ := of_mem_queued hreply hrun
    exact hstart kind payload run.event hannounces hmark run.workflow hmem
  have hrest := foldlM_execute_counts hother (r := { r with history := reply.history }) hruns w₁
  rw [serve, bind_apply, hreply]
  dsimp only
  rw [bind_apply]
  rcases hfold : reply.queued.foldlM execute { r with history := reply.history } host w₁ with
    ⟨fault | r', w'⟩
  all_goals
    rw [hfold] at hrest
    exact trans_of (World.Counts P) hhandle hrest

end Receiver

end Serving

/-! ## Where arguments come from -/

/-- Whether Git reads an argument as an option. -/
def Git.isOption (arg : String) : Bool := arg.toList.head? == some '-'

/-- The options that a run gives to Git by itself. -/
def Git.ownOptions : List String :=
  ["--is-inside-work-tree", "--porcelain", "--no-checkout", "--quiet", "--detach"]

/-- The arguments of the calls of Git in an isolated run, with the source that is cloned and the
reference that is checked out. -/
inductive Git.RunCall (source reference : String) : List String → Prop
  /-- It is asked whether the root is a working tree. -/
  | inside : RunCall source reference ["rev-parse", "--is-inside-work-tree"]
  /-- It is asked whether that has changes. -/
  | status : RunCall source reference ["status", "--porcelain"]
  /-- The source is cloned. -/
  | clone (place : Location) :
      RunCall source reference ["clone", "--no-checkout", "--quiet", source, place.text]
  /-- The reference is checked out. -/
  | checkout : RunCall source reference ["checkout", "--quiet", "--detach", reference]
  /-- The reference is fetched. -/
  | fetch : RunCall source reference ["fetch", "--quiet", "origin", reference]
  /-- What was fetched is checked out. -/
  | checkoutFetched : RunCall source reference ["checkout", "--quiet", "--detach", "FETCH_HEAD"]

/-- No checkout of the workflow names a reference of its own. -/
def Workflow.NamesNoReference (wf : Workflow) : Prop :=
  ∀ job ∈ wf.jobs, ∀ step ∈ job.steps, Checkout.isCheckout step = true →
    (step.inputs.value? "ref").getD "" = ""

/-- What is checked out for an event with this branch and this commit: the commit, without one the
branch, and without either the tip. -/
def Event.target : String × Option String → String
  | (branch, sha) =>
    if sha.getD "" ≠ "" then sha.getD "" else if branch ≠ "" then branch else "HEAD"

/-- The text of a place is no option. -/
lemma Location.isOption_text (place : Location) : Git.isOption place.text = false := by
  have hhead : place.text.toList.head? = some '/' := by
    simp [Location.text, String.toList_append]
  simp [Git.isOption, hhead]

/-- What is checked out for an event that can be recorded: its commit, else its branch. -/
lemma Workspace.referenceOf_of_mark {e : Event} {mark : String × Option String}
    (hmark : e.mark? = some mark) :
    referenceOf e = if mark.2.getD "" = "" then mark.1 else mark.2.getD "" := by
  have htext : ∀ s otherwise, textOr (.text s) otherwise = if s = "" then otherwise else s := by
    intro s otherwise
    by_cases h : s = "" <;> simp [textOr, Value.truthy, h]
  obtain ⟨hbranch, hsha⟩ := Event.mark?_eq_some_iff.mp hmark
  have hshown : textOr e.branch "" = mark.1 := by
    rw [hbranch, htext]
    split_ifs with h
    · exact h.symm
    · rfl
  rw [referenceOf, hshown, hsha]
  cases mark.2 with
  | none => rfl
  | some commit => exact htext commit mark.1

/-- What a checkout without a reference of its own checks out in an isolated run for an event. -/
lemma Checkout.reference_isolatedIn {e : Event} {mark : String × Option String}
    (hmark : e.mark? = some mark) {step : Step} (hstep : (step.inputs.value? "ref").getD "" = "")
    (place : Location) (source : String) :
    reference (Workspace.isolatedIn place e source) step = Event.target mark := by
  have hreference : reference (Workspace.isolatedIn place e source) step =
      if Workspace.referenceOf e = "" then "HEAD" else Workspace.referenceOf e := by
    unfold reference
    rcases href : step.inputs.value? "ref" with _ | ref
    · rfl
    · rw [href] at hstep
      obtain rfl : ref = "" := hstep
      rfl
  rw [hreference, Workspace.referenceOf_of_mark hmark, Event.target]
  split_ifs <;> simp_all

/-- A run clones from the source that it is given, or from a place. -/
lemma RunOptions.sourceOn_cases (o : RunOptions) (host : Host τ) :
    o.source = some (o.sourceOn host) ∨ ∃ place : Location, o.sourceOn host = place.text := by
  unfold sourceOn
  split
  · exact Or.inr ⟨_, rfl⟩
  · exact Or.inr ⟨_, rfl⟩
  · rename_i hsource
    exact Or.inl hsource

namespace Receiver

/-- The source of a run is the repository of the settings, or the one that the sender names if the
settings let it. -/
lemma cloneSource_eq_some {s : Settings} {e : Event} {source : String}
    (h : cloneSource s e = some source) :
    s.repoUrl = some source ∨ ¬s.IgnoresSender ∧ source = e.repository.display := by
  have hsender : ∀ url : Option String, s.repoUrl = url → url.getD "" = "" →
      (if s.cloneFromPayload && e.repository.truthy then some e.repository.display else none) =
        some source → ¬s.IgnoresSender ∧ source = e.repository.display := by
    intro url hurl hempty hif
    split_ifs at hif with hlets
    refine ⟨?_, (Option.some.inj hif).symm⟩
    rintro (hnot | ⟨named, hnamed, hne⟩)
    · simp [hnot] at hlets
    · rw [← hurl, hnamed] at hempty
      exact hne hempty
  unfold cloneSource at h
  split at h
  · exact Or.inr (hsender none ‹_› rfl h)
  · exact Or.inr (hsender (some "") ‹_› rfl h)
  · rw [← h]
    exact Or.inl ‹_›

end Receiver

/-! ## The calls of a notification -/

/-- The words that a run gives to Git by itself. -/
def Git.ownWords : List String :=
  ["rev-parse", "status", "clone", "checkout", "fetch", "origin", "FETCH_HEAD"] ++ ownOptions

/-- After words that a run gives by itself comes one more argument. -/
lemma Git.mem_ownWords_or_eq {words : List String} (hwords : words ⊆ ownWords) {last arg : String}
    (harg : arg ∈ words ++ [last]) : arg ∈ ownWords ∨ arg = last :=
  (List.mem_append.mp harg).imp (fun h => hwords h) List.mem_singleton.mp

namespace Git.RunCall

variable {source reference : String} {args : List String} (h : Git.RunCall source reference args)
variable {arg : String} (harg : arg ∈ args)
include h harg

/-- The arguments of a call of a run. -/
lemma mem_cases : arg ∈ ownWords ∨ arg = source ∨ arg = reference ∨
    ∃ place : Location, arg = place.text := by
  cases h with
  | inside =>
    have hwords : ["rev-parse", "--is-inside-work-tree"] ⊆ ownWords := by decide
    exact Or.inl (hwords harg)
  | status =>
    have hwords : ["status", "--porcelain"] ⊆ ownWords := by decide
    exact Or.inl (hwords harg)
  | clone place =>
    have hwords : ["clone", "--no-checkout", "--quiet"] ⊆ ownWords := by decide
    have hparts : arg ∈ ["clone", "--no-checkout", "--quiet"] ++ [source, place.text] := harg
    rcases List.mem_append.mp hparts with hown | hlast
    · exact Or.inl (hwords hown)
    rcases List.mem_pair.mp hlast with rfl | rfl
    · exact Or.inr (Or.inl rfl)
    · exact Or.inr (Or.inr (Or.inr ⟨place, rfl⟩))
  | checkout =>
    have hwords : ["checkout", "--quiet", "--detach"] ⊆ ownWords := by decide
    exact (mem_ownWords_or_eq hwords harg).imp_right fun hlast => Or.inr (Or.inl hlast)
  | fetch =>
    have hwords : ["fetch", "--quiet", "origin"] ⊆ ownWords := by decide
    exact (mem_ownWords_or_eq hwords harg).imp_right fun hlast => Or.inr (Or.inl hlast)
  | checkoutFetched =>
    have hwords : ["checkout", "--quiet", "--detach", "FETCH_HEAD"] ⊆ ownWords := by decide
    exact Or.inl (hwords harg)

/-- An argument that Git reads as an option in a call of a run. -/
lemma of_isOption (hoption : Git.isOption arg = true) :
    arg ∈ ownOptions ∨ arg = source ∨ arg = reference := by
  have hown : ∀ word ∈ ownWords, Git.isOption word = true → word ∈ ownOptions := by decide
  rcases h.mem_cases harg with hword | rfl | rfl | ⟨place, rfl⟩
  · exact Or.inl (hown arg hword hoption)
  · exact Or.inr (Or.inl rfl)
  · exact Or.inr (Or.inr rfl)
  · rw [place.isOption_text] at hoption
    cases hoption

end Git.RunCall

/-- The calls of a checkout without a reference of its own in an isolated run. -/
lemma Checkout.runCall_of_mem_calls {e : Event} {mark : String × Option String}
    (hmark : e.mark? = some mark) {step : Step} (hstep : (step.inputs.value? "ref").getD "" = "")
    (place : Location) (source : String) {call : List String × Option String}
    (hcall : call ∈ calls (Workspace.isolatedIn place e source) step) :
    Git.RunCall source (Event.target mark) call.1 := by
  have hreference := reference_isolatedIn hmark hstep place source
  have hi : (Workspace.isolatedIn place e source).isolated = true := rfl
  simp only [calls, hi, if_true, hreference, List.mem_cons, List.not_mem_nil, or_false] at hcall
  rcases hcall with rfl | rfl | rfl | rfl
  · exact .clone _
  · exact .checkout
  · exact .fetch
  · exact .checkoutFetched

/-- A text that a sender chose is read as an option nowhere if neither what is checked out begins
with a dash nor, if the settings let the sender name the repository, that does. -/
structure Event.Harmless (s : Settings) (mark : String × Option String) (e : Event) : Prop where
  /-- What is checked out does not begin with a dash. -/
  target : Git.isOption (Event.target mark) = false
  /-- Neither does the repository. -/
  repository : ¬s.IgnoresSender → Git.isOption e.repository.display = false

namespace Receiver

section

variable [Timeline τ]

/-- Where the arguments come from with which the runs of a notification call Git, if no workflow
names a reference itself.  Such a call is made for an event that the notification announces.  A
text that the sender chose is an argument as a whole: what is checked out, as the last argument of
a checkout or a fetch, or the repository, as the source of a clone.  So an argument that Git reads
as an option is one that runs give to it by themselves, or the repository of the settings, or what
the sender wants to be checked out or, if the settings let the sender name it, to be cloned.  If
these do not begin with a dash, Git reads none of the sender's texts as an option. -/
theorem serve_git_arguments {r : Receiver} (hr : ∀ wf ∈ r.workflows, wf.NamesNoReference)
    (q : Request) (host : Host τ) (w : World τ) {args : List String} {directory : Option String}
    (hcall : .git args directory ∈ w.added (r.serve q host w).2) :
    ∃ kind payload e mark, Notification.Announces r.settings.webhookSecret q kind payload e ∧
      e.mark? = some mark ∧
      Git.RunCall ((runOptions r.settings e).sourceOn host) (Event.target mark) args ∧
      (∀ arg ∈ args, Git.isOption arg = true →
        arg ∈ Git.ownOptions ∨ r.settings.repoUrl = some arg ∨ arg = Event.target mark ∨
          ¬r.settings.IgnoresSender ∧ arg = e.repository.display) ∧
      (e.Harmless r.settings mark → ∀ arg ∈ args, Git.isOption arg = true →
        arg ∈ Git.ownOptions ∨ r.settings.repoUrl = some arg) := by
  set P : Action τ → Prop := fun a => ∀ args directory, a = .git args directory →
    ∃ kind payload e mark, Notification.Announces r.settings.webhookSecret q kind payload e ∧
      e.mark? = some mark ∧
      Git.RunCall ((runOptions r.settings e).sourceOn host) (Event.target mark) args
  have hother : ∀ a : Action τ, a.isGit = false → P a := by
    rintro a ha args directory rfl
    cases ha
  have hserve : RunM.Leads host (World.Counts P) (r.serve q) := by
    refine serve_counts hother fun kind payload e hannounces hsome wf hwf => ?_
    obtain ⟨mark, hmark⟩ := Option.isSome_iff_exists.mp hsome
    have hmade : ∀ args directory,
        Git.RunCall ((runOptions r.settings e).sourceOn host) (Event.target mark) args →
          P (.git args directory) := by
      rintro args directory hrun _ _ ⟨⟩
      exact ⟨kind, payload, e, mark, hannounces, hmark, hrun⟩
    refine Trigger.start_counts hother (fun _ => hmade _ _ .inside) (fun _ => hmade _ _ .status) _
      rfl fun place job hjob step hstep hcheckout call hmem => hmade _ _ ?_
    exact Checkout.runCall_of_mem_calls hmark (hr wf hwf job hjob step hstep hcheckout) place _ hmem
  obtain ⟨kind, payload, e, mark, hannounces, hmark, hrun⟩ :=
    (hserve w).of_mem_added hcall args directory rfl
  have horigin : ∀ arg ∈ args, Git.isOption arg = true →
      arg ∈ Git.ownOptions ∨ r.settings.repoUrl = some arg ∨ arg = Event.target mark ∨
        ¬r.settings.IgnoresSender ∧ arg = e.repository.display := by
    intro arg harg hoption
    rcases hrun.of_isOption harg hoption with hown | rfl | rfl
    · exact Or.inl hown
    · rcases (runOptions r.settings e).sourceOn_cases host with hsource | ⟨place, hplace⟩
      · exact Or.inr ((cloneSource_eq_some hsource).imp_right Or.inr)
      · rw [hplace, place.isOption_text] at hoption
        cases hoption
    · exact Or.inr (Or.inr (Or.inl rfl))
  refine ⟨kind, payload, e, mark, hannounces, hmark, hrun, horigin, ?_⟩
  intro hharmless arg harg hoption
  rcases horigin arg harg hoption with hown | hurl | rfl | ⟨hlets, rfl⟩
  · exact Or.inl hown
  · exact Or.inr hurl
  · rw [hharmless.target] at hoption
    cases hoption
  · rw [hharmless.repository hlets] at hoption
    cases hoption

end

/-- Whether an action calls Git with these arguments. -/
def isGitCall (args : List String) : Action τ → Bool
  | .git given _ => given == args
  | _ => false

/-- A call of Git that is found in a log was made in some directory. -/
lemma exists_directory_of_any {log : List (Action τ)} {args : List String}
    (h : log.any (isGitCall args) = true) : ∃ directory, .git args directory ∈ log := by
  obtain ⟨a, ha, hcall⟩ := List.any_eq_true.mp h
  cases a with
  | git given directory =>
    obtain rfl : given = args := beq_iff_eq.mp hcall
    exact ⟨directory, ha⟩
  | _ => cases hcall

/-- The checkout of the receiver names no reference. -/
lemma namesNoReference_ofCheckout : ∀ wf ∈ ofCheckout.workflows, wf.NamesNoReference := by
  intro wf hwf job hjob step hstep _
  obtain rfl := List.mem_singleton.mp hwf
  obtain rfl := List.mem_singleton.mp hjob
  obtain rfl := List.mem_singleton.mp hstep
  rfl

/-- For a push to the main branch that names no commit, the branch is checked out. -/
theorem serve_git_arguments_of_push :
    ∃ directory, .git ["checkout", "--quiet", "--detach", "main"] directory ∈
        World.initial.added (ofCheckout.serve pushNamingNone gitHost .initial).2 ∧
      ∃ kind payload e mark, Notification.Announces "" pushNamingNone kind payload e ∧
        e.mark? = some mark ∧
        Git.RunCall ((runOptions {} e).sourceOn gitHost) (Event.target mark)
          ["checkout", "--quiet", "--detach", "main"] := by
  have hmade : (World.initial.added (ofCheckout.serve pushNamingNone gitHost .initial).2).any
      (isGitCall ["checkout", "--quiet", "--detach", "main"]) = true := by decide +kernel
  obtain ⟨directory, hcall⟩ := exists_directory_of_any hmade
  obtain ⟨kind, payload, e, mark, hannounces, hmark, hrun, -⟩ :=
    serve_git_arguments namesNoReference_ofCheckout pushNamingNone gitHost .initial hcall
  exact ⟨directory, hcall, kind, payload, e, mark, hannounces, hmark, hrun⟩

/-- A notification of a push of a commit that reads like an option. -/
def pushOfOption : Request :=
  { pushNamingNone with
    body := Text.Utf8.encode
      "\x7b\"ref\":\"refs/heads/main\",\"after\":\"--upload-pack=touch pwned\"\x7d" }

/-- A host on which Git cannot check anything out. -/
def fetchingHost : Host Float :=
  { gitHost with
    git := fun _ args => some { exitCode := if args.head? = some "checkout" then 1 else 0 } }

/-- Whether an object names a commit. -/
def namesCommit (commit : String) (payload : Value) : Bool :=
  match payload.field "after" with
  | .text after => after == commit
  | _ => false

/-- Git is given a commit that a sender names as an option of a fetch, with nothing before it that
would end the options. -/
theorem commit_fetched_as_option :
    (∀ wf ∈ ofCheckout.workflows, wf.NamesNoReference) ∧
      ∃ payload commit args directory, Json.ofBytes? pushOfOption.body = some payload ∧
        payload.field "after" = .text commit ∧ commit ∈ args ∧ Git.isOption commit = true ∧
        "--" ∉ args ∧ .git args directory ∈
          World.initial.added (ofCheckout.serve pushOfOption fetchingHost .initial).2 := by
  have hmade : (World.initial.added (ofCheckout.serve pushOfOption fetchingHost .initial).2).any
      (isGitCall ["fetch", "--quiet", "origin", "--upload-pack=touch pwned"]) = true := by
    decide +kernel
  have hnames : (Json.ofBytes? pushOfOption.body).any (namesCommit "--upload-pack=touch pwned") =
      true := by decide +kernel
  obtain ⟨directory, hcall⟩ := exists_directory_of_any hmade
  obtain ⟨payload, hpayload, hcommit⟩ := (Option.any_eq_true ..).mp hnames
  refine ⟨namesNoReference_ofCheckout, payload, "--upload-pack=touch pwned", _, directory, hpayload,
    ?_, by decide, rfl, by decide, hcall⟩
  unfold namesCommit at hcommit
  split at hcommit
  · rename_i after hafter
    rw [hafter, beq_iff_eq.mp hcommit]
  · cases hcommit

end Receiver

end CiRunner
