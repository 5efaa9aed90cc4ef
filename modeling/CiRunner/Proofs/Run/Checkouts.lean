import CiRunner.Proofs.Run.Clones

/-!
# Checkouts in isolated working trees

A checkout in an isolated working tree clones the source of the tree and checks a reference out.  If
Git refuses the reference, it is fetched and what was fetched is checked out.  At any other failure
the checkout stops.

All of this is about a Git that is missing or answers what it is asked (`Host.Answers`).

`Checkout.Tries` lists the ways in which this can go, by what Git answers to one call after the
other.  A checkout takes one of them whatever the host is like, and the failure at which it stops is
the failure of its step, never a fault of the run.
-/

namespace CiRunner

open RunM

variable {τ : Type}

/-! ## The answers of Git -/

namespace Host

variable (host : Host τ) (call : GitCall)

/-- What a call of Git comes to unless it is broken off. -/
def reply : Except Git.Failure String :=
  match host.git call.number call.args with
  | none => .error .missing
  | some reply =>
    if reply.exitCode ≠ 0 then .error (.failed call.args reply.exitCode reply.error)
    else .ok (Text.trim reply.output)

/-- Whenever Git is asked this, it is missing or it answers: with the code it exits with and with
what it writes, which is text.  So nobody interrupts it, and the system takes the arguments and the
directory of the call. -/
def Answers (args : List String) : Prop :=
  ∀ n reply, host.git n args = some reply → Git.breach? reply = none

/-- Git is there but does not do what a call asks for. -/
def Refuses : Prop := ∃ code error, host.reply call = .error (.failed call.args code error)

variable {host call}

/-- Of the calls that Git answers, it grants those that give something. -/
lemma grants_iff (hgit : host.Answers call.args) :
    host.Grants call ↔ ∃ answer, host.reply call = .ok answer := by
  unfold Grants reply
  cases hreply : host.git call.number call.args with
  | none => simp
  | some reply =>
    have hquiet : Git.breach? reply = none := hgit _ reply hreply
    by_cases hcode : reply.exitCode = 0
    · exact iff_of_true ⟨reply, rfl, hquiet, hcode⟩ ⟨_, if_neg (not_not_intro hcode)⟩
    · refine iff_of_false ?_ ?_
      · rintro ⟨_, ⟨⟩, -, hzero⟩
        exact hcode hzero
      · rintro ⟨answer, hanswer⟩
        simp [hcode] at hanswer

/-- A failure is that Git is missing, or that it refuses the call. -/
lemma reply_eq_error {failure : Git.Failure} (h : host.reply call = .error failure) :
    failure = .missing ∨ ∃ code error, failure = .failed call.args code error := by
  unfold reply at h
  split at h
  · exact Or.inl (Except.error.inj h).symm
  · split at h
    · exact Or.inr ⟨_, _, (Except.error.inj h).symm⟩
    · cases h

end Host

/-- Git was asked something, by calls that were counted. -/
structure World.Asks (calls : List (List String × Option String)) (w w' : World τ) : Prop where
  /-- The calls are the actions that were added. -/
  actions_eq : w'.actions.toList = w.actions.toList ++ calls.map fun call => .git call.1 call.2
  /-- The calls were counted. -/
  gitCalls_eq : w'.gitCalls = w.gitCalls + calls.length

namespace World.Asks

variable {u v w : World τ} {calls more : List (List String × Option String)}

/-- Git is asked one thing after another. -/
lemma trans (h : Asks calls u v) (h' : Asks more v w) : Asks (calls ++ more) u w where
  actions_eq := by
    rw [h'.actions_eq, h.actions_eq, List.map_append, List.append_assoc]
  gitCalls_eq := by
    rw [h'.gitCalls_eq, h.gitCalls_eq, List.length_append, Nat.add_assoc]

end World.Asks

namespace Git

variable {host : Host τ} {args : List String} (hgit : host.Answers args)
include hgit

/-- A call of Git is made and comes to what Git answers. -/
lemma call_reply (directory : Option String) (w : World τ) :
    ∃ w', (call args directory).run host w = (.ok (host.reply ⟨w.gitCalls, args⟩), w') ∧
      World.Asks [(args, directory)] w w' := by
  rw [call_eq, Host.reply]
  cases hreply : host.git w.gitCalls args with
  | none => exact ⟨_, rfl, World.did_actions .., rfl⟩
  | some reply =>
    refine ⟨_, Prod.ext ?_ rfl, World.did_actions .., rfl⟩
    simp only [hgit _ reply hreply]
    split <;> rfl

section Bind

variable {α β : Type} {m : GitM τ α} {w w' : World τ}

omit hgit in
/-- A computation that calls Git goes on after one that gives a value. -/
lemma run_bind_of_ok {a : α} (h : m.run host w = (.ok (.ok a), w')) (f : α → GitM τ β) :
    (m >>= f).run host w = (f a).run host w' := by
  rw [ExceptT.run_bind, bind_apply, h]

omit hgit in
/-- A computation that calls Git stops after one that fails. -/
lemma run_bind_of_error {failure : Failure} (h : m.run host w = (.ok (.error failure), w'))
    (f : α → GitM τ β) : (m >>= f).run host w = (.ok (.error failure), w') := by
  rw [ExceptT.run_bind, bind_apply, h]
  rfl

end Bind

/-- A call of Git whose answer does not matter. -/
lemma ask_reply (directory : Option String) (w : World τ) :
    ∃ w', (call args directory >>= fun _ => pure () : GitM τ Unit).run host w =
        (.ok ((host.reply ⟨w.gitCalls, args⟩).map fun _ => ()), w') ∧
      World.Asks [(args, directory)] w w' := by
  obtain ⟨w', hcall, hasks⟩ := call_reply hgit directory w
  refine ⟨w', ?_, hasks⟩
  cases hreply : host.reply ⟨w.gitCalls, args⟩ with
  | ok answer => exact run_bind_of_ok (hreply ▸ hcall) _
  | error failure => exact run_bind_of_error (hreply ▸ hcall) _

end Git

/-! ## The ways of a checkout -/

namespace Workspace

variable (ws : Workspace) (reference : String)

/-- The call with which the source of an isolated working tree is cloned. -/
def cloneCall : List String × Option String := (ws.cloneArgs, none)

/-- The call with which a reference is checked out in a working tree. -/
def detachCall : List String × Option String :=
  (["checkout", "--quiet", "--detach", reference], some ws.place.text)

/-- The call with which a reference is fetched into a working tree. -/
def fetchCall : List String × Option String :=
  (["fetch", "--quiet", "origin", reference], some ws.place.text)

end Workspace

section Tries

variable (host : Host τ) (ws : Workspace) (reference : String) (n : ℕ)

/-- The calls of Git with which a reference is checked out in an isolated working tree, numbered
from the first one on, and what they come to. -/
inductive Checkout.Tries : List (List String × Option String) → Except Git.Failure Unit → Prop
  /-- The source is not cloned. -/
  | notCloned {failure : Git.Failure}
      (hclone : host.reply ⟨n, ws.cloneArgs⟩ = .error failure) :
      Tries [ws.cloneCall] (.error failure)
  /-- The reference is checked out. -/
  | detached (hclone : ∃ answer, host.reply ⟨n, ws.cloneArgs⟩ = .ok answer)
      (hdetach : ∃ answer, host.reply ⟨n + 1, (ws.detachCall reference).1⟩ = .ok answer) :
      Tries [ws.cloneCall, ws.detachCall reference] (.ok ())
  /-- Git is missing after the clone. -/
  | lost (hclone : ∃ answer, host.reply ⟨n, ws.cloneArgs⟩ = .ok answer)
      (hdetach : host.reply ⟨n + 1, (ws.detachCall reference).1⟩ = .error .missing) :
      Tries [ws.cloneCall, ws.detachCall reference] (.error .missing)
  /-- The reference is refused, and it is not fetched. -/
  | notFetched {failure : Git.Failure}
      (hclone : ∃ answer, host.reply ⟨n, ws.cloneArgs⟩ = .ok answer)
      (hdetach : host.Refuses ⟨n + 1, (ws.detachCall reference).1⟩)
      (hfetch : host.reply ⟨n + 2, (ws.fetchCall reference).1⟩ = .error failure) :
      Tries [ws.cloneCall, ws.detachCall reference, ws.fetchCall reference] (.error failure)
  /-- The reference is refused and fetched, and what was fetched is checked out or not. -/
  | fetched (hclone : ∃ answer, host.reply ⟨n, ws.cloneArgs⟩ = .ok answer)
      (hdetach : host.Refuses ⟨n + 1, (ws.detachCall reference).1⟩)
      (hfetch : ∃ answer, host.reply ⟨n + 2, (ws.fetchCall reference).1⟩ = .ok answer) :
      Tries [ws.cloneCall, ws.detachCall reference, ws.fetchCall reference,
          ws.detachCall "FETCH_HEAD"]
        ((host.reply ⟨n + 3, (ws.detachCall "FETCH_HEAD").1⟩).map fun _ => ())

/-- Git grants what it takes to check a reference out in an isolated working tree: a clone and the
reference, or a clone and what it fetches where it refuses the reference. -/
def Host.ChecksOut : Prop :=
  host.Grants ⟨n, ws.cloneArgs⟩ ∧
    (host.Grants ⟨n + 1, (ws.detachCall reference).1⟩ ∨
      host.Refuses ⟨n + 1, (ws.detachCall reference).1⟩ ∧
        host.Grants ⟨n + 2, (ws.fetchCall reference).1⟩ ∧
        host.Grants ⟨n + 3, (ws.detachCall "FETCH_HEAD").1⟩)

/-- Git is missing or answers all that it is asked to check a reference out in an isolated working
tree. -/
structure Host.AnswersCheckout : Prop where
  /-- It answers to the clone. -/
  clone : host.Answers ws.cloneArgs
  /-- It answers when the reference is asked for. -/
  detach : host.Answers (ws.detachCall reference).1
  /-- It answers when the reference is fetched. -/
  fetch : host.Answers (ws.fetchCall reference).1
  /-- It answers when what was fetched is asked for. -/
  fetched : host.Answers (ws.detachCall "FETCH_HEAD").1

end Tries

namespace Checkout

variable {host : Host τ} {ws : Workspace} {reference : String}
variable (hgit : host.AnswersCheckout ws reference)
include hgit

/-- What it takes to check a reference out, by what the calls give. -/
lemma checksOut_iff {n : ℕ} : host.ChecksOut ws reference n ↔
    (∃ answer, host.reply ⟨n, ws.cloneArgs⟩ = .ok answer) ∧
      ((∃ answer, host.reply ⟨n + 1, (ws.detachCall reference).1⟩ = .ok answer) ∨
        host.Refuses ⟨n + 1, (ws.detachCall reference).1⟩ ∧
          (∃ answer, host.reply ⟨n + 2, (ws.fetchCall reference).1⟩ = .ok answer) ∧
          ∃ answer, host.reply ⟨n + 3, (ws.detachCall "FETCH_HEAD").1⟩ = .ok answer) :=
  and_congr (Host.grants_iff hgit.clone) (or_congr (Host.grants_iff hgit.detach)
    (and_congr_right fun _ =>
      and_congr (Host.grants_iff hgit.fetch) (Host.grants_iff hgit.fetched)))

/-- A reference is checked out exactly if Git grants what it takes. -/
lemma Tries.eq_ok_iff {n : ℕ} {calls : List (List String × Option String)}
    {answer : Except Git.Failure Unit} (h : Tries host ws reference n calls answer) :
    answer = .ok () ↔ host.ChecksOut ws reference n := by
  rw [checksOut_iff hgit]
  simp only [Host.Refuses]
  cases h with
  | notCloned hclone => simp [hclone]
  | detached hclone hdetach => exact iff_of_true rfl ⟨hclone, Or.inl hdetach⟩
  | lost hclone hdetach => simp [hdetach]
  | notFetched hclone hdetach hfetch =>
    obtain ⟨code, error, hrefused⟩ := hdetach
    simp [hrefused, hfetch]
  | fetched hclone hdetach hfetch =>
    obtain ⟨code, error, hrefused⟩ := hdetach
    have hdone : (∃ answer, host.reply ⟨n + 3, (ws.detachCall "FETCH_HEAD").1⟩ = .ok answer) ↔
        (host.reply ⟨n + 3, (ws.detachCall "FETCH_HEAD").1⟩).map (fun _ => ()) = .ok () := by
      cases host.reply ⟨n + 3, (ws.detachCall "FETCH_HEAD").1⟩ <;> simp [Except.map]
    simp [hrefused, hclone, hfetch, hdone]

variable (ws) (reference) in
/-- A reference that is fetched before it is checked out. -/
lemma fetchAndDetach_reply (w : World τ) :
    ∃ w', ((∃ failure, host.reply ⟨w.gitCalls, (ws.fetchCall reference).1⟩ = .error failure ∧
          (Git.fetchAndDetach reference ws.place.text).run host w = (.ok (.error failure), w') ∧
          World.Asks [ws.fetchCall reference] w w') ∨
        (∃ answer, host.reply ⟨w.gitCalls, (ws.fetchCall reference).1⟩ = .ok answer) ∧
          (Git.fetchAndDetach reference ws.place.text).run host w =
            (.ok ((host.reply ⟨w.gitCalls + 1, (ws.detachCall "FETCH_HEAD").1⟩).map fun _ => ()),
              w') ∧
          World.Asks [ws.fetchCall reference, ws.detachCall "FETCH_HEAD"] w w') := by
  obtain ⟨w₁, hfetch, hasks⟩ := Git.call_reply hgit.fetch (ws.fetchCall reference).2 w
  have hrun : Git.fetchAndDetach reference ws.place.text =
      (Git.call (ws.fetchCall reference).1 (ws.fetchCall reference).2 >>= fun _ =>
        Git.detach "FETCH_HEAD" ws.place.text : Git.GitM τ Unit) := rfl
  rw [hrun]
  cases hreply : host.reply ⟨w.gitCalls, (ws.fetchCall reference).1⟩ with
  | error failure =>
    rw [hreply] at hfetch
    exact ⟨w₁, Or.inl ⟨failure, rfl, Git.run_bind_of_error hfetch _, hasks⟩⟩
  | ok answer =>
    rw [hreply] at hfetch
    rw [Git.run_bind_of_ok hfetch]
    obtain ⟨w₂, hdetach, hasks'⟩ :=
      Git.ask_reply hgit.fetched (ws.detachCall "FETCH_HEAD").2 w₁
    rw [hasks.gitCalls_eq] at hdetach
    exact ⟨w₂, Or.inr ⟨⟨answer, rfl⟩, hdetach, hasks.trans hasks'⟩⟩

variable (ws) (reference) in
/-- A reference is fetched if Git refuses to check it out, and only then. -/
lemma checkout_reply (w : World τ) :
    ∃ w', World.Asks [ws.detachCall reference] w w' ∧
      (Git.checkout reference ws.place.text).run host w =
        match host.reply ⟨w.gitCalls, (ws.detachCall reference).1⟩ with
        | .error (.failed ..) => (Git.fetchAndDetach reference ws.place.text).run host w'
        | answer => (.ok (answer.map fun _ => ()), w') := by
  obtain ⟨w', hdetach, hasks⟩ := Git.ask_reply hgit.detach (ws.detachCall reference).2 w
  have hrun : (Git.detach reference ws.place.text).run host w = _ := hdetach
  refine ⟨w', hasks, ?_⟩
  rw [Git.checkout, ExceptT.run_mk, bind_apply, hrun]
  rcases host.reply ⟨w.gitCalls, (ws.detachCall reference).1⟩ with (_ | _) | _ <;> rfl

variable (ws) (reference) in
/-- Cloning a working tree and checking a reference out goes one of the ways there are. -/
theorem clone_tries (w : World τ) :
    ∃ calls answer w', Tries host ws reference w.gitCalls calls answer ∧
      (clone ws reference).run host w = (.ok answer, w') ∧ World.Asks calls w w' := by
  obtain ⟨w₁, hclone, hasks⟩ := Git.ask_reply hgit.clone none w
  have hrun : clone ws reference =
      ((Git.call ws.cloneArgs none >>= fun _ => pure ()) >>= fun _ =>
        Git.checkout reference ws.place.text : Git.GitM τ Unit) := rfl
  rw [hrun]
  cases hcloned : host.reply ⟨w.gitCalls, ws.cloneArgs⟩ with
  | error failure =>
    rw [hcloned] at hclone
    exact ⟨_, _, w₁, .notCloned hcloned, Git.run_bind_of_error hclone _, hasks⟩
  | ok answer =>
    rw [hcloned] at hclone
    rw [Git.run_bind_of_ok hclone]
    obtain ⟨w₂, hasks₂, hcheckout⟩ := checkout_reply ws reference hgit w₁
    have hboth : World.Asks [ws.cloneCall, ws.detachCall reference] w w₂ := hasks.trans hasks₂
    rw [hcheckout, hasks.gitCalls_eq]
    cases hdetached : host.reply ⟨w.gitCalls + 1, (ws.detachCall reference).1⟩ with
    | ok answer' => exact ⟨_, _, w₂, .detached ⟨answer, hcloned⟩ ⟨answer', hdetached⟩, rfl, hboth⟩
    | error failure =>
      rcases Host.reply_eq_error hdetached with rfl | ⟨code, error, rfl⟩
      · exact ⟨_, _, w₂, .lost ⟨answer, hcloned⟩ hdetached, rfl, hboth⟩
      -- the reference is refused
      have hrefused : host.Refuses ⟨w.gitCalls + 1, (ws.detachCall reference).1⟩ :=
        ⟨code, error, hdetached⟩
      obtain ⟨w₃, ⟨failure, hfetch, hrun₃, hasks₃⟩ | ⟨hfetch, hrun₃, hasks₃⟩⟩ :=
        fetchAndDetach_reply ws reference hgit w₂
      all_goals rw [hboth.gitCalls_eq] at hfetch
      · exact ⟨_, _, w₃, .notFetched ⟨answer, hcloned⟩ hrefused hfetch, hrun₃,
          hboth.trans hasks₃⟩
      · rw [hboth.gitCalls_eq] at hrun₃
        exact ⟨_, _, w₃, .fetched ⟨answer, hcloned⟩ hrefused hfetch, hrun₃, hboth.trans hasks₃⟩

end Checkout

/-! ## The step of a checkout -/

/-- What is wrong with a checkout that Git does not let through. -/
def Checkout.diagnosis (job : Job) (step : Step) (failure : Git.Failure) : Diagnosis where
  kind := "checkout_failed"
  job := job.name
  step := some step.name
  message := failure.message

/-- What comes of the step of a checkout. -/
def Checkout.outcome (job : Job) (step : Step) : Except Git.Failure Unit → Outcome
  | .ok () => .success
  | .error failure => .refused (diagnosis job step failure)

/-- The action of a checkout in an isolated working tree goes one of the ways there are, and comes
to its outcome. -/
lemma Sequence.runAction_tries {host : Host τ} {ws : Workspace} (hi : ws.isolated = true)
    (job : Job) {step : Step} (hgit : host.AnswersCheckout ws (Checkout.reference ws step))
    (hc : Checkout.isCheckout step = true) (w : World τ) :
    ∃ calls answer log,
      Checkout.Tries host ws (Checkout.reference ws step) w.gitCalls calls answer ∧
      (runAction ws job step host w).1 = .ok (Checkout.outcome job step answer) ∧
      (runAction ws job step host w).2.actions.toList = w.actions.toList ++ log ∧
      deeds log = calls.map fun call => .git call.1 call.2 := by
  obtain ⟨calls, answer, w', htries, hrun, hasks⟩ :=
    Checkout.clone_tries ws (Checkout.reference ws step) hgit w
  have hdeeds : deeds (calls.map fun call => (.git call.1 call.2 : Action τ)) =
      calls.map fun call => .git call.1 call.2 := by
    refine deeds_of_isGit fun a ha => ?_
    obtain ⟨call, -, rfl⟩ := List.mem_map.mp ha
    rfl
  rw [runAction, if_pos hc, Checkout.perform, if_pos hi]
  simp only [bind_apply, hrun]
  cases answer with
  | error failure => exact ⟨calls, _, _, htries, rfl, hasks.actions_eq, hdeeds⟩
  | ok _ =>
    -- what was done is told
    set told : Action τ := .tell (Console.info ("checked out " ++ Checkout.reference ws step ++
      " from " ++ ws.source ++ Checkout.label step)) with htold
    refine ⟨calls, _, (calls.map fun call => .git call.1 call.2) ++ [told], htries, rfl, ?_, ?_⟩
    · rw [← List.append_assoc, ← hasks.actions_eq]
      exact World.did_actions w' [told]
    · rw [deeds_append, hdeeds, htold, deeds_tell, deeds_nil, List.append_nil]

/-! ## What is checked out -/

/-- The first of some texts that is there and not empty. -/
def firstText (texts : List (Option String)) (otherwise : String) : String :=
  (texts.reduceOption.find? fun text => text != "").getD otherwise

@[simp] lemma firstText_nil (otherwise : String) : firstText [] otherwise = otherwise := rfl

/-- A text that is missing or empty is passed over. -/
@[simp] lemma firstText_cons (text : Option String) (rest : List (Option String))
    (otherwise : String) :
    firstText (text :: rest) otherwise =
      if text.getD "" = "" then firstText rest otherwise else text.getD "" := by
  cases text with
  | none => rfl
  | some text =>
    by_cases h : text = ""
    · simp [firstText, h]
    · simp [firstText, h]

/-- The text of a value that may be missing. -/
lemma Workspace.textOr_ofText? (text : Option String) (otherwise : String) :
    textOr (.ofText? text) otherwise = firstText [text] otherwise := by
  rcases text with _ | text
  · rfl
  · by_cases h : text = ""
    · simp [textOr, Value.ofText?, Value.truthy, h]
    · simp [textOr, Value.ofText?, Value.truthy, Value.display_text, h]

/-- What is checked out in an isolated working tree for an event: what the step asks for, else the
commit of the event, else its branch, else the tip. -/
lemma Checkout.reference_eq {e : Event} {branch : String} {sha : Option String}
    (hbranch : e.branch = .text branch) (hsha : e.sha = .ofText? sha) {ws : Workspace}
    (hws : ws.reference = Workspace.referenceOf e) (step : Step) :
    reference ws step = firstText [step.inputs.value? "ref", sha, some branch] "HEAD" := by
  have hevent : ws.reference = firstText [sha, some branch] "" := by
    have hb : Value.text branch = .ofText? (some branch) := rfl
    rw [hws, Workspace.referenceOf, hbranch, hsha, hb, Workspace.textOr_ofText?,
      Workspace.textOr_ofText?]
    simp
  have hrest : (if ws.reference = "" then "HEAD" else ws.reference) =
      firstText [sha, some branch] "HEAD" := by
    rw [hevent]
    by_cases hsha : sha.getD "" = ""
    · by_cases hbranch : branch = ""
      · simp [hsha, hbranch]
      · simp [hsha, hbranch]
    · simp [hsha]
  rw [firstText_cons, ← hrest]
  rcases hgiven : step.inputs.value? "ref" with _ | given
  · simp only [reference, hgiven]
    rfl
  · by_cases hempty : given = ""
    · simp only [reference, hgiven, hempty]
      rfl
    · simp only [reference, hgiven, Option.getD_some, if_neg hempty]

/-! ## Runs -/

section Runs

variable [Timeline τ] (c : Console) (ws : Workspace) (base : Environment)

/-- The calls of Git that a step makes are among its deeds. -/
lemma Visit.ended_gitCalls (host : Host τ) (v : Visit τ) :
    (v.ended c ws base host).2.gitCalls =
      v.world.gitCalls + (v.part c ws base host).countP Action.isGit := by
  obtain ⟨log, hlog, hcount, -⟩ := v.ended_counts c ws base host
  obtain ⟨log', hlog', hdeeds⟩ := v.ended_log c ws base host
  have hsame : log = log' := List.append_cancel_left (hlog.symm.trans hlog')
  rw [hcount, ← hdeeds, ← hsame, countP_deeds fun _ => rfl]

/-- A visit starts after the calls of Git that the visits before it make. -/
lemma Course.gitCalls_eq {host : Host τ} {base : Environment} {w w' : World τ}
    {visits : List (Visit τ)} {progress : Progress}
    (h : Course c ws base host w visits progress w') {k : ℕ} {v : Visit τ}
    (hv : visits[k]? = some v) :
    v.world.gitCalls = w.gitCalls +
      ((visits.map fun v => v.part c ws base host).take k).flatten.countP Action.isGit := by
  induction h generalizing k with
  | finished w => simp at hv
  | told m h ih => exact ih hv
  | @success u r w₁ w' visits progress hrun hr hrest ih =>
    cases k with
    | zero =>
      cases hv
      rfl
    | succ k =>
      have hnext := u.ended_gitCalls c ws base host
      rw [hrun] at hnext
      rw [ih hv, hnext, List.map_cons, List.take_succ_cons, List.flatten_cons, List.countP_append,
        Nat.add_assoc]
  | failure | fault =>
    cases k with
    | zero =>
      cases hv
      rfl
    | succ k => cases hv

/-- A step that comes to a result leaves the mark of its end behind. -/
lemma Visit.endStep_mem (host : Host τ) (v : Visit τ) {r : StepResult}
    (hr : (v.ended c ws base host).1 = .ok r) :
    .endStep r (v.ended c ws base host).2.clock ∈ v.part c ws base host := by
  refine List.mem_cons_of_mem _ (List.mem_append_right _ ?_)
  rw [closing, hr]
  exact List.mem_singleton_self _

/-- The step of a checkout in an isolated working tree goes one of the ways there are: it succeeds
if the reference is checked out, and fails with what Git says if not. -/
lemma Visit.tries {host : Host τ} {ws : Workspace} (hi : ws.isolated = true) {v : Visit τ}
    (hgit : host.AnswersCheckout ws (Checkout.reference ws v.step))
    (hc : Checkout.isCheckout v.step = true) :
    ∃ calls answer r,
      Checkout.Tries host ws (Checkout.reference ws v.step) v.world.gitCalls calls answer ∧
      (v.part c ws base host).filter Action.isGit =
        calls.map (fun call => .git call.1 call.2) ∧
      (v.ended c ws base host).1 = .ok r ∧ (r.status = .success ↔ answer = .ok ()) ∧
      ∀ failure, answer = .error failure → r.status = .failure ∧
        r.error = some (Checkout.diagnosis v.job v.step failure).text := by
  obtain ⟨calls, answer, log, htries, hresult, hlog, hdeeds⟩ :=
    Sequence.runAction_tries hi v.job hgit hc (v.opened c)
  have hbody : v.body c ws base host = Sequence.runAction ws v.job v.step host (v.opened c) := by
    rw [body, Sequence.runBody, if_pos (Checkout.isAction_of_isCheckout hc)]
  rw [← hbody] at hresult hlog
  have hpart : (v.part c ws base host).filter Action.isGit =
      calls.map fun call => .git call.1 call.2 := by
    have hall : ∀ call ∈ calls.map fun call => (.git call.1 call.2 : Action τ),
        call.isGit = true := by
      rintro _ hcall
      obtain ⟨call, -, rfl⟩ := List.mem_map.mp hcall
      rfl
    have hclosing : (v.closing c ws base host).filter Action.isGit = [] := by
      refine List.filter_eq_nil_iff.mpr fun a ha => ?_
      obtain ⟨r, -, rfl⟩ := v.mem_closing c ws base host ha
      exact Bool.false_ne_true
    rw [part, List.filter_cons_of_neg Bool.false_ne_true, List.filter_append,
      v.bodyDeeds_eq c ws base host log hlog, hdeeds, List.filter_eq_self.mpr hall, hclosing,
      List.append_nil]
  rcases v.ended_cases c ws base host with ⟨e, he, -⟩ | ⟨outcome, r, hb, hended, hr, -⟩
  · cases he.symm.trans hresult
  · cases hb.symm.trans hresult
    refine ⟨calls, answer, r, htries, hpart, hended, ?_, ?_⟩
    · cases answer <;> simp [hr, Checkout.outcome, Sequence.resultOf]
    · rintro failure rfl
      rw [hr]
      exact ⟨rfl, rfl⟩

/-- A run in which a step fails comes to its end, and the result of the step is in its results. -/
lemma Sequence.run_of_failure {host : Host τ} {wf : Workflow} {e : Event} {w : World τ} {k : ℕ}
    {job : Job} {step : Step} (hstep : wf.steps[k]? = some (job, step))
    {part : List (Action τ)} (hpart : (partsOf (runDeeds c ws host wf e w))[k]? = some part)
    {r : StepResult} {stop : τ} (hr : .endStep r stop ∈ part) (hstatus : r.status = .failure) :
    ∃ result, (run c wf e ws host w).1 = .ok result ∧ result.steps[k]? = some r := by
  obtain ⟨visits, hcourse, hjobs, -, hparts⟩ := run_visits c ws host wf e w
  have hrun := run_parts c ws host wf e w
  rw [hparts, List.getElem?_map] at hpart
  obtain ⟨v, hv, rfl⟩ := Option.map_eq_some_iff.mp hpart
  obtain ⟨hended, -⟩ := v.endStep_mem_part c ws _ host hr
  -- the failure is the end of the course
  have hprogress : Progress.of ((run c wf e ws host w).1.map RunResult.steps) = .failed := by
    rcases hcourse.split (Course.eq_take_cons_drop hv) with
      ⟨r', hr', hsuccess, -⟩ | ⟨-, -, ⟨r', -, -, h⟩ | ⟨fault, hfault, -⟩⟩
    · cases hr'.symm.trans hended
      cases hsuccess.symm.trans hstatus
    · exact h
    · cases hfault.symm.trans hended
  cases hresult : (run c wf e ws host w).1 with
  | error fault =>
    rw [hresult] at hprogress
    cases hprogress
  | ok result =>
    rw [hresult] at hrun
    obtain ⟨s, hs, hentry⟩ := hrun.entry hstep
    have hpart' : (partsOf (runDeeds c ws host wf e w))[k]? =
        some (v.part c ws (runVariables wf e ws.place) host) := by
      rw [hparts, List.getElem?_map, hv, Option.map_some]
    have hsame : ∀ {part' : List (Action τ)},
        (partsOf (runDeeds c ws host wf e w))[k]? = some part' →
        StepLog host ws job step (some s) part' → s = r := by
      intro part' hpart'' hlog
      cases hpart'.symm.trans hpart''
      obtain ⟨stop', hend⟩ := hlog.exists_endStep
      cases hended.symm.trans (v.endStep_mem_part c ws _ host hend).1
      rfl
    refine ⟨result, rfl, hs.trans ?_⟩
    cases hentry with
    | success _ hpart'' hlog => rw [hsame hpart'' hlog]
    | failure _ hpart'' hlog => rw [hsame hpart'' hlog]
    | skipped _ hnone => cases hpart'.symm.trans hnone

end Runs

/-- A host on which Git refuses the second thing it is asked, and nothing else. -/
def refusingHost : Host Float :=
  { Host.scripted [] with git := fun n _ => some { exitCode := if n = 1 then 1 else 0 } }

end CiRunner
