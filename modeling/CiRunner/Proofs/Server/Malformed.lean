import CiRunner.Proofs.Branch.Validity
import CiRunner.Proofs.Event.Announced
import CiRunner.Proofs.Event.Starting
import CiRunner.Proofs.Plain
import CiRunner.Proofs.Server.Queueing
import CiRunner.Proofs.Success

/-!
# Malformed notifications

A notification brings an object whose parts may be anything.  A part that is missing, and a
reference of a push that names neither a branch nor a tag, are reported to the sender.  A part
that is there but of another kind than expected is not looked at before it is used, and then it
breaks the receiver off.

This file says which objects do so, and that no other does.
-/

namespace CiRunner

variable {τ : Type}

/-! ## Parts of the wrong kind -/

/-- A value that is no text. -/
def Value.IsNoText (v : Value) : Prop := ∀ s, v ≠ .text s

/-- A value that is a text or nothing. -/
def Value.IsOptionalText (v : Value) : Prop := v = .null ∨ ∃ s, v = .text s

/-- The branch of an event is a text and its commit a text or nothing. -/
structure Event.HasTexts (e : Event) : Prop where
  /-- The branch is a text. -/
  branch : ∃ s, e.branch = .text s
  /-- The commit is a text or nothing. -/
  sha : e.sha.IsOptionalText

/-- An event can be recorded exactly if its branch and its commit are texts. -/
lemma Event.mark?_isSome_iff {e : Event} : e.mark?.isSome = true ↔ e.HasTexts := by
  rw [Option.isSome_iff_exists]
  constructor
  · rintro ⟨⟨branch, sha⟩, hmark⟩
    obtain ⟨hbranch, hsha⟩ := mark?_eq_some_iff.mp hmark
    refine ⟨⟨branch, hbranch⟩, ?_⟩
    cases sha with
    | none => exact Or.inl hsha
    | some sha => exact Or.inr ⟨sha, hsha⟩
  · rintro ⟨⟨branch, hbranch⟩, hsha | ⟨sha, hsha⟩⟩
    · exact ⟨(branch, none), mark?_eq_some_iff.mpr ⟨hbranch, hsha⟩⟩
    · exact ⟨(branch, some sha), mark?_eq_some_iff.mpr ⟨hbranch, hsha⟩⟩

namespace Event

/-- An object announces an event of a kind, but a part that is used to make it is of the wrong
kind. -/
inductive Unreadable (kind : String) (payload : Value) : Prop
  /-- The repository is. -/
  | repository (h : (payload.field "repository").IsMisplaced)
  /-- The reference of a push is no text. -/
  | reference {v : Value} (hkind : kind = pushKind) (hv : payload.get? "ref" = some v)
      (h : v.IsNoText)
  /-- The commit at the head of a pushed branch or tag is. -/
  | headCommit {v : Value} {name : String × String} (hkind : kind = pushKind)
      (hv : payload.get? "ref" = some v) (hname : ofRef v = .ok name)
      (h : (payload.field "head_commit").IsMisplaced)

/-- A reference is of the wrong kind exactly if it is no text. -/
lemma ofRef_eq_wrongPart_iff {v : Value} : ofRef v = .error .wrongPart ↔ v.IsNoText := by
  cases v with
  | text s =>
    refine iff_of_false (fun h => ?_) fun h => h s rfl
    unfold ofRef at h
    dsimp only at h
    split at h <;> cases h
  | _ => exact iff_of_true rfl (by simp [Value.IsNoText])

/-- A part is there, or it is missing. -/
lemma require_cases (payload : Value) (path : List String) :
    (∃ v, require payload path = .ok v) ∨ require payload path = .error (.missing path) := by
  unfold require
  split
  · exact Or.inl ⟨_, rfl⟩
  · exact Or.inr rfl

/-- A part of an object is there exactly if it is found under its key. -/
lemma require_singleton_eq_ok_iff {payload v : Value} {key : String} :
    require payload [key] = .ok v ↔ payload.get? key = some v := by
  unfold require
  rw [List.foldlM_cons]
  cases payload.get? key with
  | none => exact iff_of_false nofun nofun
  | some u =>
    exact ⟨fun h => congrArg some (Except.ok.inj h), fun h => congrArg _ (Option.some.inj h)⟩

/-- What is looked up is not of the wrong kind. -/
lemma require_ne_wrongPart (payload : Value) (path : List String) :
    require payload path ≠ .error .wrongPart := by
  rcases require_cases payload path with ⟨v, h⟩ | h <;> simp [h]

/-- A part that may be missing is of the wrong kind. -/
lemma optionalField_eq_wrongPart_iff {part : Value} {key : String} :
    optionalField part key = .error .wrongPart ↔ part.IsMisplaced := by
  rcases optionalField_cases part key with ⟨h, heq⟩ | ⟨h, v, heq⟩ <;> simp [h, heq]

/-- A push cannot be made for a part of the wrong kind exactly if its reference is no text, or it
names a branch or a tag and the commit at its head is no object. -/
lemma pushOf_eq_wrongPart_iff {payload repository : Value} :
    pushOf payload repository = .error .wrongPart ↔
      ∃ v, payload.get? "ref" = some v ∧ (v.IsNoText ∨
        (∃ name, ofRef v = .ok name) ∧ (payload.field "head_commit").IsMisplaced) := by
  simp only [pushOf, Success.bind_eq_error_iff, require_ne_wrongPart, false_or,
    require_singleton_eq_ok_iff, ofRef_eq_wrongPart_iff, optionalField_eq_wrongPart_iff,
    Success.pure_ne_error, and_false, exists_false, or_false, exists_and_right]

/-- A pull request can be made whatever its parts are, if they are there. -/
lemma pullRequestOf_ne_wrongPart (payload repository : Value) :
    pullRequestOf payload repository ≠ .error .wrongPart := by
  simp only [pullRequestOf, ne_eq, Success.bind_eq_error_iff, require_ne_wrongPart,
    Success.pure_ne_error, and_false, exists_false, or_false, not_false_eq_true]

/-- An event cannot be made for a part of the wrong kind exactly if one of the parts is that are
used to make it. -/
lemma ofPayload_eq_wrongPart_iff {kind : String} (hkind : kind ∈ eventKinds) {payload : Value}
    (hmap : payload.isMap = true) :
    ofPayload kind payload = .error .wrongPart ↔ Unreadable kind payload := by
  have hrepository : ∀ make : Value → Except EventError Event,
      optionalField (payload.field "repository") "clone_url" >>= make = .error .wrongPart ↔
        (payload.field "repository").IsMisplaced ∨
          ∃ v, optionalField (payload.field "repository") "clone_url" = .ok v ∧
            make v = .error .wrongPart := by
    intro make
    rw [Success.bind_eq_error_iff, optionalField_eq_wrongPart_iff]
  rcases List.mem_pair.mp hkind with rfl | rfl
  · rw [ofPayload_push hmap, hrepository]
    simp only [pushOf_eq_wrongPart_iff]
    constructor
    · rintro (h | ⟨-, -, v, hv, h | ⟨⟨name, hname⟩, h⟩⟩)
      · exact .repository h
      · exact .reference rfl hv h
      · exact .headCommit rfl hv hname h
    · intro h
      rcases optionalField_cases (payload.field "repository") "clone_url" with
        ⟨hmisplaced, -⟩ | ⟨hnot, u, hu⟩
      · exact Or.inl hmisplaced
      · refine Or.inr ⟨u, hu, ?_⟩
        cases h with
        | repository h => exact absurd h hnot
        | reference _ hv h => exact ⟨_, hv, Or.inl h⟩
        | headCommit _ hv hname h => exact ⟨_, hv, Or.inr ⟨⟨_, hname⟩, h⟩⟩
  · have hkinds : pullRequestKind ≠ pushKind := by decide
    rw [ofPayload_pullRequest hmap, hrepository]
    simp only [pullRequestOf_ne_wrongPart, and_false, exists_false, or_false]
    constructor
    · exact .repository
    · intro h
      cases h with
      | repository h => exact h
      | reference h | headCommit h => exact absurd h hkinds

end Event

/-! ## Valid patterns -/

/-- Something holds of every pattern of a workflow. -/
structure Workflow.EveryPattern (wf : Workflow) (holds : String → Prop) : Prop where
  /-- It holds of the patterns of the entries. -/
  branches : ∀ rule ∈ wf.triggers, ∀ entries, rule.branches = some entries →
    ∀ entry ∈ entries, holds (Branch.Pattern.patternOf entry)
  /-- It holds of the patterns that are left out. -/
  ignored : ∀ rule ∈ wf.triggers, ∀ patterns, rule.branchesIgnore = some patterns →
    ∀ p ∈ patterns, holds p

/-- It is enough that it holds of the only pattern. -/
lemma Workflow.everyPattern_of_single {wf : Workflow} {holds : String → Prop} {event entry : String}
    (h : wf.triggers = [{ event, branches := some [entry] }])
    (hentry : holds (Branch.Pattern.patternOf entry)) : wf.EveryPattern holds := by
  constructor
  all_goals
    intro rule hrule
    rw [h] at hrule
    obtain rfl := List.mem_singleton.mp hrule
  · intro entries hentries other hother
    obtain rfl := Option.some.inj hentries
    obtain rfl := List.mem_singleton.mp hother
    exact hentry
  · intro patterns hpatterns
    cases hpatterns

/-- All patterns of a workflow are valid. -/
abbrev Workflow.HasValidPatterns (wf : Workflow) : Prop := wf.EveryPattern Branch.Pattern.IsValid

/-- All patterns of a workflow are plain. -/
abbrev Workflow.HasPlainPatterns (wf : Workflow) : Prop := wf.EveryPattern Branch.Pattern.IsPlain

/-- An event whose branch is a text can be compared with valid patterns. -/
lemma Workflow.HasValidPatterns.comparesWith {wf : Workflow} (h : wf.HasValidPatterns) {e : Event}
    {branch : String} (hbranch : e.branch = .text branch) : wf.ComparesWith e := by
  have hcomparable : ∀ {p : String}, Branch.Pattern.IsValid p →
      Branch.Pattern.Comparable e.branch p :=
    fun hvalid hsigns => ⟨hvalid hsigns, branch, hbranch⟩
  have hrules : ∀ rule ∈ wf.triggers, rule.Comparable e.branch := fun rule hrule =>
    ⟨fun entries hentries entry hentry =>
        hcomparable (h.branches rule hrule entries hentries entry hentry),
      fun patterns hpatterns p hp => hcomparable (h.ignored rule hrule patterns hpatterns p hp)⟩
  exact ⟨_, Workflow.shouldRun_eq hrules⟩

/-! ## What breaks the receiver off -/

namespace Notification

/-- A notification brings an object that announces an event of some kind, and does not tell of a
branch that was deleted. -/
structure Brings (q : Request) (kind : String) (payload : Value) : Prop where
  /-- A header names the kind of event. -/
  kind_eq : q.header? eventHeader = some kind
  /-- The kind is one that can start runs. -/
  supported : kind ∈ eventKinds
  /-- The body can be read. -/
  payload_eq : Json.ofBytes? q.body = some payload
  /-- It is an object. -/
  isMap : payload.isMap = true
  /-- The object does not tell of a branch that was deleted. -/
  kept : (payload.field "deleted").truthy = false

/-- An object that announces an event breaks a receiver with these workflows off. -/
inductive Breaks (workflows : List Workflow) (kind : String) (payload : Value) : Prop
  /-- A part that is used to make the event is of the wrong kind. -/
  | unreadable (h : Event.Unreadable kind payload)
  /-- The branch is no text and cannot be compared with a pattern. -/
  | incomparable {e : Event} {wf : Workflow} (he : Event.ofPayload kind payload = .ok e)
      (hbranch : e.branch.IsNoText) (hwf : wf ∈ workflows) (h : ¬wf.ComparesWith e)
  /-- The event starts a workflow, but its branch is no text, or its commit is neither a text nor
  nothing. -/
  | unrecordable {e : Event} {started : List Workflow} (he : Event.ofPayload kind payload = .ok e)
      (hstarts : decideEvent workflows e = .queue e started) (h : ¬e.HasTexts)

end Notification

/-- A decision that breaks the receiver off. -/
inductive Decision.IsBroken : Decision → Prop
  /-- A fault was found. -/
  | fault (reason : NotificationFault) : IsBroken (.fault reason)
  /-- The event cannot be recorded. -/
  | queue {e : Event} (started : List Workflow) (h : ¬e.HasTexts) : IsBroken (.queue e started)

namespace Notification

variable {workflows : List Workflow} {kind : String} {payload : Value} {q : Request}

/-- An event breaks the receiver off exactly if it cannot be compared or recorded. -/
lemma isBroken_decideEvent_iff (hvalid : ∀ wf ∈ workflows, wf.HasValidPatterns) {e : Event} :
    (decideEvent workflows e).IsBroken ↔
      (e.branch.IsNoText ∧ ∃ wf ∈ workflows, ¬wf.ComparesWith e) ∨
        ∃ started, decideEvent workflows e = .queue e started ∧ ¬e.HasTexts := by
  cases hmatching : matching e workflows with
  | error reason =>
    have hdecide : decideEvent workflows e = .fault (.pattern reason) := by
      rw [decideEvent, hmatching]
    -- a branch that is a text could have been compared
    have hnot : ∃ wf ∈ workflows, ¬wf.ComparesWith e := by
      by_contra hall
      push Not at hall
      cases hmatching.symm.trans (matching_eq_ok_iff.mpr ⟨hall, rfl⟩)
    have hbranch : e.branch.IsNoText := by
      obtain ⟨wf, hwf, hcompares⟩ := hnot
      exact fun branch hbranch => hcompares ((hvalid wf hwf).comparesWith hbranch)
    rw [hdecide]
    exact iff_of_true (.fault _) (Or.inl ⟨hbranch, hnot⟩)
  | ok started =>
    have hcompares : ∀ wf ∈ workflows, wf.ComparesWith e := (matching_eq_ok_iff.mp hmatching).1
    have hnone : ¬(e.branch.IsNoText ∧ ∃ wf ∈ workflows, ¬wf.ComparesWith e) := by
      rintro ⟨-, wf, hwf, hnot⟩
      exact hnot (hcompares wf hwf)
    rw [or_iff_right hnone, decideEvent, hmatching]
    cases started with
    | nil =>
      constructor
      · rintro ⟨⟩
      · rintro ⟨started, h, -⟩
        cases h
    | cons wf rest =>
      constructor
      · rintro ⟨⟩
        exact ⟨_, rfl, ‹_›⟩
      · rintro ⟨started, -, h⟩
        exact .queue _ h

/-- What is decided about an object depends on the event that is made of it. -/
lemma decidePayload_cases (workflows : List Workflow) (hkind : kind ∈ eventKinds)
    (hkept : (payload.field "deleted").truthy = false) :
    (∃ e, Event.ofPayload kind payload = .ok e ∧
      decidePayload workflows (some kind) payload = decideEvent workflows e) ∨
    (Event.ofPayload kind payload = .error .wrongPart ∧
      decidePayload workflows (some kind) payload = .fault .event) ∨
    ∃ reason ≠ EventError.wrongPart, Event.ofPayload kind payload = .error reason ∧
      decidePayload workflows (some kind) payload = .refuse 422 reason.message := by
  have hsupported : ¬(some kind).any eventKinds.contains = false := by simpa using hkind
  have hkept' : ¬(payload.field "deleted").truthy = true := by simp [hkept]
  generalize hdecide : decidePayload workflows (some kind) payload = decision
  unfold decidePayload at hdecide
  split at hdecide
  · rename_i hping
    cases hping
    exact absurd hkind (by decide)
  dsimp only at hdecide
  rw [if_neg hsupported, if_neg hkept', Option.getD_some] at hdecide
  cases hevent : Event.ofPayload kind payload with
  | ok e =>
    rw [hevent] at hdecide
    exact Or.inl ⟨e, rfl, hdecide.symm⟩
  | error reason =>
    rw [hevent] at hdecide
    by_cases hwrong : reason = .wrongPart
    · subst hwrong
      exact Or.inr (Or.inl ⟨rfl, hdecide.symm⟩)
    · refine Or.inr (Or.inr ⟨reason, hwrong, rfl, ?_⟩)
      cases reason with
      | wrongPart => exact absurd rfl hwrong
      | _ => exact hdecide.symm

/-- An object that announces an event breaks the receiver off exactly if it is one that does. -/
lemma isBroken_decidePayload_iff (hvalid : ∀ wf ∈ workflows, wf.HasValidPatterns)
    (hkind : kind ∈ eventKinds) (hmap : payload.isMap = true)
    (hkept : (payload.field "deleted").truthy = false) :
    (decidePayload workflows (some kind) payload).IsBroken ↔ Breaks workflows kind payload := by
  have hunreadable := Event.ofPayload_eq_wrongPart_iff hkind hmap
  rcases decidePayload_cases workflows hkind hkept with
    ⟨e, hevent, hdecide⟩ | ⟨hevent, hdecide⟩ | ⟨reason, hreason, hevent, hdecide⟩
  all_goals rw [hdecide]
  · rw [isBroken_decideEvent_iff hvalid]
    constructor
    · rintro (⟨hbranch, wf, hwf, hnot⟩ | ⟨started, hstarts, hnot⟩)
      · exact .incomparable hevent hbranch hwf hnot
      · exact .unrecordable hevent hstarts hnot
    · intro h
      cases h with
      | unreadable h => cases hevent.symm.trans (hunreadable.mpr h)
      | incomparable he hbranch hwf hnot =>
        cases hevent.symm.trans he
        exact Or.inl ⟨hbranch, _, hwf, hnot⟩
      | unrecordable he hstarts hnot =>
        cases hevent.symm.trans he
        exact Or.inr ⟨_, hstarts, hnot⟩
  · exact iff_of_true (.fault _) (.unreadable (hunreadable.mp hevent))
  · -- no event is made, and no part is of the wrong kind
    constructor
    · rintro ⟨⟩
    · intro h
      cases h with
      | unreadable h =>
        cases hevent.symm.trans (hunreadable.mpr h)
        exact absurd rfl hreason
      | incomparable he | unrecordable he => cases hevent.symm.trans he

/-- Only an object that announces an event of a kind that is supported, and does not tell of a
branch that was deleted, can break the receiver off. -/
lemma supported_of_isBroken {named : Option String}
    (h : (decidePayload workflows named payload).IsBroken) :
    ∃ kind ∈ eventKinds, named = some kind ∧ (payload.field "deleted").truthy = false := by
  unfold decidePayload at h
  split at h
  · cases h
  cases named with
  | none => cases h
  | some kind =>
    dsimp only at h
    split_ifs at h with hsupported hkept
    · cases h
    · cases h
    exact ⟨kind, by simpa using hsupported, rfl, by simpa using hkept⟩

/-- A body breaks the receiver off exactly if it brings an object that does. -/
lemma isBroken_decideBody_iff (hvalid : ∀ wf ∈ workflows, wf.HasValidPatterns) :
    (decideBody workflows q).IsBroken ↔
      ∃ kind payload, Brings q kind payload ∧ Breaks workflows kind payload := by
  constructor
  · intro h
    unfold decideBody at h
    split at h
    · cases h
    rename_i payload hpayload
    split_ifs at h with hmap
    swap
    · cases h
    obtain ⟨kind, hsupported, hkind, hkept⟩ := supported_of_isBroken h
    rw [hkind, isBroken_decidePayload_iff hvalid hsupported hmap hkept] at h
    exact ⟨kind, payload, ⟨hkind, hsupported, hpayload, hmap, hkept⟩, h⟩
  · rintro ⟨kind, payload, hbrings, hbreaks⟩
    rw [decideBody, hbrings.payload_eq]
    dsimp only
    rw [if_pos hbrings.isMap, hbrings.kind_eq]
    exact (isBroken_decidePayload_iff hvalid hbrings.supported hbrings.isMap hbrings.kept).mpr
      hbreaks

/-- What a body is refused with. -/
lemma status_of_decideBody_eq_refuse {status : ℕ} {detail : String}
    (h : decideBody workflows q = .refuse status detail) : status = 400 ∨ status = 422 := by
  unfold decideBody at h
  split at h
  · cases h
    exact Or.inl rfl
  split_ifs at h
  · unfold decidePayload at h
    split at h
    · cases h
    dsimp only at h
    split_ifs at h
    split at h
    · unfold decideEvent at h
      split at h <;> cases h
    · cases h
    · cases h
      exact Or.inr rfl
  · cases h
    exact Or.inl rfl

end Notification

/-! ## Well-typed objects -/

/-- The parts of an object that are used to make an event are of the kinds that are expected, as
far as they are there. -/
structure Value.IsWellTyped (payload : Value) : Prop where
  /-- The repository is an object. -/
  repository : payload.field "repository" = .null ∨ (payload.field "repository").isMap = true
  /-- The reference of a push is a text. -/
  reference : ∀ v, payload.get? "ref" = some v → ∃ s, v = .text s
  /-- The commit at the head of a push is an object. -/
  headCommit : payload.field "head_commit" = .null ∨ (payload.field "head_commit").isMap = true
  /-- Its name is a text. -/
  headId : ((payload.field "head_commit").field "id").IsOptionalText
  /-- The commit after a push is a text. -/
  after : (payload.field "after").IsOptionalText
  /-- The branch that a pull request wants to be merged into is a text. -/
  base : ∀ v, Event.require payload ["pull_request", "base", "ref"] = .ok v → ∃ s, v = .text s
  /-- The commit of a pull request is a text. -/
  head : ∀ v, Event.require payload ["pull_request", "head", "sha"] = .ok v → v.IsOptionalText

namespace Value.IsWellTyped

variable {payload : Value} (h : payload.IsWellTyped)
include h

/-- What is announced by a well-typed object has texts. -/
lemma hasTexts {kind : String} (hkind : kind ∈ eventKinds) (hmap : payload.isMap = true) {e : Event}
    (he : Event.ofPayload kind payload = .ok e) : e.HasTexts := by
  rcases List.mem_pair.mp hkind with rfl | rfl
  · rw [Event.ofPayload_push hmap, Success.bind_eq_ok_iff] at he
    obtain ⟨u, -, he⟩ := he
    simp only [Event.pushOf, Success.bind_eq_ok_iff, Success.pure_eq_ok_iff] at he
    obtain ⟨v, -, name, -, head, hhead, rfl⟩ := he
    refine ⟨⟨name.1, rfl⟩, ?_⟩
    dsimp only
    split_ifs
    · rcases Event.of_optionalField_eq_ok hhead with rfl | rfl
      · exact Or.inl rfl
      · exact h.headId
    · exact h.after
  · rw [Event.ofPayload_pullRequest hmap, Success.bind_eq_ok_iff] at he
    obtain ⟨u, -, he⟩ := he
    simp only [Event.pullRequestOf, Success.bind_eq_ok_iff, Success.pure_eq_ok_iff] at he
    obtain ⟨branch, hbranch, sha, hsha, headBranch, -, rfl⟩ := he
    exact ⟨h.base branch hbranch, h.head sha hsha⟩

/-- A well-typed object breaks no receiver off. -/
lemma not_breaks {kind : String} (hkind : kind ∈ eventKinds) (hmap : payload.isMap = true)
    (workflows : List Workflow) : ¬Notification.Breaks workflows kind payload := by
  rintro (hunreadable | ⟨he, hbranch, -, -⟩ | ⟨he, -, hnot⟩)
  · cases hunreadable with
    | repository hmisplaced => exact Value.not_isMisplaced h.repository hmisplaced
    | reference _ hv hnot =>
      obtain ⟨s, hs⟩ := h.reference _ hv
      exact hnot s hs
    | headCommit _ _ _ hmisplaced => exact Value.not_isMisplaced h.headCommit hmisplaced
  · obtain ⟨s, hs⟩ := (h.hasTexts hkind hmap he).branch
    exact hbranch s hs
  · exact hnot (h.hasTexts hkind hmap he)

end Value.IsWellTyped

/-! ## Answers -/

/-- A notification whose signature is accepted. -/
structure Request.IsAccepted (secret : String) (q : Request) : Prop where
  /-- The method is that of notifications. -/
  method_eq : q.method = "POST"
  /-- The path is that of notifications. -/
  parts_eq : q.parts = ["", "webhooks", "github"]
  /-- The signature is right, or nothing is signed. -/
  signed : Signature.verify? q.body (q.header? Notification.signatureHeader) secret = some true

namespace Receiver

variable {r : Receiver} {q : Request}

/-- The answer to a decision that breaks the receiver off, and that nothing is queued then. -/
lemma notify_of_isBroken
    (h : (Notification.decide r.settings.webhookSecret r.workflows q).IsBroken) (host : Host τ)
    (w : World τ) : ∃ w', r.notify q host w = (.ok ⟨.internalError, r.history, []⟩, w') := by
  generalize hdecide : Notification.decide r.settings.webhookSecret r.workflows q = decision at h
  cases h with
  | fault reason => exact ⟨w, by rw [notify, hdecide]; rfl⟩
  | @queue e started hnot =>
    have hmark : e.mark? = none := by
      rw [← Option.not_isSome_iff_eq_none, Event.mark?_isSome_iff]
      exact hnot
    exact ⟨_, notify_of_no_mark hdecide hmark host w⟩

/-- The answer to a decision that does not break the receiver off. -/
lemma notify_of_not_isBroken (hsize : 0 ≤ r.history.size)
    (h : ¬(Notification.decide r.settings.webhookSecret r.workflows q).IsBroken) (host : Host τ)
    (w : World τ) :
    ∃ reply w', r.notify q host w = (.ok reply, w') ∧ (reply.response.status = 200 ∨
      ∃ detail, Notification.decide r.settings.webhookSecret r.workflows q =
        .refuse reply.response.status detail) := by
  cases hdecide : Notification.decide r.settings.webhookSecret r.workflows q with
  | refuse status detail => exact ⟨_, w, by rw [notify, hdecide]; rfl, Or.inr ⟨detail, rfl⟩⟩
  | dismiss status kind reason => exact ⟨_, w, by rw [notify, hdecide]; rfl, Or.inl rfl⟩
  | unmatched e => exact ⟨_, _, by rw [notify, hdecide]; rfl, Or.inl rfl⟩
  | fault reason =>
    rw [hdecide] at h
    exact absurd (.fault reason) h
  | queue e started =>
    rw [hdecide] at h
    have hsome : e.mark?.isSome = true := by
      rw [Event.mark?_isSome_iff]
      by_contra hnot
      exact h (.queue started hnot)
    obtain ⟨mark, hmark⟩ := Option.isSome_iff_exists.mp hsome
    exact ⟨_, _, notify_of_mark hdecide hmark hsize host w, Or.inl rfl⟩

/-- What an accepted notification with a plain body comes to, if the history can hold runs and all
patterns are valid and plain.  It is always answered.  The answer is 200, 400 or 422 unless the
notification brings an object that breaks the receiver off, and then it is 500: nothing is queued
and nothing is remembered.  A run that is queued is for an event whose branch is a text and whose
commit is a text or nothing.  No object breaks the receiver off whose parts are of the kinds that
are expected. -/
theorem handle_breaks_iff (hsize : 0 ≤ r.history.size)
    (hvalid : ∀ wf ∈ r.workflows, wf.HasValidPatterns ∧ wf.HasPlainPatterns)
    (hq : q.IsAccepted r.settings.webhookSecret) (_ : Json.isPlain q.body = true) (host : Host τ)
    (w : World τ) :
    ∃ reply w', r.handle q host w = (.ok reply, w') ∧
      reply.response.status ∈ [200, 400, 422, 500] ∧
      (reply.response.status = 500 ↔
        ∃ kind payload, Notification.Brings q kind payload ∧
          Notification.Breaks r.workflows kind payload) ∧
      (reply.response.status = 500 → reply = ⟨.internalError, r.history, []⟩) ∧
      (∀ run ∈ reply.queued, run.event.HasTexts) ∧
      (∀ payload, Json.ofBytes? q.body = some payload → payload.IsWellTyped →
        reply.response.status ≠ 500) := by
  have hdecide : Notification.decide r.settings.webhookSecret r.workflows q =
      Notification.decideBody r.workflows q := by
    rw [Notification.decide, hq.signed]
  have hiff := Notification.isBroken_decideBody_iff (q := q) fun wf hwf => (hvalid wf hwf).1
  have hhandle : r.handle q host w = r.notify q host w := by
    rw [handle_eq_notify hq.method_eq hq.parts_eq]
  have htyped : ∀ payload, Json.ofBytes? q.body = some payload → payload.IsWellTyped →
      ¬∃ kind payload, Notification.Brings q kind payload ∧
        Notification.Breaks r.workflows kind payload := by
    rintro payload hpayload hwell ⟨kind, payload', hbrings, hbreaks⟩
    obtain rfl : payload = payload' := Option.some.inj (hpayload.symm.trans hbrings.payload_eq)
    exact hwell.not_breaks hbrings.supported hbrings.isMap r.workflows hbreaks
  rw [← hiff] at htyped ⊢
  by_cases hbroken : (Notification.decideBody r.workflows q).IsBroken
  · obtain ⟨w', hnotify⟩ := notify_of_isBroken (hdecide ▸ hbroken) host w
    refine ⟨_, w', hhandle.trans hnotify, ?_, iff_of_true rfl hbroken, fun _ => rfl,
      List.forall_mem_nil _, fun payload hpayload hwell => ?_⟩
    · simp [Response.internalError]
    · exact absurd hbroken (htyped payload hpayload hwell)
  · obtain ⟨reply, w', hnotify, hstatus⟩ :=
      notify_of_not_isBroken hsize (hdecide ▸ hbroken) host w
    have hmem : reply.response.status ∈ [200, 400, 422] := by
      rcases hstatus with h | ⟨detail, hrefuse⟩
      · simp [h]
      · rcases Notification.status_of_decideBody_eq_refuse (hdecide ▸ hrefuse) with h | h <;>
          simp [h]
    have hne : reply.response.status ≠ 500 := fun h => by simp [h] at hmem
    refine ⟨reply, w', hhandle.trans hnotify, ?_, iff_of_false hne hbroken,
      fun h => absurd h hne, fun run hrun => ?_, fun _ _ _ => hne⟩
    · exact List.mem_append_left [500] hmem
    · exact Event.mark?_isSome_iff.mp (of_mem_queued (hhandle.trans hnotify) hrun).2.2

/-- A receiver with a workflow for the branches of releases. -/
def ofReleaseBranches : Receiver where
  settings := {}
  workflows := [{ buildAndPack with triggers := [{ event := "push", branches := some ["v*"] }] }]
  history := { size := 50 }

/-- A notification of a push in which a number stands for the reference. -/
def pushOfNumber : Request where
  method := "POST"
  path := "/webhooks/github"
  headers := [("X-GitHub-Event", "push")]
  body := Text.Utf8.encode "\x7b\"ref\":5\x7d"

/-- The pattern of the receiver is valid. -/
lemma hasValidPatterns_ofReleaseBranches :
    ∀ wf ∈ ofReleaseBranches.workflows, wf.HasValidPatterns :=
  List.forall_mem_singleton.mpr
    (Workflow.everyPattern_of_single rfl (Branch.Pattern.isValid_of_isOk (by decide +kernel)))

/-- It is plain. -/
lemma hasPlainPatterns_ofReleaseBranches :
    ∀ wf ∈ ofReleaseBranches.workflows, wf.HasPlainPatterns :=
  List.forall_mem_singleton.mpr
    (Workflow.everyPattern_of_single rfl ⟨by decide +kernel, by decide +kernel, by decide +kernel⟩)

/-- The push is accepted where nothing is signed. -/
lemma isAccepted_pushOfNumber : pushOfNumber.IsAccepted ofReleaseBranches.settings.webhookSecret :=
  ⟨rfl, by decide +kernel, by decide +kernel⟩

/-- What the push is answered. -/
lemma status_of_pushOfNumber {reply : Reply} {w' : World Float}
    (h : ofReleaseBranches.handle pushOfNumber numberingHost .initial = (.ok reply, w')) :
    reply.response.status = 500 := by
  have hstatus : (ofReleaseBranches.handle pushOfNumber numberingHost .initial).1.toOption.map
      (fun reply => reply.response.status) = some 500 := by decide +kernel
  rw [h] at hstatus
  exact Option.some.inj hstatus

/-- The push breaks the receiver off, so it is an object that does. -/
theorem handle_breaks_iff_of_number :
    ∃ kind payload, Notification.Brings pushOfNumber kind payload ∧
      Notification.Breaks ofReleaseBranches.workflows kind payload := by
  obtain ⟨reply, w', hhandle, -, hiff, -⟩ := handle_breaks_iff (r := ofReleaseBranches) (by decide)
    (fun wf hwf => ⟨hasValidPatterns_ofReleaseBranches wf hwf,
      hasPlainPatterns_ofReleaseBranches wf hwf⟩)
    isAccepted_pushOfNumber (by decide +kernel) numberingHost .initial
  exact hiff.mp (status_of_pushOfNumber hhandle)

/-- A number as the reference of a push is not refused: it breaks the receiver off. -/
theorem number_as_reference_not_refused :
    0 ≤ ofReleaseBranches.history.size ∧
      (∀ wf ∈ ofReleaseBranches.workflows, wf.HasValidPatterns) ∧
      pushOfNumber.IsAccepted ofReleaseBranches.settings.webhookSecret ∧
      ∃ reply w', ofReleaseBranches.handle pushOfNumber numberingHost .initial = (.ok reply, w') ∧
        reply.response.status ∉ [200, 400, 422] := by
  obtain ⟨reply, w', hhandle⟩ :=
    ofReleaseBranches.handle_returns pushOfNumber numberingHost .initial
  refine ⟨by decide, hasValidPatterns_ofReleaseBranches, isAccepted_pushOfNumber, reply, w',
    hhandle, ?_⟩
  rw [status_of_pushOfNumber hhandle]
  decide

end Receiver

end CiRunner
