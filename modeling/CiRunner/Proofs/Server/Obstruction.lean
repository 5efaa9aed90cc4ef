import CiRunner.Proofs.Branch.Validity
import CiRunner.Proofs.Server.Malformed
import CiRunner.Proofs.Workflow.Reading

/-!
# Filters that cannot be compared

A workflow that is accepted may have filters that cannot be compared with any branch, since nobody
looks at the patterns of a document before an event comes.  The rules of a workflow are gone through
until one starts it, and the patterns of a rule until it is decided, so such a filter does harm only
to the events that come to it.  But then it does harm to all workflows of a receiver.
-/

namespace CiRunner

open Branch Success

/-! ## One rule -/

namespace TriggerRule

/-- The filters of a rule are consulted for an event: nothing else decides about it. -/
structure Consults (r : TriggerRule) (e : Event) : Prop where
  /-- The event is of the kind of the rule. -/
  kind : r.event = e.kind
  /-- An activity of a pull request, if it is known, is one that the rule allows. -/
  activity : e.kind = "pull_request" → e.action ≠ .null → ∃ a, e.action = .text a ∧ r.Allows a
  /-- The event is about a branch. -/
  branch : e.refType = "branch"

/-- The filters of a rule cannot be compared with a branch. -/
inductive Obstructs (r : TriggerRule) (branch : Value) : Prop
  /-- The pattern of an entry is invalid. -/
  | included {entries : List String} {entry : String} (hentries : r.branches = some entries)
      (hentry : entry ∈ entries) (h : ¬Pattern.IsValid (Pattern.patternOf entry))
  /-- A pattern that is left out is invalid, and none before it matches the branch. -/
  | ignored {patterns : List String} {p : String} (hpatterns : r.branchesIgnore = some patterns)
      (hp : Reaches (Pattern.Hits branch) patterns p) (h : ¬Pattern.IsValid p)

variable {r : TriggerRule} {e : Event} {branch : String}

lemma obstructs_iff {branch : Value} :
    r.Obstructs branch ↔
      (∃ entries, r.branches = some entries ∧
        ∃ entry ∈ entries, ¬Pattern.IsValid (Pattern.patternOf entry)) ∨
      ∃ patterns, r.branchesIgnore = some patterns ∧
        ∃ p, Reaches (Pattern.Hits branch) patterns p ∧ ¬Pattern.IsValid p := by
  constructor
  · rintro (⟨hentries, hentry, h⟩ | ⟨hpatterns, hp, h⟩)
    · exact Or.inl ⟨_, hentries, _, hentry, h⟩
    · exact Or.inr ⟨_, hpatterns, _, hp, h⟩
  · rintro (⟨entries, hentries, entry, hentry, h⟩ | ⟨patterns, hpatterns, p, hp, h⟩)
    · exact .included hentries hentry h
    · exact .ignored hpatterns hp h

/-- A rule with one kind of filters lets a branch through or not, unless its filters cannot be
compared with it. -/
lemma exists_admits_eq_ok_iff (h : r.branches = none ∨ r.branchesIgnore = none) :
    (∃ run, r.admits (.text branch) = .ok run) ↔ ¬r.Obstructs (.text branch) := by
  cases hb : r.branches with
  | some entries =>
    have hi : r.branchesIgnore = none := by simpa [hb] using h
    have hobstructs : ¬r.Obstructs (.text branch) ↔
        ∀ entry ∈ entries, Pattern.IsValid (Pattern.patternOf entry) := by
      simp [obstructs_iff, hb, hi]
    rw [hobstructs, ← Pattern.exists_included_eq_ok_iff branch]
    simp only [admits, hb, hi]
    cases Pattern.included (.text branch) entries with
    | error reason => simp [bind, Except.bind]
    | ok inside => cases inside <;> simp [bind, Except.bind, pure, Except.pure]
  | none =>
    cases hi : r.branchesIgnore with
    | none => simp [obstructs_iff, admits, hb, hi, bind, Except.bind, pure, Except.pure]
    | some patterns =>
      have hobstructs : ¬r.Obstructs (.text branch) ↔
          ∀ p, Reaches (Pattern.Hits (.text branch)) patterns p → Pattern.IsValid p := by
        simp [obstructs_iff, hb, hi]
      rw [hobstructs, ← Pattern.exists_matchesAny_eq_ok_iff]
      simp only [admits, hb, hi]
      cases Pattern.matchesAny (.text branch) patterns <;>
        simp [bind, Except.bind, pure, Except.pure]

/-- A rule with one kind of filters decides about an event, unless its filters are consulted and
cannot be compared with the branch. -/
lemma exists_test_eq_ok_iff (h : r.branches = none ∨ r.branchesIgnore = none)
    (hbranch : e.branch = .text branch) :
    (∃ run, r.test e = .ok run) ↔ (r.Consults e → ¬r.Obstructs e.branch) := by
  unfold test
  split_ifs with hkind haction hfilters href
  · have hnot : ¬r.Consults e := fun hc => hkind hc.kind
    simp [hnot, pure, Except.pure]
  · have hnot : ¬r.Consults e := by
      intro hc
      have hadmits := admitsAction_iff.mpr (hc.activity haction.1)
      rw [haction.2] at hadmits
      cases hadmits
    simp [hnot, pure, Except.pure]
  · obtain ⟨hb, hi⟩ := filtersBranches_eq_false_iff.mp hfilters
    simp [obstructs_iff, hb, hi, pure, Except.pure]
  · have hnot : ¬r.Consults e := fun hc => href hc.branch
    simp [hnot, pure, Except.pure]
  · have hconsults : r.Consults e := by
      refine ⟨not_not.mp hkind, fun hpull => ?_, not_not.mp href⟩
      rw [← admitsAction_iff, ← Bool.not_eq_false]
      exact fun hno => haction ⟨hpull, hno⟩
    rw [hbranch, exists_admits_eq_ok_iff h]
    exact ⟨fun hnot _ => hnot, fun hnot => hnot hconsults⟩

end TriggerRule

/-! ## All rules -/

namespace Workflow

/-- An event comes to a rule of a workflow whose filters cannot be compared with its branch. -/
def IsObstructed (w : Workflow) (e : Event) : Prop :=
  ∃ r, Reaches (fun s => s.test e = .ok true) w.triggers r ∧ r.Consults e ∧ r.Obstructs e.branch

/-- A workflow is read from a document. -/
def IsAccepted (w : Workflow) : Prop := ∃ source text, ofText source text = .ok w

variable {w : Workflow} {e : Event} {branch : String}

/-- A workflow that is accepted has one kind of filters at most in each rule. -/
lemma IsAccepted.filters (h : w.IsAccepted) :
    ∀ r ∈ w.triggers, r.branches = none ∨ r.branchesIgnore = none := by
  obtain ⟨source, text, hread⟩ := h
  obtain ⟨doc, -, hvalue⟩ := ofText_eq_ok_iff.mp hread
  obtain ⟨events, -, -, -, -, -, htriggers, -⟩ := ofValue_eq_ok hvalue
  exact fun r hr => (readTriggers_eq_ok htriggers r hr).filters

/-- Rules with one kind of filters decide about an event, unless it comes to one whose filters
cannot be compared. -/
lemma exists_firstMatch_eq_ok_iff {rules : List TriggerRule}
    (h : ∀ r ∈ rules, r.branches = none ∨ r.branchesIgnore = none)
    (hbranch : e.branch = .text branch) :
    (∃ found, firstMatch e rules = .ok found) ↔
      ∀ r, Reaches (fun s => s.test e = .ok true) rules r → r.Consults e →
        ¬r.Obstructs e.branch := by
  induction rules with
  | nil => simp [firstMatch, not_reaches_nil, pure, Except.pure]
  | cons r rest ih =>
    obtain ⟨hr, hrest⟩ := List.forall_mem_cons.mp h
    rw [forall_reaches_cons, ← ih hrest, ← TriggerRule.exists_test_eq_ok_iff hr hbranch, firstMatch]
    cases htest : r.test e with
    | error reason => simp [bind, Except.bind]
    | ok run => cases run <;> simp [bind, Except.bind, pure, Except.pure]

/-- A workflow that is accepted decides about every event with a text as its branch, unless it is
obstructed. -/
lemma IsAccepted.comparesWith_iff (h : w.IsAccepted) (hbranch : e.branch = .text branch) :
    w.ComparesWith e ↔ ¬w.IsObstructed e := by
  have hrules := exists_firstMatch_eq_ok_iff h.filters hbranch
  have hrun : w.ComparesWith e ↔ ∃ found, firstMatch e w.triggers = .ok found := by
    rw [ComparesWith, shouldRun, matchingRule]
    cases firstMatch e w.triggers <;> simp [bind, Except.bind, pure, Except.pure]
  rw [hrun, hrules, IsObstructed]
  push Not
  exact Iff.rfl

end Workflow

/-! ## All workflows -/

/-- A receiver is broken off by an event exactly if one of its workflows cannot decide about it. -/
lemma Notification.exists_decideEvent_eq_fault_iff {workflows : List Workflow} {e : Event} :
    (∃ reason, decideEvent workflows e = .fault reason) ↔
      ¬∀ w ∈ workflows, w.ComparesWith e := by
  cases hmatching : matching e workflows with
  | error reason =>
    have hnot : ¬∀ w ∈ workflows, w.ComparesWith e := by
      intro hall
      cases hmatching.symm.trans (matching_eq_ok_iff.mpr ⟨hall, rfl⟩)
    refine iff_of_true ⟨.pattern reason, ?_⟩ hnot
    rw [decideEvent, hmatching]
  | ok started =>
    refine iff_of_false ?_ (not_not_intro (matching_eq_ok_iff.mp hmatching).1)
    rintro ⟨reason, hfault⟩
    rw [decideEvent, hmatching] at hfault
    cases started <;> cases hfault

/-- An event with a text as its branch is decided by every workflow that is accepted and not
obstructed, and by all whose patterns are valid.  Patterns of which the classes list letters, digits
and ranges are valid if the ranges are in order.  A workflow that is obstructed breaks a receiver
off, whatever its other workflows are.  All patterns are plain. -/
theorem accepted_decides_unless_obstructed {e : Event} {branch : String}
    (hbranch : e.branch = .text branch) :
    (∀ w : Workflow, w.IsAccepted → w.HasPlainPatterns →
      ((∃ run, w.shouldRun e = .ok run) ↔ ¬w.IsObstructed e) ∧
        (w.HasValidPatterns → ∃ run, w.shouldRun e = .ok run)) ∧
    (∀ pattern, Pattern.IsPlain pattern → (∀ p ∈ Pattern.pieces pattern, p.Listed) →
      (Pattern.IsValid pattern ↔ Pattern.ClassesWellFormed pattern)) ∧
    ∀ workflows : List Workflow, (∀ w ∈ workflows, w.IsAccepted ∧ w.HasPlainPatterns) →
      ((∃ reason, Notification.decideEvent workflows e = .fault reason) ↔
        ∃ w ∈ workflows, w.IsObstructed e) := by
  refine ⟨fun w hw _ => ⟨hw.comparesWith_iff hbranch, fun hvalid => hvalid.comparesWith hbranch⟩,
    fun pattern _ => Pattern.isValid_iff_classesWellFormed, fun workflows hall => ?_⟩
  rw [Notification.exists_decideEvent_eq_fault_iff]
  push Not
  exact exists_congr fun w => and_congr_right fun hw => by
    rw [(hall w hw).1.comparesWith_iff hbranch, not_not]

/-- A document with a pattern for the branches whose pushes start a run. -/
def filteredText (pattern : String) : String :=
  "\n".intercalate ["on:", "  push:", "    branches: ['" ++ pattern ++ "']", "jobs:", "  check:",
    "    steps: [\x7brun: make\x7d]", ""]

/-- A push to the branch `main`. -/
def mainEvent : Event := { kind := "push", branch := .text "main" }

/-- What comes of a push to the branch `main` with such a document, if it is accepted. -/
def filterResult? (pattern : String) : Option (Except Pattern.MatchError Bool) :=
  (Workflow.ofText none (filteredText pattern)).toOption.map fun w => w.shouldRun mainEvent

/-- A document with a known result is accepted. -/
lemma exists_of_filterResult? {pattern : String} {result : Except Pattern.MatchError Bool}
    (h : filterResult? pattern = some result) :
    ∃ w, Workflow.ofText none (filteredText pattern) = .ok w ∧ w.shouldRun mainEvent = result := by
  unfold filterResult? at h
  cases hread : Workflow.ofText none (filteredText pattern) with
  | error reason =>
    rw [hread] at h
    cases h
  | ok w =>
    rw [hread] at h
    exact ⟨w, rfl, Option.some.inj h⟩

/-- A pattern with a range that is in order obstructs no push to the branch `main`. -/
theorem accepted_decides_unless_obstructed_of_range :
    ∃ w : Workflow, w.IsAccepted ∧ w.HasPlainPatterns ∧ w.shouldRun mainEvent = .ok false ∧
      ¬w.IsObstructed mainEvent := by
  have hresult : filterResult? "[a-z]" = some (.ok false) := by decide +kernel
  obtain ⟨w, hread, hrun⟩ := exists_of_filterResult? hresult
  have haccepted : w.IsAccepted := ⟨none, _, hread⟩
  have hrules : (Workflow.ofText none (filteredText "[a-z]")).toOption.map Workflow.triggers =
      some [{ event := "push", branches := some ["[a-z]"] }] := by decide +kernel
  rw [hread] at hrules
  have hplain : w.HasPlainPatterns := Workflow.everyPattern_of_single (Option.some.inj hrules)
    ⟨by decide +kernel, by decide +kernel, by decide +kernel⟩
  obtain ⟨hdecides, -⟩ := accepted_decides_unless_obstructed (e := mainEvent) rfl
  obtain ⟨hiff, -⟩ := hdecides w haccepted hplain
  exact ⟨w, haccepted, hplain, hrun, hiff.mp ⟨false, hrun⟩⟩

/-- A pattern with a range that is not in order is accepted, but then no push can be compared with
it.  A receiver with this workflow does not even start another one that matches the push. -/
theorem descending_range_breaks_receiver :
    ∃ w other : Workflow, Workflow.ofText none (filteredText "[z-a]") = .ok w ∧
      Workflow.ofText none (filteredText "main") = .ok other ∧
      (¬∃ run, w.shouldRun mainEvent = .ok run) ∧ other.shouldRun mainEvent = .ok true ∧
      ∃ reason, Notification.decideEvent [w, other] mainEvent = .fault reason := by
  have hresult : filterResult? "main" = some (.ok true) := by decide +kernel
  obtain ⟨other, hother, hrun⟩ := exists_of_filterResult? hresult
  have hbroken : (filterResult? "[z-a]").map Except.isOk = some false := by decide +kernel
  obtain ⟨result, hz, herror⟩ := Option.map_eq_some_iff.mp hbroken
  obtain ⟨w, hw, hcompared⟩ := exists_of_filterResult? hz
  have hnot : ¬∃ run, w.shouldRun mainEvent = .ok run := by
    rintro ⟨run, hok⟩
    rw [← hcompared, hok] at herror
    cases herror
  refine ⟨w, other, hw, hother, hnot, hrun, ?_⟩
  exact Notification.exists_decideEvent_eq_fault_iff.mpr fun hall => hnot (hall w (by simp))

end CiRunner
