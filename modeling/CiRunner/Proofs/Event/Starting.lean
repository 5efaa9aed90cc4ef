import CiRunner.Event.Basic
import CiRunner.Proofs.Branch.LastMatch

/-!
# The rules that start a run

An event starts a run by a rule if it is of the kind of the rule, if its activity is one of those
the rule lists, and if the filters of the rule let its branch through.  A workflow is started if it
is by one of its rules, so only the set of the rules counts.
-/

namespace CiRunner

open Branch

namespace TriggerRule

/-- The activities that a rule starts runs for: those it lists, or the usual ones. -/
def Allows (r : TriggerRule) (activity : String) : Prop :=
  (∃ types, r.types = some types ∧ activity ∈ types) ∨
    ((r.types = none ∨ r.types = some []) ∧ activity ∈ ["opened", "synchronize", "reopened"])

/-- The filters of a rule let a branch through. -/
structure Passes (r : TriggerRule) (branch : Value) : Prop where
  /-- The branch matches none of the patterns that are left out. -/
  ignored : ∀ patterns, r.branchesIgnore = some patterns →
    ∀ p ∈ patterns, ¬Pattern.Hits branch p
  /-- The last entry that matches takes the branch in. -/
  included : ∀ entries, r.branches = some entries → Pattern.Includes branch entries

/-- An event starts a run by a rule. -/
structure Starts (r : TriggerRule) (e : Event) : Prop where
  /-- It is of the kind of the rule. -/
  kind : r.event = e.kind
  /-- An activity of a pull request, if it is known, is one that the rule allows. -/
  activity : e.kind = "pull_request" → e.action ≠ .null → ∃ a, e.action = .text a ∧ r.Allows a
  /-- The rule has no filters, or they let the branch of the event through, but no tag. -/
  branch : (r.branches = none ∧ r.branchesIgnore = none) ∨
    (e.refType = "branch" ∧ r.Passes e.branch)

/-- A branch can be compared with all patterns of a rule. -/
structure Comparable (r : TriggerRule) (branch : Value) : Prop where
  /-- It can be compared with the patterns of the entries. -/
  branches : ∀ entries, r.branches = some entries →
    ∀ entry ∈ entries, Pattern.Comparable branch (Pattern.patternOf entry)
  /-- It can be compared with the patterns that are left out. -/
  ignored : ∀ patterns, r.branchesIgnore = some patterns →
    ∀ p ∈ patterns, Pattern.Comparable branch p

variable {r : TriggerRule} {e : Event} {branch : Value} {entry : String}

/-! ## What a rule decides -/

lemma admitsAction_iff :
    r.admitsAction e = true ↔ (e.action ≠ .null → ∃ a, e.action = .text a ∧ r.Allows a) := by
  have hallows (a : String) : r.activities.contains a = true ↔ r.Allows a := by
    rw [activities, Allows, List.contains_iff_mem]
    rcases r.types with _ | _ | ⟨t, types⟩ <;> simp [defaultActivities]
  unfold admitsAction
  split
  · simp_all
  · rename_i action hnull
    cases haction : e.action with
    | text a => simpa [Value.isAmong] using hallows a
    | null => exact absurd haction hnull
    | _ => simp [Value.isAmong]

open scoped Classical in
lemma admits_eq (h : r.Comparable branch) : r.admits branch = .ok (decide (r.Passes branch)) := by
  by_cases hin : ∀ entries, r.branches = some entries → Pattern.Includes branch entries
  · -- only the patterns that are left out decide
    have hadmits : r.admits branch = { r with branches := none }.admits branch := by
      cases hb : r.branches with
      | none => simp only [admits, hb]
      | some entries =>
        simp only [admits, hb, Pattern.included_eq (h.branches entries hb), hin entries hb,
          decide_true]
        rfl
    rw [hadmits]
    cases hi : r.branchesIgnore with
    | none =>
      have hpasses : r.Passes branch := ⟨by simp [hi], hin⟩
      simp only [admits, hpasses, decide_true]
      rfl
    | some patterns =>
      have hpasses : r.Passes branch ↔ ∀ p ∈ patterns, ¬Pattern.Hits branch p :=
        ⟨fun hp => hp.ignored patterns hi, fun hnone => ⟨by simpa [hi] using hnone, hin⟩⟩
      simp only [admits, hpasses, Pattern.matchesAny_eq (h.ignored patterns hi)]
      simp [bind, Except.bind, pure, Except.pure]
  · obtain ⟨entries, hb, hnot⟩ :
        ∃ entries, r.branches = some entries ∧ ¬Pattern.Includes branch entries := by
      simpa using hin
    have hpasses : ¬r.Passes branch := fun hp => hnot (hp.included entries hb)
    simp only [admits, hb, Pattern.included_eq (h.branches entries hb), hnot, hpasses]
    rfl

lemma filtersBranches_eq_false_iff :
    r.filtersBranches = false ↔ r.branches = none ∧ r.branchesIgnore = none := by
  rw [filtersBranches, Bool.or_eq_false_iff, Option.isSome_eq_false_iff, Option.isSome_eq_false_iff,
    Option.isNone_iff_eq_none, Option.isNone_iff_eq_none]

open scoped Classical in
/-- A rule whose patterns can be compared with the branch of an event decides. -/
theorem test_eq (h : r.Comparable e.branch) : r.test e = .ok (decide (r.Starts e)) := by
  unfold test
  split_ifs with hkind haction hfilters href
  · have hnot : ¬r.Starts e := fun hs => hkind hs.kind
    simp [hnot, pure, Except.pure]
  · have hnot : ¬r.Starts e := by
      intro hs
      have hadmits := admitsAction_iff.mpr (hs.activity haction.1)
      rw [haction.2] at hadmits
      cases hadmits
    simp [hnot, pure, Except.pure]
  all_goals
    have hactivity : e.kind = "pull_request" → e.action ≠ .null →
        ∃ a, e.action = .text a ∧ r.Allows a := by
      intro hpull
      rw [← admitsAction_iff, ← Bool.not_eq_false]
      exact fun hno => haction ⟨hpull, hno⟩
    have hkind' : r.event = e.kind := not_not.mp hkind
  · have hstarts : r.Starts e :=
      ⟨hkind', hactivity, Or.inl (filtersBranches_eq_false_iff.mp hfilters)⟩
    simp [hstarts, pure, Except.pure]
  · have hnot : ¬r.Starts e := by
      rintro ⟨-, -, hnone | ⟨hbranch, -⟩⟩
      · exact hfilters (filtersBranches_eq_false_iff.mpr hnone)
      · exact href hbranch
    simp [hnot, pure, Except.pure]
  · have hiff : r.Starts e ↔ r.Passes e.branch := by
      constructor
      · rintro ⟨-, -, hnone | ⟨-, hpasses⟩⟩
        · exact absurd (filtersBranches_eq_false_iff.mpr hnone) hfilters
        · exact hpasses
      · exact fun hpasses => ⟨hkind', hactivity, Or.inr ⟨not_not.mp href, hpasses⟩⟩
    simp [admits_eq h, hiff]

/-! ## Appending an entry -/

/-- A rule with a further entry at the end of its branches, if it lists any. -/
def withEntry (r : TriggerRule) (entry : String) : TriggerRule :=
  { r with branches := r.branches.map (· ++ [entry]) }

lemma Comparable.withEntry (h : r.Comparable branch)
    (hentry : Pattern.Comparable branch (Pattern.patternOf entry)) :
    (r.withEntry entry).Comparable branch := by
  refine ⟨fun entries hb e he => ?_, h.ignored⟩
  obtain ⟨old, hold, rfl⟩ := Option.map_eq_some_iff.mp hb
  rcases List.mem_append.mp he with he | he
  · exact h.branches old hold e he
  · rwa [List.mem_singleton.mp he]

lemma branches_withEntry_eq_none_iff : (r.withEntry entry).branches = none ↔ r.branches = none :=
  Option.map_eq_none_iff

/-- An entry that takes branches in stops no run. -/
lemma Starts.withEntry (h : r.Starts e) (hpositive : ¬Pattern.Negated entry) :
    (r.withEntry entry).Starts e := by
  refine ⟨h.kind, h.activity, ?_⟩
  rcases h.branch with ⟨hnone, hignore⟩ | ⟨hbranch, hignored, hincluded⟩
  · exact Or.inl ⟨branches_withEntry_eq_none_iff.mpr hnone, hignore⟩
  · refine Or.inr ⟨hbranch, hignored, fun entries hb => ?_⟩
    obtain ⟨old, hold, rfl⟩ := Option.map_eq_some_iff.mp hb
    exact (hincluded old hold).concat hpositive

/-- An entry that puts branches out starts no run. -/
lemma Starts.of_withEntry (h : (r.withEntry entry).Starts e) (hnegated : Pattern.Negated entry) :
    r.Starts e := by
  refine ⟨h.kind, h.activity, ?_⟩
  rcases h.branch with ⟨hnone, hignore⟩ | ⟨hbranch, hignored, hincluded⟩
  · exact Or.inl ⟨branches_withEntry_eq_none_iff.mp hnone, hignore⟩
  · refine Or.inr ⟨hbranch, hignored, fun old hold => ?_⟩
    have hconcat := hincluded (old ++ [entry]) (Option.map_eq_some_iff.mpr ⟨old, hold, rfl⟩)
    exact hconcat.of_concat hnegated

/-- A rule all of whose entries put branches out starts no run. -/
lemma not_starts_of_forall_negated {entries : List String} (hb : r.branches = some entries)
    (h : ∀ entry ∈ entries, Pattern.Negated entry) : ¬r.Starts e := by
  rintro ⟨-, -, ⟨hnone, -⟩ | ⟨-, hpasses⟩⟩
  · rw [hb] at hnone
    cases hnone
  · exact Pattern.not_includes_of_forall_negated h (hpasses.included entries hb)

end TriggerRule

namespace Workflow

variable {w : Workflow} {e : Event}

/-- A rule may be replaced by one that starts runs for the same event. -/
lemma exists_starts_of_replace {before after : List TriggerRule} {r r' : TriggerRule}
    (hr : r.Starts e → r'.Starts e) (h : ∃ s ∈ before ++ r :: after, s.Starts e) :
    ∃ s ∈ before ++ r' :: after, s.Starts e := by
  obtain ⟨s, hs, hstarts⟩ := h
  rcases List.mem_append.mp hs with hs | hs
  · exact ⟨s, by simp [hs], hstarts⟩
  · rcases List.mem_cons.mp hs with rfl | hs
    · exact ⟨r', by simp, hr hstarts⟩
    · exact ⟨s, by simp [hs], hstarts⟩

open scoped Classical in
lemma firstMatch_isSome {rules : List TriggerRule} (h : ∀ r ∈ rules, r.Comparable e.branch) :
    (firstMatch e rules).map Option.isSome = .ok (decide (∃ r ∈ rules, r.Starts e)) := by
  induction rules with
  | nil => simp [firstMatch, pure, Except.pure, Except.map]
  | cons r rest ih =>
    obtain ⟨hr, hrest⟩ := List.forall_mem_cons.mp h
    rw [firstMatch, TriggerRule.test_eq hr]
    by_cases hstarts : r.Starts e
    · simp [hstarts, bind, Except.bind, pure, Except.pure, Except.map]
    · simpa [hstarts, bind, Except.bind] using ih hrest

open scoped Classical in
/-- A workflow is started exactly if one of its rules starts it. -/
lemma shouldRun_eq (h : ∀ r ∈ w.triggers, r.Comparable e.branch) :
    w.shouldRun e = .ok (decide (∃ r ∈ w.triggers, r.Starts e)) := by
  rw [← firstMatch_isSome h, shouldRun, matchingRule]
  cases firstMatch e w.triggers <;> rfl

/-- A workflow with comparable rules is started exactly if one of them starts it. -/
lemma shouldRun_eq_true_iff (h : ∀ r ∈ w.triggers, r.Comparable e.branch) :
    w.shouldRun e = .ok true ↔ ∃ r ∈ w.triggers, r.Starts e := by
  classical
  rw [shouldRun_eq h, Except.ok.injEq, decide_eq_true_eq]

/-- What an event and the rules of a workflow decide. -/
structure DecidedByRules (w : Workflow) (e : Event) : Prop where
  /-- The event starts a run exactly if it does by one of the rules. -/
  starts : ∃ run, w.shouldRun e = .ok run ∧ (run = true ↔ ∃ r ∈ w.triggers, r.Starts e)
  /-- Neither the order nor the number of equal rules counts. -/
  sameRules : ∀ w' : Workflow, (∀ r, r ∈ w'.triggers ↔ r ∈ w.triggers) →
    w'.shouldRun e = w.shouldRun e
  /-- More rules stop no run. -/
  moreRules : ∀ w' : Workflow, (∀ r ∈ w'.triggers, r.Comparable e.branch) →
    (∀ r ∈ w.triggers, r ∈ w'.triggers) → w.shouldRun e = .ok true → w'.shouldRun e = .ok true
  /-- An entry at the end of the branches of a rule stops no run if it takes branches in. -/
  positiveEntry : ∀ before r after entry, w.triggers = before ++ r :: after →
    Pattern.Comparable e.branch (Pattern.patternOf entry) → ¬Pattern.Negated entry →
    w.shouldRun e = .ok true →
    { w with triggers := before ++ r.withEntry entry :: after }.shouldRun e = .ok true
  /-- An entry at the end of the branches of a rule starts no run if it puts branches out. -/
  negatedEntry : ∀ before r after entry, w.triggers = before ++ r :: after →
    Pattern.Comparable e.branch (Pattern.patternOf entry) → Pattern.Negated entry →
    { w with triggers := before ++ r.withEntry entry :: after }.shouldRun e = .ok true →
    w.shouldRun e = .ok true
  /-- A rule that lists no branches, or only such as it puts out, matches nothing. -/
  onlyNegated : ∀ r ∈ w.triggers, ∀ entries, r.branches = some entries →
    (∀ entry ∈ entries, Pattern.Negated entry) → r.test e = .ok false

/-- Whether an event starts a run is decided by the rules of the workflow one by one, if the
patterns of all rules can be compared with the branch of the event. -/
theorem decidedByRules (w : Workflow) (e : Event) (h : ∀ r ∈ w.triggers, r.Comparable e.branch) :
    w.DecidedByRules e := by
  classical
  have hreplaced {before after : List TriggerRule} {r : TriggerRule} {entry : String}
      (htriggers : w.triggers = before ++ r :: after)
      (hentry : Pattern.Comparable e.branch (Pattern.patternOf entry)) :
      ∀ r' ∈ before ++ r.withEntry entry :: after, r'.Comparable e.branch := by
    rw [htriggers] at h
    intro r' hr'
    rcases List.mem_append.mp hr' with hr' | hr'
    · exact h r' (List.mem_append_left _ hr')
    · rcases List.mem_cons.mp hr' with rfl | hr'
      · exact (h r (by simp)).withEntry hentry
      · exact h r' (by simp [hr'])
  refine ⟨⟨_, shouldRun_eq h, decide_eq_true_iff⟩, ?_, ?_, ?_, ?_, ?_⟩
  · intro w' hsame
    have h' : ∀ r ∈ w'.triggers, r.Comparable e.branch := fun r hr => h r ((hsame r).mp hr)
    simp [shouldRun_eq h, shouldRun_eq h', hsame]
  · intro w' h' hmore hrun
    obtain ⟨r, hr, hstarts⟩ := (shouldRun_eq_true_iff h).mp hrun
    exact (shouldRun_eq_true_iff h').mpr ⟨r, hmore r hr, hstarts⟩
  · intro before r after entry htriggers hentry hpositive hrun
    rw [shouldRun_eq_true_iff h, htriggers] at hrun
    rw [shouldRun_eq_true_iff (hreplaced htriggers hentry)]
    exact exists_starts_of_replace (fun hr => hr.withEntry hpositive) hrun
  · intro before r after entry htriggers hentry hnegated hrun
    rw [shouldRun_eq_true_iff (hreplaced htriggers hentry)] at hrun
    rw [shouldRun_eq_true_iff h, htriggers]
    exact exists_starts_of_replace (fun hr => hr.of_withEntry hnegated) hrun
  · intro r hr entries hb hnegated
    rw [TriggerRule.test_eq (h r hr)]
    simp [TriggerRule.not_starts_of_forall_negated hb hnegated]

/-- A workflow for releases: pushes to all but one of their branches, and most pull requests. -/
def ofReleases : Workflow :=
  { name := "Release", jobs := []
    triggers := [
      { event := pushKind, branches := some ["release/**", "!release/old"] },
      { event := pullRequestKind, branchesIgnore := some ["docs/*"], types := some [] }] }

/-- A push to a release. -/
def pushToRelease : Event := { kind := pushKind, branch := .text "release/new" }

lemma comparable_ofReleases : ∀ r ∈ ofReleases.triggers, r.Comparable pushToRelease.branch := by
  have hentries : ∀ entry ∈ ["release/**", "!release/old"],
      (Expression.read (Pattern.expressionText (Pattern.patternOf entry))).isOk = true := by
    decide +kernel
  have hdocs : (Expression.read (Pattern.expressionText "docs/*")).isOk = true := by
    decide +kernel
  intro r hr
  rcases List.mem_cons.mp hr with rfl | hr
  · refine ⟨?_, by rintro patterns ⟨⟩⟩
    rintro entries ⟨⟩ entry hentry
    exact Pattern.comparable_text (hentries entry hentry)
  · obtain rfl := List.mem_singleton.mp hr
    refine ⟨by rintro entries ⟨⟩, ?_⟩
    rintro patterns ⟨⟩ p hp
    rw [List.mem_singleton.mp hp]
    exact Pattern.comparable_text hdocs

/-- The push starts a run, by a rule in which its branch matches the last entry that takes it in. -/
theorem decidedByRules_ofReleases :
    ofReleases.shouldRun pushToRelease = .ok true ∧
      ∃ r ∈ ofReleases.triggers, r.Starts pushToRelease := by
  have hrun : ofReleases.shouldRun pushToRelease = .ok true := by decide +kernel
  obtain ⟨run, hok, hiff⟩ := (decidedByRules ofReleases pushToRelease comparable_ofReleases).starts
  rw [hrun] at hok
  exact ⟨hrun, hiff.mp (Except.ok.inj hok).symm⟩

end Workflow

end CiRunner
