import CiRunner.Proofs.Workflow.Reading
import CiRunner.Proofs.Workflow.Writing
import CiRunner.Workflow.Building

/-!
# Rules that are built and rules that are read

A rule is built from lists of branches, of branches that are left out and of activities, or it is
read from a mapping with these lists.  To build it with an empty list is to leave the list out of
the mapping.  A list that stands in the mapping though it is empty is a filter all the same: without
branches it lets nothing through, and without activities it means the usual ones.
-/

namespace CiRunner

open Success

/-! ## Mappings of lists -/

namespace Value

/-- What a mapping has of a list: an empty one is left out, unless it is kept. -/
def listed? (kept : List String) (name : String) (texts : List String) : Option (List String) :=
  if texts = [] ∧ name ∉ kept then none else some texts

/-- The lists of a rule as a mapping.  Those that are empty are left out, except for some that are
kept. -/
def ofLists (kept branches ignore types : List String) : Value :=
  .ofFields [
    (.text "branches", (listed? kept "branches" branches).map .ofTexts),
    (.text "branches-ignore", (listed? kept "branches-ignore" ignore).map .ofTexts),
    (.text "types", (listed? kept "types" types).map .ofTexts)]

/-- A list is left out of a mapping exactly if it makes no filter. -/
lemma listed?_nil (name : String) (texts : List String) :
    listed? [] name texts = TriggerRule.filter texts := by
  cases texts with
  | nil => rfl
  | cons text rest => rfl

/-- A list that is kept is there. -/
lemma listed?_of_mem {kept : List String} {name : String} (h : name ∈ kept)
    (texts : List String) : listed? kept name texts = some texts :=
  if_neg fun hleft => hleft.2 h

end Value

/-! ## Events that match -/

namespace TriggerRule

variable {r r' : TriggerRule} {e : Event}

/-- Rules for one kind of event with the same branch filters match the same events if they are not
for pull requests, or if they are for the same activities. -/
lemma test_congr (hevent : r.event = r'.event) (hbranches : r.branches = r'.branches)
    (hignore : r.branchesIgnore = r'.branchesIgnore)
    (hactivities : r.event = pullRequestKind → r.activities = r'.activities) (e : Event) :
    r.test e = r'.test e := by
  have hfilters : r.filtersBranches = r'.filtersBranches := by
    rw [filtersBranches, filtersBranches, hbranches, hignore]
  have hadmits : r.admits e.branch = r'.admits e.branch := by
    rw [admits, admits, hbranches, hignore]
  by_cases hkind : r.event = e.kind
  · by_cases hpull : e.kind = pullRequestKind
    · have haction : r.admitsAction e = r'.admitsAction e := by
        rw [admitsAction, admitsAction, hactivities (hkind.trans hpull)]
      rw [test, test, hevent, haction, hfilters, hadmits]
    · simp only [test, hpull, false_and, if_false, hevent, hfilters, hadmits]
  · rw [test, test, if_pos hkind, if_pos (hevent ▸ hkind)]

/-- A rule whose filter of branches is empty matches nothing. -/
lemma test_of_branches_eq_nil (h : r.branches = some []) (e : Event) : r.test e = .ok false := by
  have hadmits : r.admits e.branch = .ok false := by
    rw [admits, h]
    rfl
  have hfilters : r.filtersBranches = true := by
    rw [filtersBranches, h]
    rfl
  unfold test
  split_ifs with hkind haction hnone href
  · rfl
  · rfl
  · rw [hfilters] at hnone
    cases hnone
  · rfl
  · exact hadmits

end TriggerRule

namespace Workflow

variable {rules rules' : List TriggerRule} {e : Event}

/-- Whether a rule is found depends on what the rules match, one by one. -/
lemma firstMatch_isSome_congr
    (h : List.Forall₂ (fun r r' : TriggerRule => r.test e = r'.test e) rules rules') :
    (firstMatch e rules).map Option.isSome = (firstMatch e rules').map Option.isSome := by
  induction h with
  | nil => rfl
  | @cons r r' rest rest' htest _ ih =>
    rw [firstMatch, firstMatch, htest]
    cases r'.test e with
    | error reason => rfl
    | ok matched =>
      cases matched with
      | true => rfl
      | false => exact ih

/-- Whether a workflow is started depends on what its rules match, one by one. -/
lemma shouldRun_congr {w w' : Workflow} {e : Event}
    (h : List.Forall₂ (fun r r' : TriggerRule => r.test e = r'.test e) w.triggers w'.triggers) :
    w.shouldRun e = w'.shouldRun e := by
  have hmap : ∀ w : Workflow, w.shouldRun e = (firstMatch e w.triggers).map Option.isSome := by
    intro w
    rw [shouldRun, matchingRule]
    cases firstMatch e w.triggers <;> rfl
  rw [hmap, hmap, firstMatch_isSome_congr h]

end Workflow

namespace TriggerRule

/-- Two rules start runs for the same events, each alone and in one place among other rules. -/
structure StartsLike (r r' : TriggerRule) : Prop where
  /-- They match the same events. -/
  test_eq : ∀ e : Event, r.test e = r'.test e
  /-- A workflow with one of them is started by the same events as with the other. -/
  shouldRun_eq : ∀ (w : Workflow) (before after : List TriggerRule) (e : Event),
    { w with triggers := before ++ r :: after }.shouldRun e =
      { w with triggers := before ++ r' :: after }.shouldRun e

/-- Rules that match the same events start runs for the same events. -/
lemma StartsLike.of_test_eq {r r' : TriggerRule} (h : ∀ e : Event, r.test e = r'.test e) :
    r.StartsLike r' := by
  refine ⟨h, fun w before after e => Workflow.shouldRun_congr ?_⟩
  have hrefl : ∀ rules : List TriggerRule,
      List.Forall₂ (fun r r' : TriggerRule => r.test e = r'.test e) rules rules :=
    fun rules => List.forall₂_same.mpr fun _ _ => rfl
  exact List.rel_append (hrefl before) (.cons (h e) (hrefl after))

end TriggerRule

/-! ## Rules from lists -/

namespace Workflow

open TriggerRule

/-- A rule is read from the mapping of its lists, unless it has both kinds of branch filters. -/
lemma readRule_ofLists (kind : String) (kept branches ignore types : List String) :
    readRule kind (.ofLists kept branches ignore types) =
      if (Value.listed? kept "branches" branches).isSome &&
          (Value.listed? kept "branches-ignore" ignore).isSome then refuse (.bothFilters kind)
      else .ok { event := kind, branches := Value.listed? kept "branches" branches
                 branchesIgnore := Value.listed? kept "branches-ignore" ignore
                 types := Value.listed? kept "types" types } :=
  readRule_filters kind { event := kind, branches := Value.listed? kept "branches" branches
                          branchesIgnore := Value.listed? kept "branches-ignore" ignore
                          types := Value.listed? kept "types" types }

/-- Events that are a mapping for one kind read as one rule. -/
def ReadsAs (kind : String) (spec : Value) (r : TriggerRule) : Prop :=
  readTriggers (.map [(.text kind, spec)]) = .ok [r]

/-- The rule of a supported kind is read from what stands at the kind. -/
lemma readTriggers_singleton {kind : String} (hkind : kind ∈ eventKinds) (spec : Value) :
    readTriggers (.map [(.text kind, spec)]) = (readRule kind spec).map fun r => [r] := by
  rw [readTriggers, readRules, supportedKind?_of_mem hkind]
  cases hrule : readRule kind spec <;> simp only [hrule] <;> rfl

lemma readsAs_iff {kind : String} (hkind : kind ∈ eventKinds) {spec : Value} {r : TriggerRule} :
    ReadsAs kind spec r ↔ readRule kind spec = .ok r := by
  rw [ReadsAs, readTriggers_singleton hkind]
  cases readRule kind spec with
  | error reason => exact iff_of_false nofun nofun
  | ok rule => simp [Except.map]

/-- Of two lists one of which is empty, one makes no filter. -/
lemma not_both_filters {branches ignore : List String} (h : branches = [] ∨ ignore = []) :
    ¬((filter branches).isSome && (filter ignore).isSome) = true := by
  rcases h with rfl | rfl
  · simp [filter]
  · simp [filter]

/-- Without both kinds of branch filters, the mapping of lists in which empty ones are left out
reads as the rule that is built from the lists. -/
lemma readRule_ofLists_nil (kind : String) {branches ignore : List String} (types : List String)
    (h : branches = [] ∨ ignore = []) :
    readRule kind (.ofLists [] branches ignore types) =
      .ok { event := kind, branches := filter branches, branchesIgnore := filter ignore
            types := filter types } := by
  rw [readRule_ofLists]
  simp only [Value.listed?_nil]
  exact if_neg (not_both_filters h)

/-- A rule that is read from a mapping with an empty list of branches matches nothing. -/
lemma test_of_readRule {kind : String} {spec : Value}
    (hspec : spec.get? "branches" = some (.list [])) {r : TriggerRule}
    (hread : readRule kind spec = .ok r) (e : Event) : r.test e = .ok false := by
  refine test_of_branches_eq_nil ?_ e
  have hmap : spec.isMap = true := by
    cases spec with
    | map entries => rfl
    | _ => cases hspec
  have hfield : spec.field "branches" = .list [] := by rw [Value.field, hspec, Option.getD_some]
  rw [readRule_of_isMap kind hmap, hfield] at hread
  obtain ⟨branches, hbranches, hread⟩ := bind_eq_ok_iff.mp hread
  obtain ⟨ignore, -, hread⟩ := bind_eq_ok_iff.mp hread
  split_ifs at hread
  · exact absurd hread (refuse_ne_ok _ _)
  · obtain ⟨types, -, hread⟩ := bind_eq_ok_iff.mp hread
    rw [pure_eq_ok_iff] at hread
    subst hread
    cases hbranches
    rfl

/-- What it means for the events of a kind that an empty list is kept in their mapping. -/
structure EmptyListsKept (kind : String) (branches ignore types : List String) : Prop where
  /-- A rule that is read from a mapping with an empty list of branches matches nothing. -/
  noBranches : ∀ (spec : Value) (r : TriggerRule), spec.get? "branches" = some (.list []) →
    ReadsAs kind spec r → ∀ e : Event, r.test e = .ok false
  /-- There is such a rule where no branches are to be left out. -/
  readable : ∃ r, ReadsAs kind (.ofLists ["branches"] [] [] types) r ∧
    ∀ e : Event, r.test e = .ok false
  /-- With branches to be left out, the mapping is refused. -/
  refused : ignore ≠ [] →
    readTriggers (.map [(.text kind, .ofLists ["branches"] [] ignore types)]) =
      refuse (.bothFilters kind)
  /-- To keep an empty list of activities makes no difference. -/
  noActivities : ∃ r r', ReadsAs kind (.ofLists ["types"] branches ignore []) r ∧
    ReadsAs kind (.ofLists [] branches ignore []) r' ∧ r.StartsLike r'

/-- Of the lists that are kept, only those of branches count. -/
lemma emptyListsKept {kind : String} (hkind : kind ∈ eventKinds) {branches ignore : List String}
    (types : List String) (h : branches = [] ∨ ignore = []) :
    EmptyListsKept kind branches ignore types := by
  have hkept : Value.listed? ["branches"] "branches" [] = some [] :=
    Value.listed?_of_mem (List.mem_singleton_self _) []
  refine ⟨fun spec r hspec hread => test_of_readRule hspec ((readsAs_iff hkind).mp hread), ?_,
    fun hignore => ?_, ?_⟩
  · refine ⟨_, (readsAs_iff hkind).mpr (readRule_ofLists kind ["branches"] [] [] types), ?_⟩
    exact test_of_branches_eq_nil hkept
  · have hlisted : Value.listed? ["branches"] "branches-ignore" ignore = some ignore :=
      if_neg fun hleft => hignore hleft.1
    have hboth : ((some ([] : List String)).isSome && (some ignore).isSome) = true := rfl
    rw [readTriggers_singleton hkind, readRule_ofLists, hkept, hlisted, if_pos hboth]
    rfl
  · have hactivities : readRule kind (.ofLists ["types"] branches ignore []) =
        .ok { event := kind, branches := filter branches, branchesIgnore := filter ignore
              types := some [] } := by
      have hbranches : Value.listed? ["types"] "branches" branches = filter branches := by
        cases branches <;> rfl
      have hignore : Value.listed? ["types"] "branches-ignore" ignore = filter ignore := by
        cases ignore <;> rfl
      rw [readRule_ofLists, hbranches, hignore]
      exact if_neg (not_both_filters h)
    refine ⟨_, _, (readsAs_iff hkind).mpr hactivities,
      (readsAs_iff hkind).mpr (readRule_ofLists_nil kind [] h), .of_test_eq ?_⟩
    -- an empty list of activities and none mean the same ones
    exact test_congr rfl rfl rfl fun _ => rfl

/-- What is built from lists is what is read from the mapping of the lists, if there are not both
kinds of branch filters and empty lists are left out of the mapping.  Activities that are listed for
pushes are read, but no event tells the difference.  If an empty list is kept in the mapping, it is
a filter that lets no branch through, or it stands for the usual activities. -/
theorem built_rules_read_back (branches ignore types : List String)
    (h : branches = [] ∨ ignore = []) :
    ReadsAs "push" (.ofLists [] branches ignore []) (onPush branches ignore) ∧
      ReadsAs "pull_request" (.ofLists [] branches ignore types)
        (onPullRequest branches ignore types) ∧
      readTriggers (.map [(.text "push", .ofLists [] branches ignore []),
          (.text "pull_request", .ofLists [] branches ignore types)]) =
        .ok [onPush branches ignore, onPullRequest branches ignore types] ∧
      (∃ r : TriggerRule, ReadsAs "push" (.ofLists [] branches ignore types) r ∧
        r = { onPush branches ignore with types := filter types } ∧
        r.StartsLike (onPush branches ignore)) ∧
      ∀ kind ∈ ["push", "pull_request"], EmptyListsKept kind branches ignore types := by
  have hpush : readRule "push" (.ofLists [] branches ignore []) = .ok (onPush branches ignore) :=
    readRule_ofLists_nil "push" [] h
  have hpull : readRule "pull_request" (.ofLists [] branches ignore types) =
      .ok (onPullRequest branches ignore types) :=
    readRule_ofLists_nil "pull_request" types h
  have hkinds : "push" ∈ eventKinds ∧ "pull_request" ∈ eventKinds := by decide
  refine ⟨(readsAs_iff hkinds.1).mpr hpush, (readsAs_iff hkinds.2).mpr hpull, ?_, ?_,
    fun kind hkind => emptyListsKept hkind types h⟩
  · rw [readTriggers, readRules, supportedKind?_of_mem hkinds.1, readRules,
      supportedKind?_of_mem hkinds.2]
    simp only [hpush, hpull]
    rfl
  · refine ⟨_, (readsAs_iff hkinds.1).mpr (readRule_ofLists_nil "push" types h), rfl, ?_⟩
    have hdistinct : "push" ≠ pullRequestKind := by decide
    exact .of_test_eq (test_congr rfl rfl rfl fun hsame => absurd hsame hdistinct)

/-- Rules for two branches, and for pull requests that are labelled, are those that are read. -/
theorem built_rules_read_back_of_two_branches :
    readTriggers (.map [(.text "push", .map [
        (.text "branches", .list [.text "main", .text "dev"])])]) =
      .ok [onPush ["main", "dev"] []] ∧
    readTriggers (.map [(.text "pull_request", .map [
        (.text "branches", .list [.text "main", .text "dev"]),
        (.text "types", .list [.text "labeled"])])]) =
      .ok [onPullRequest ["main", "dev"] [] ["labeled"]] := by
  obtain ⟨hpush, hpull, -⟩ := built_rules_read_back ["main", "dev"] [] ["labeled"] (Or.inr rfl)
  exact ⟨hpush, hpull⟩

end Workflow

end CiRunner
