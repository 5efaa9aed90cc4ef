import CiRunner.Proofs.Workflow.Reading
import Mathlib.Data.List.Induction

/-!
# Kinds of events that are not supported

The events that start a workflow are given as one kind, as a list of kinds or as a mapping from
kinds to filters.  Kinds that are not supported may be there or not: nothing about them is read, so
they make no rule and no error.  A list without filters and a mapping without filters say the same.
-/

namespace CiRunner

open Success

namespace Value

/-! ## Mappings that are written -/

/-- A key that is not there is written behind the others. -/
lemma insert_of_forall_not_same {key : Value} (v : Value) {entries : List (Value × Value)}
    (h : ∀ entry ∈ entries, entry.1.same key = false) :
    insert key v entries = entries ++ [(key, v)] := by
  induction entries with
  | nil => rfl
  | cons entry rest ih =>
    obtain ⟨hentry, hrest⟩ := List.forall_mem_cons.mp h
    rw [insert, hentry, if_neg Bool.false_ne_true, ih hrest, List.cons_append]

/-- Entries with distinct texts as keys are written as they are. -/
lemma ofEntries_of_nodup {names : List String} (h : names.Nodup) (v : String → Value) :
    ofEntries (names.map fun name => (.text name, v name)) =
      names.map fun name => (.text name, v name) := by
  induction names using List.reverseRecOn with
  | nil => rfl
  | append_singleton names name ih =>
    obtain ⟨hnodup, -, hdistinct⟩ := List.nodup_append.mp h
    have hnew : name ∉ names := fun hmem => hdistinct name hmem name (by simp) rfl
    have hother : ∀ entry ∈ names.map (fun name => (text name, v name)),
        entry.1.same (.text name) = false := by
      intro entry hentry
      obtain ⟨other, hmem, rfl⟩ := List.mem_map.mp hentry
      rw [same_text, beq_eq_false_iff_ne]
      rintro rfl
      exact hnew hmem
    have hwritten := ih hnodup
    rw [ofEntries] at hwritten ⊢
    rw [List.map_append, List.foldl_append, hwritten, List.map_singleton, List.foldl_cons,
      List.foldl_nil, insert_of_forall_not_same (v name) hother]

/-! ## What events name -/

/-- The kinds that events name: a text itself, the items of a list, or the keys of a mapping. -/
def kinds? : Value → Option (List Value)
  | text s => some [text s]
  | list items => some items
  | map entries => some (entries.map (·.1))
  | _ => none

/-- Events with the supported kinds only: of a list the items that name one, of a mapping the
entries of those. -/
def supportedOnly : Value → Value
  | list items => list (items.filter (isAmong eventKinds))
  | map entries => map (entries.filter fun entry => entry.1.isAmong eventKinds)
  | v => v

end Value

namespace Workflow

/-! ## Reading rules -/

/-- A value names a supported kind exactly if it is one of them. -/
lemma supportedKind?_eq_none_iff {v : Value} :
    supportedKind? v = none ↔ v.isAmong eventKinds = false := by
  cases v with
  | text s => simp [supportedKind?, Value.isAmong]
  | _ => exact iff_of_true rfl rfl

/-- Entries of other kinds make neither rules nor errors. -/
lemma readRules_filter (entries : List (Value × Value)) :
    readRules (entries.filter fun entry => entry.1.isAmong eventKinds) = readRules entries := by
  induction entries with
  | nil => rfl
  | cons entry rest ih =>
    obtain ⟨key, spec⟩ := entry
    cases hkind : supportedKind? key with
    | none =>
      have hother : key.isAmong eventKinds = false := supportedKind?_eq_none_iff.mp hkind
      rw [List.filter_cons_of_neg (by simp [hother]), readRules, hkind, ih]
    | some kind =>
      have hnamed : key.isAmong eventKinds = true := by
        rw [← Bool.not_eq_false, ← supportedKind?_eq_none_iff, hkind]
        exact Option.some_ne_none kind
      rw [List.filter_cons_of_pos (by simpa using hnamed), readRules, readRules, ih]

/-- Items of other kinds make no rules. -/
lemma filterMap_filter_supportedKind? (items : List Value) :
    (items.filter (Value.isAmong eventKinds)).filterMap supportedKind? =
      items.filterMap supportedKind? := by
  rw [List.filterMap_filter]
  congr 1
  funext item
  split_ifs with hnamed
  · rfl
  · exact (supportedKind?_eq_none_iff.mpr (Bool.eq_false_iff.mpr hnamed)).symm

/-- Kinds that are not supported do not count. -/
lemma readTriggers_supportedOnly (v : Value) : readTriggers v.supportedOnly = readTriggers v := by
  cases v with
  | list items =>
    rw [Value.supportedOnly, readTriggers, readTriggers, filterMap_filter_supportedKind?]
  | map entries => exact readRules_filter entries
  | _ => rfl

/-- Entries without filters make the rules of a list. -/
lemma readRules_of_null (names : List String) :
    readRules (names.map fun name => (.text name, .null)) =
      .ok (((names.map Value.text).filterMap supportedKind?).map
        fun kind => { event := kind }) := by
  induction names with
  | nil => rfl
  | cons name names ih =>
    rw [List.map_cons, readRules]
    cases hkind : supportedKind? (.text name) with
    | none => rw [ih, List.map_cons, List.filterMap_cons_none hkind]
    | some kind =>
      rw [ih, List.map_cons, List.filterMap_cons_some hkind]
      rfl

/-- A single kind is a list of one. -/
lemma readTriggers_text (s : String) :
    readTriggers (.text s) = readTriggers (.list [.text s]) := by
  rw [readTriggers, readTriggers]
  cases hkind : supportedKind? (.text s) with
  | none => rw [List.filterMap_cons_none hkind, Option.toList_none, List.filterMap_nil]
  | some kind => rw [List.filterMap_cons_some hkind, Option.toList_some, List.filterMap_nil]

/-! ## No supported kind -/

/-- Entries make no rule exactly if none of them is of a supported kind. -/
lemma readRules_eq_nil_iff {entries : List (Value × Value)} :
    readRules entries = .ok [] ↔ ∀ entry ∈ entries, entry.1.isAmong eventKinds = false := by
  induction entries with
  | nil => exact iff_of_true rfl (List.forall_mem_nil _)
  | cons entry rest ih =>
    obtain ⟨key, spec⟩ := entry
    rw [List.forall_mem_cons, ← supportedKind?_eq_none_iff, ← ih, readRules]
    cases hkind : supportedKind? key with
    | none => exact (and_iff_right rfl).symm
    | some kind =>
      refine iff_of_false (fun h => ?_) fun h => Option.some_ne_none kind h.1
      -- a supported kind makes a rule or an error
      simp only [bind_eq_ok_iff, pure_eq_ok_iff] at h
      obtain ⟨rule, -, rules, -, hcons⟩ := h
      exact List.cons_ne_nil rule rules hcons

/-- Items make no rule exactly if none of them is a supported kind. -/
lemma readTriggers_list_eq_nil_iff {items : List Value} :
    readTriggers (.list items) = .ok [] ↔ ∀ item ∈ items, item.isAmong eventKinds = false := by
  rw [readTriggers, Except.ok.injEq, List.map_eq_nil_iff, List.filterMap_eq_nil_iff]
  exact forall₂_congr fun item _ => supportedKind?_eq_none_iff

/-- Events make no rule exactly if they name no supported kind. -/
lemma readTriggers_eq_nil_iff {v : Value} {kinds : List Value} (hv : v.kinds? = some kinds) :
    readTriggers v = .ok [] ↔ ∀ kind ∈ kinds, kind.isAmong eventKinds = false := by
  cases v with
  | text s =>
    obtain rfl := Option.some.inj hv
    rw [readTriggers_text, readTriggers_list_eq_nil_iff]
  | list items =>
    obtain rfl := Option.some.inj hv
    exact readTriggers_list_eq_nil_iff
  | map entries =>
    obtain rfl := Option.some.inj hv
    rw [List.forall_mem_map]
    exact readRules_eq_nil_iff
  | _ => cases hv

/-- A workflow without rules is started by nothing. -/
lemma shouldRun_of_no_rules {w : Workflow} (h : w.triggers = []) (e : Event) :
    w.shouldRun e = .ok false := by
  rw [shouldRun, matchingRule, h]
  rfl

/-- Events are read without regard to the kinds that are not supported, and to whether a list or a
mapping without filters names them.  Leaving out the items or the entries of other kinds gives the
same rules, or the same error.  A list of distinct texts reads as the mapping that has nothing at
each of them, and one text as the list of it.  Events that name no supported kind, and only those,
make no rules, and a workflow with such events is started by nothing. -/
theorem unsupported_kinds_without_effect :
    (∀ v : Value, readTriggers v.supportedOnly = readTriggers v) ∧
      (∀ names : List String, names.Nodup →
        readTriggers (.list (names.map .text)) =
          readTriggers (.map (Value.ofEntries (names.map fun name => (.text name, .null))))) ∧
      (∀ name : String, readTriggers (.text name) = readTriggers (.list [.text name])) ∧
      (∀ (v : Value) (kinds : List Value), v.kinds? = some kinds →
        (readTriggers v = .ok [] ↔ ∀ kind ∈ kinds, kind.isAmong eventKinds = false)) ∧
      ∀ (source : Option String) (doc events : Value) (kinds : List Value) (w : Workflow),
        ofValue source doc = .ok w → events? doc = some events → events.kinds? = some kinds →
          (∀ kind ∈ kinds, kind.isAmong eventKinds = false) →
            w.triggers = [] ∧ ∀ e : Event, w.shouldRun e = .ok false := by
  refine ⟨readTriggers_supportedOnly, ?_, readTriggers_text, fun v kinds hv =>
    readTriggers_eq_nil_iff hv, ?_⟩
  · intro names hnodup
    rw [Value.ofEntries_of_nodup hnodup fun _ => .null]
    exact (readRules_of_null names).symm
  · intro source doc events kinds w hread hevents hkinds hother
    obtain ⟨events', _, _, -, -, -, htriggers, -, hevents'⟩ := ofValue_eq_ok hread
    obtain rfl : events = events' := Option.some.inj (hevents.symm.trans hevents')
    have hnone : readTriggers events = .ok [] := (readTriggers_eq_nil_iff hkinds).mpr hother
    have hempty : w.triggers = [] := Except.ok.inj (htriggers.symm.trans hnone)
    exact ⟨hempty, shouldRun_of_no_rules hempty⟩

/-- A document whose workflow is started by a schedule, by other workflows and by a key that is no
text. -/
def scheduledDocument : Value :=
  .map [
    (.bool true, .map [
      (.text "schedule", .list [.map [(.text "cron", .text "0 * * * *")]]),
      (.text "workflow_call", .int 1), (.int 7, .null)]),
    (.text "jobs", .map [
      (.text "rustdoc", .map [(.text "steps", .list [
        .map [(.text "run", .text "cargo doc")]])])])]

/-- The document is accepted, and its workflow is started by nothing; nor does it count in which
form two kinds are given. -/
theorem unsupported_kinds_without_effect_of_schedule :
    (∃ w, ofValue none scheduledDocument = .ok w ∧ w.triggers = [] ∧
        ∀ e : Event, w.shouldRun e = .ok false) ∧
      readTriggers (.list [.text "push", .text "schedule"]) =
        readTriggers (.map [(.text "push", .null), (.text "schedule", .null)]) := by
  obtain ⟨-, hforms, -, -, hdocument⟩ := unsupported_kinds_without_effect
  have haccepted : (ofValue none scheduledDocument).isOk = true := by decide +kernel
  refine ⟨?_, hforms ["push", "schedule"] (by decide)⟩
  cases hread : ofValue none scheduledDocument with
  | error reason =>
    rw [hread] at haccepted
    cases haccepted
  | ok w =>
    refine ⟨w, rfl, hdocument none scheduledDocument _ _ w hread rfl rfl ?_⟩
    simp [Value.isAmong, eventKinds, pushKind, pullRequestKind]

end Workflow

end CiRunner
