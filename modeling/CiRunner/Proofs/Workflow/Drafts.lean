import CiRunner.Proofs.Workflow.Environments
import CiRunner.Workflow.JobDraft

/-!
# The jobs of a draft

A draft of a job is written call by call, and jobs are built of it in between.  Every call writes
one part of the draft, so a part is what the calls that write it make of it, in their order, and the
other calls do not matter (`JobDraft.applyAll_eq`).

Building a job changes nothing: not the draft, and not the jobs that were built before.  So every
job that is built in a session stands for the calls before it, whatever else is done.
-/

namespace CiRunner

namespace JobDraft

/-! ## What calls write -/

/-- A part of a job that calls can write. -/
inductive Part where
  /-- The jobs it depends on. -/
  | needs
  /-- The steps. -/
  | steps
  /-- The variables. -/
  | env
  /-- The label of the machine. -/
  | runsOn
  /-- The time limit. -/
  | timeout
  deriving DecidableEq

namespace Call

/-- The part that a call writes. -/
def part : Call → Part
  | dependsOn _ => .needs
  | defineStep .. | checkout _ => .steps
  | withEnv _ => .env
  | runsOn _ => .runsOn
  | timeout _ => .timeout

/-- The jobs that a call adds to those the job depends on. -/
@[simp] def needs : Call → List String
  | dependsOn names => names
  | _ => []

/-- The step that a call adds. -/
@[simp] def step? : Call → Option Step
  | defineStep name command cwd => some (.ofCommand name command cwd [] none)
  | checkout version => some (.ofCheckout version "Checkout")
  | _ => none

/-- The variables that a call writes, with the texts of their values. -/
@[simp] def settings : Call → List (String × String)
  | withEnv settings => settings.map fun (name, v) => (name, v.display)
  | _ => []

/-- The label that a call writes. -/
@[simp] def label? : Call → Option String
  | runsOn label => some label
  | _ => none

/-- The time limit that a call writes. -/
@[simp] def limit? : Call → Option Float
  | timeout minutes => some minutes
  | _ => none

/-- A call adds a step exactly if the steps are what it writes. -/
lemma step?_eq_none_iff {c : Call} : c.step? = none ↔ c.part ≠ .steps := by
  cases c <;> simp [step?, part]

/-- To the other parts as well a call adds nothing unless it writes them. -/
lemma adds_nothing (c : Call) :
    (c.part ≠ .needs → c.needs = []) ∧ (c.part ≠ .env → c.settings = []) ∧
      (c.part ≠ .runsOn → c.label? = none) ∧ (c.part ≠ .timeout → c.limit? = none) := by
  cases c <;> simp [part]

end Call

/-- A draft is what its calls make of each part. -/
theorem applyAll_eq (name : String) (calls : List Call) :
    applyAll { name } calls =
      { name
        needs := calls.flatMap Call.needs
        steps := calls.filterMap Call.step?
        env := .ofList (calls.flatMap Call.settings)
        runsOn := (calls.filterMap Call.label?).getLast?
        timeoutMinutes := (calls.filterMap Call.limit?).getLast? } := by
  induction calls using List.reverseRecOn with
  | nil => rfl
  | append_singleton calls c ih =>
    have hlast : applyAll { name } (calls ++ [c]) = (applyAll { name } calls).apply c := by
      rw [applyAll, List.foldl_append]
      rfl
    rw [hlast, ih]
    cases c with
    | withEnv settings => simp [apply, Environment.ofList, Environment.update]
    | _ => simp [apply]

/-- A job is what calls make of each part: its steps are those of the calls that add one and its
needs all that are listed, in the order of the calls, a variable stands where it is named first and
has the text it is given last, and of labels and limits the last one counts. -/
structure Builds (name : String) (calls : List Call) (j : Job) : Prop where
  /-- The name. -/
  name_eq : j.name = name
  /-- The steps. -/
  steps_eq : j.steps = calls.filterMap Call.step?
  /-- The jobs it depends on. -/
  needs_eq : j.needs = calls.flatMap Call.needs
  /-- The names of the variables. -/
  names_eq : j.env.names = ((calls.flatMap Call.settings).map (·.1)).eraseDups
  /-- The texts of the variables. -/
  value?_eq : ∀ v, j.env.value? v = (calls.flatMap Call.settings).reverse.lookup v
  /-- The label of the machine. -/
  runsOn_eq : j.runsOn = (calls.filterMap Call.label?).getLast?
  /-- The time limit. -/
  timeout_eq : j.timeoutMinutes = (calls.filterMap Call.limit?).getLast?

/-- A draft without steps makes no job, and any other one makes the job that its calls build. -/
theorem build_applyAll (name : String) (calls : List Call) :
    ((∀ c ∈ calls, c.part ≠ .steps) ∧
        (applyAll { name } calls).build = .error (.draftWithoutSteps name)) ∨
      (∃ c ∈ calls, c.part = .steps) ∧
        ∃ j, (applyAll { name } calls).build = .ok j ∧ Builds name calls j := by
  have hsteps : calls.filterMap Call.step? = [] ↔ ∀ c ∈ calls, c.part ≠ .steps := by
    rw [List.filterMap_eq_nil_iff]
    simp only [Call.step?_eq_none_iff]
  rw [applyAll_eq, build]
  by_cases hnone : ∀ c ∈ calls, c.part ≠ .steps
  · have hempty : (calls.filterMap Call.step?).isEmpty = true :=
      List.isEmpty_iff.mpr (hsteps.mpr hnone)
    exact Or.inl ⟨hnone, if_pos hempty⟩
  · have hadds : ¬(calls.filterMap Call.step?).isEmpty = true :=
      fun hempty => hnone (hsteps.mp (List.isEmpty_iff.mp hempty))
    push Not at hnone
    exact Or.inr ⟨hnone, _, if_neg hadds, rfl, rfl, rfl, Environment.names_ofList _,
      Environment.value?_ofList_eq_lookup _, rfl, rfl⟩

/-! ## The order of calls -/

/-- For every part, the calls that write it are the same in the same order. -/
def SameForEachPart (calls others : List Call) : Prop :=
  ∀ p : Part, calls.filter (fun c => c.part = p) = others.filter (fun c => c.part = p)

/-- What calls add that write one part does not depend on the others. -/
lemma flatMap_filter_part {α : Type} (p : Part) {f : Call → List α}
    (h : ∀ c : Call, c.part ≠ p → f c = []) (calls : List Call) :
    (calls.filter fun c => c.part = p).flatMap f = calls.flatMap f := by
  induction calls with
  | nil => rfl
  | cons c calls ih =>
    by_cases hc : c.part = p
    · rw [List.filter_cons_of_pos (by simpa using hc), List.flatMap_cons, List.flatMap_cons, ih]
    · rw [List.filter_cons_of_neg (by simpa using hc), List.flatMap_cons, h c hc, ih]
      rfl

/-- Calls for different parts may change places without a difference to the draft. -/
theorem SameForEachPart.applyAll_eq {calls others : List Call} (h : SameForEachPart calls others)
    (name : String) : applyAll { name } calls = applyAll { name } others := by
  have hflat : ∀ {α : Type} (p : Part) (f : Call → List α),
      (∀ c : Call, c.part ≠ p → f c = []) → calls.flatMap f = others.flatMap f := by
    intro α p f hf
    calc
      calls.flatMap f = (calls.filter fun c => c.part = p).flatMap f :=
        (flatMap_filter_part p hf calls).symm
      _ = (others.filter fun c => c.part = p).flatMap f := by rw [h p]
      _ = others.flatMap f := flatMap_filter_part p hf others
  have hmap : ∀ {α : Type} (p : Part) (f : Call → Option α),
      (∀ c : Call, c.part ≠ p → f c = none) → calls.filterMap f = others.filterMap f := by
    intro α p f hf
    have hlist := hflat p (fun c => (f c).toList) fun c hc => Option.toList_eq_nil_iff.mpr (hf c hc)
    rwa [← List.filterMap_eq_flatMap_toList, ← List.filterMap_eq_flatMap_toList] at hlist
  have hneeds := hflat .needs Call.needs fun c => c.adds_nothing.1
  have hsteps := hmap .steps Call.step? fun c => Call.step?_eq_none_iff.mpr
  have hsettings := hflat .env Call.settings fun c => c.adds_nothing.2.1
  have hlabels := hmap .runsOn Call.label? fun c => c.adds_nothing.2.2.1
  have hlimits := hmap .timeout Call.limit? fun c => c.adds_nothing.2.2.2
  rw [JobDraft.applyAll_eq, JobDraft.applyAll_eq, hneeds, hsettings, hsteps, hlabels, hlimits]

/-! ## Sessions -/

/-- What is done with a draft: it is written, or a job is built of it. -/
inductive Move where
  /-- A call. -/
  | call (c : Call)
  /-- A job is built. -/
  | build

namespace Move

/-- The call that is made, if one is. -/
def call? : Move → Option Call
  | call c => some c
  | build => none

/-- Whether a job is built. -/
def isBuild : Move → Bool
  | call _ => false
  | build => true

end Move

/-- The calls of a session. -/
def callsOf (moves : List Move) : List Call := moves.filterMap Move.call?

/-- A draft, and what came of building jobs of it so far. -/
structure Session where
  /-- The draft. -/
  draft : JobDraft
  /-- The jobs that were built, or why none was. -/
  built : List (Except BuildError Job) := []

namespace Session

/-- What one move makes of a session. -/
def move (s : Session) : Move → Session
  | .call c => { s with draft := s.draft.apply c }
  | .build => { s with built := s.built ++ [s.draft.build] }

/-- A session with a new draft. -/
def ofMoves (name : String) (moves : List Move) : Session :=
  moves.foldl move { draft := { name } }

/-- A move writes its call into the draft, and it leaves alone what was built before. -/
lemma move_spec (s : Session) (m : Move) :
    (s.move m).draft = s.draft.applyAll m.call?.toList ∧
      (s.move m).built = s.built ++ if m.isBuild then [s.draft.build] else [] := by
  cases m with
  | call c => exact ⟨rfl, (List.append_nil _).symm⟩
  | build => exact ⟨rfl, rfl⟩

/-- Moves write their calls into the draft, and they leave alone what was built before. -/
lemma foldl_move (s : Session) (moves : List Move) :
    (moves.foldl move s).draft = s.draft.applyAll (callsOf moves) ∧
      ∃ more, (moves.foldl move s).built = s.built ++ more ∧
        more.length = moves.countP Move.isBuild := by
  induction moves generalizing s with
  | nil => exact ⟨rfl, [], (List.append_nil _).symm, rfl⟩
  | cons m moves ih =>
    obtain ⟨hdraft, more, hbuilt, hlength⟩ := ih (s.move m)
    obtain ⟨hfirst, hadded⟩ := s.move_spec m
    rw [List.foldl_cons]
    constructor
    · rw [hdraft, hfirst]
      cases m with
      | call c => rfl
      | build => rfl
    · refine ⟨(if m.isBuild then [s.draft.build] else []) ++ more, ?_, ?_⟩
      · rw [hbuilt, hadded, List.append_assoc]
      · rw [List.length_append, hlength, List.countP_cons, Nat.add_comm]
        cases m with
        | call c => rfl
        | build => rfl

/-- The draft of a session is what its calls make of a new one. -/
lemma draft_ofMoves (name : String) (moves : List Move) :
    (ofMoves name moves).draft = applyAll { name } (callsOf moves) :=
  (foldl_move _ moves).1

/-- What was built at a move is what the draft made then. -/
lemma built_ofMoves (name : String) (before after : List Move) :
    (ofMoves name (before ++ .build :: after)).built[before.countP Move.isBuild]? =
      some (applyAll { name } (callsOf before)).build := by
  obtain ⟨hdraft, earlier, hbuilt, hlength⟩ := foldl_move { draft := { name } } before
  set s := before.foldl move { draft := { name } } with hs
  obtain ⟨-, later, hlast, -⟩ := foldl_move (s.move .build) after
  have hall : (ofMoves name (before ++ .build :: after)).built =
      earlier ++ s.draft.build :: later := by
    rw [ofMoves, List.foldl_append, List.foldl_cons, ← hs, hlast, (s.move_spec .build).2, hbuilt]
    simp [Move.isBuild]
  rw [hall, ← hlength, List.getElem?_append_right le_rfl, Nat.sub_self, hdraft]
  rfl

end Session

/-- What comes of building jobs in a session, in which calls and builds follow one another in any
order.  Building a job of the draft fails exactly if no call has added a step; otherwise the job is
what the calls make of each part, whatever was built in between.  It is the same job after any other
session whose calls are the same in the same order for each part.  And what was built at one move of
the session stays as it was built, from the calls before that move. -/
theorem session_builds_calls (name : String) (moves : List Move) :
    let session := Session.ofMoves name moves
    ((∃ reason, session.draft.build = .error reason) ↔ ∀ c ∈ callsOf moves, c.part ≠ .steps) ∧
      (∀ reason, session.draft.build = .error reason → reason = .draftWithoutSteps name) ∧
      (∀ j, session.draft.build = .ok j → Builds name (callsOf moves) j) ∧
      (∀ others, SameForEachPart (callsOf moves) (callsOf others) →
        (Session.ofMoves name others).draft.build = session.draft.build) ∧
      ∀ before after, moves = before ++ .build :: after →
        session.built[before.countP Move.isBuild]? =
          some (Session.ofMoves name before).draft.build := by
  intro session
  have hdraft : session.draft = applyAll { name } (callsOf moves) :=
    Session.draft_ofMoves name moves
  have hreorder : ∀ others, SameForEachPart (callsOf moves) (callsOf others) →
      (Session.ofMoves name others).draft.build = session.draft.build := by
    intro others hsame
    rw [hdraft, Session.draft_ofMoves, hsame.applyAll_eq]
  have hbuilt : ∀ before after, moves = before ++ .build :: after →
      session.built[before.countP Move.isBuild]? =
        some (Session.ofMoves name before).draft.build := by
    rintro before after hmoves
    have hsession : session = Session.ofMoves name (before ++ .build :: after) :=
      congrArg (Session.ofMoves name) hmoves
    rw [hsession, Session.built_ofMoves, Session.draft_ofMoves]
  rcases build_applyAll name (callsOf moves) with ⟨hnone, hbuild⟩ | ⟨⟨c, hc, hstep⟩, j, hbuild, hj⟩
  · rw [← hdraft] at hbuild
    refine ⟨iff_of_true ⟨_, hbuild⟩ hnone, fun reason h => ?_, fun j h => ?_, hreorder, hbuilt⟩
    · exact Except.error.inj (h.symm.trans hbuild)
    · cases h.symm.trans hbuild
  · rw [← hdraft] at hbuild
    refine ⟨iff_of_false ?_ fun hnone => hnone c hc hstep, fun reason h => ?_, fun j' h => ?_,
      hreorder, hbuilt⟩
    · rintro ⟨reason, h⟩
      cases h.symm.trans hbuild
    · cases h.symm.trans hbuild
    · cases h.symm.trans hbuild
      exact hj

/-- A session in which a job is built before the draft is complete. -/
def interrupted : List Move :=
  [.call (.defineStep "compile" "make" .null), .call (.runsOn "ubuntu-20.04"), .build,
    .call (.withEnv [("LEVEL", .int 1)]), .call (.checkout "v4"),
    .call (.withEnv [("TARGET", .text "all"), ("LEVEL", .int 2)]), .call (.runsOn "ubuntu-latest")]

/-- The calls of `interrupted`, with the variables first and the labels last. -/
def regrouped : List Move :=
  [.call (.withEnv [("LEVEL", .int 1)]),
    .call (.withEnv [("TARGET", .text "all"), ("LEVEL", .int 2)]),
    .call (.defineStep "compile" "make" .null), .call (.checkout "v4"),
    .call (.runsOn "ubuntu-20.04"), .call (.runsOn "ubuntu-latest")]

/-- Nothing is built without a step.  The job that was built in between has the first two calls, the
last one has them all, and it is the same when calls that write different parts change places. -/
theorem session_builds_calls_of_interrupted :
    (Session.ofMoves "test" []).draft.build = .error (.draftWithoutSteps "test") ∧
      (∃ j, (Session.ofMoves "test" interrupted).draft.build = .ok j ∧
        Builds "test" (callsOf interrupted) j) ∧
      (Session.ofMoves "test" regrouped).draft.build =
        (Session.ofMoves "test" interrupted).draft.build ∧
      (Session.ofMoves "test" interrupted).built[0]? =
        some (Session.ofMoves "test" (interrupted.take 2)).draft.build := by
  have hempty : (Session.ofMoves "test" []).draft.build =
      .error (.draftWithoutSteps "test") := by
    obtain ⟨hfails, hreason, -⟩ := session_builds_calls "test" []
    obtain ⟨reason, h⟩ := hfails.mpr (by simp [callsOf])
    rw [h, hreason reason h]
  have hsame : SameForEachPart (callsOf interrupted) (callsOf regrouped) := by
    intro p
    cases p <;> rfl
  obtain ⟨hfails, -, hbuilds, hreorder, hbuilt⟩ := session_builds_calls "test" interrupted
  refine ⟨hempty, ?_, hreorder regrouped hsame,
    hbuilt (interrupted.take 2) (interrupted.drop 3) rfl⟩
  cases h : (Session.ofMoves "test" interrupted).draft.build with
  | error reason =>
    have hcheckout : Call.checkout "v4" ∈ callsOf interrupted := by
      simp [callsOf, interrupted, Move.call?]
    have hnone := hfails.mp ⟨reason, h⟩ _ hcheckout
    exact absurd rfl hnone
  | ok j => exact ⟨j, rfl, hbuilds j h⟩

end JobDraft

end CiRunner
