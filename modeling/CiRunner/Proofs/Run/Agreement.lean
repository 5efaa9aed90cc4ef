import CiRunner.Proofs.Run.Evaluation

/-!
# Computations that agree on two hosts

A computation cannot see which actions were done before, and a checkout cannot see what programs do.
So two worlds that differ only in their actions stay like that, and the same comes of a checkout on
two hosts with the same Git.  `RunM.Agrees` states both at once; a property that compares two runs
needs a closer look only at the commands.

What a checkout does is the same as well.  Which of the actions of two runs have to be the same
depends on what is compared, so it is a parameter: the actions that are seen.
-/

namespace CiRunner

variable {τ α β : Type}

/-! ## Two runs that agree -/

/-- Two worlds that differ at most in the actions that were done. -/
def World.Alike (w w₀ : World τ) : Prop := w₀ = { w with actions := w₀.actions }

namespace World.Alike

variable {w w₀ : World τ}

/-- A world is like itself. -/
lemma refl (w : World τ) : Alike w w := rfl

/-- Different actions make no difference. -/
lemma did (h : Alike w w₀) (log log₀ : List (Action τ)) : Alike (w.did log) (w₀.did log₀) := by
  rw [h]
  rfl

lemma called (h : Alike w w₀) : Alike w.called w₀.called := by
  rw [h]
  rfl

lemma asked (h : Alike w w₀) (n : ℕ) : Alike (w.asked n) (w₀.asked n) := by
  rw [h]
  rfl

lemma changed (h : Alike w w₀) (f : FileTree.Change) (directory : Location) :
    Alike (w.changed f directory) (w₀.changed f directory) := by
  rw [h]
  rfl

lemma later [Timeline τ] (h : Alike w w₀) (t : τ) : Alike (w.later t) (w₀.later t) := by
  rw [h]
  rfl

/-! What a computation can see of the worlds is the same. -/

lemma tree_eq (h : Alike w w₀) : w₀.tree = w.tree := by rw [h]

lemma clock_eq (h : Alike w w₀) : w₀.clock = w.clock := by rw [h]

lemma attempts_eq (h : Alike w w₀) : w₀.attempts = w.attempts := by rw [h]

lemma gitCalls_eq (h : Alike w w₀) : w₀.gitCalls = w.gitCalls := by rw [h]

lemma started_eq (h : Alike w w₀) : w₀.started = w.started := by rw [h]

end World.Alike

/-- Two worlds that differ at most in the actions that were done, and those that are seen are the
same. -/
structure World.AlikeIn (seen : Action τ → Bool) (w w₀ : World τ) : Prop where
  /-- All but the actions is the same. -/
  alike : Alike w w₀
  /-- The actions that are seen are the same. -/
  actions_eq : w₀.actions.toList.filter seen = w.actions.toList.filter seen

/-- If no action is seen, there is nothing to compare. -/
lemma World.Alike.alikeIn {w w₀ : World τ} (h : Alike w w₀) : w.AlikeIn (fun _ => false) w₀ :=
  ⟨h, by simp⟩

namespace World.AlikeIn

variable {seen : Action τ → Bool} {w w₀ : World τ}

/-- A world is like itself. -/
lemma refl (w : World τ) : AlikeIn seen w w := ⟨.refl w, rfl⟩

/-- Actions that are not seen may be different. -/
lemma did (h : AlikeIn seen w w₀) {log log₀ : List (Action τ)}
    (hlog : log₀.filter seen = log.filter seen) : AlikeIn seen (w.did log) (w₀.did log₀) := by
  refine ⟨h.alike.did log log₀, ?_⟩
  rw [did_actions, did_actions, List.filter_append, List.filter_append, h.actions_eq, hlog]

/-- The same actions may be added on both sides. -/
lemma did_same (h : AlikeIn seen w w₀) (log : List (Action τ)) :
    AlikeIn seen (w.did log) (w₀.did log) :=
  h.did rfl

lemma called (h : AlikeIn seen w w₀) : AlikeIn seen w.called w₀.called :=
  ⟨h.alike.called, h.actions_eq⟩

lemma asked (h : AlikeIn seen w w₀) (n : ℕ) : AlikeIn seen (w.asked n) (w₀.asked n) :=
  ⟨h.alike.asked n, h.actions_eq⟩

lemma changed (h : AlikeIn seen w w₀) (f : FileTree.Change) (directory : Location) :
    AlikeIn seen (w.changed f directory) (w₀.changed f directory) :=
  ⟨h.alike.changed f directory, h.actions_eq⟩

lemma later [Timeline τ] (h : AlikeIn seen w w₀) (t : τ) :
    AlikeIn seen (w.later t) (w₀.later t) :=
  ⟨h.alike.later t, h.actions_eq⟩

end World.AlikeIn

namespace RunM

/-- A computation gives the same on two hosts, in worlds that differ only in actions that are not
seen. -/
def Agrees (seen : Action τ → Bool) (host host₀ : Host τ) (m : RunM τ α) : Prop :=
  ∀ w w₀, World.AlikeIn seen w w₀ →
    (m host₀ w₀).1 = (m host w).1 ∧ World.AlikeIn seen (m host w).2 (m host₀ w₀).2

variable {seen : Action τ → Bool} {host host₀ : Host τ}

lemma Agrees.pure (a : α) : Agrees seen host host₀ (pure a : RunM τ α) :=
  fun _ _ hw => ⟨rfl, hw⟩

lemma Agrees.act (a : Action τ) : Agrees seen host host₀ (act a) :=
  fun _ _ hw => ⟨rfl, hw.did_same [a]⟩

/-- One computation after another agrees if both do. -/
lemma Agrees.bind {m : RunM τ α} {f : α → RunM τ β} (hm : Agrees seen host host₀ m)
    (hf : ∀ a, Agrees seen host host₀ (f a)) : Agrees seen host host₀ (m >>= f) := by
  intro w w₀ hw
  obtain ⟨hresult, hworld⟩ := hm w w₀ hw
  rw [bind_apply, bind_apply]
  rcases h : m host w with ⟨_ | a, w'⟩
  all_goals
    rcases h₀ : m host₀ w₀ with ⟨_ | a₀, w₀'⟩
    all_goals
      rw [h, h₀] at hresult hworld
      cases hresult
  · exact ⟨rfl, hworld⟩
  · exact hf a w' w₀' hworld

/-- One computation that calls Git after another agrees if both do. -/
lemma Agrees.run_bind {m : Git.GitM τ α} {f : α → Git.GitM τ β} (hm : Agrees seen host host₀ m.run)
    (hf : ∀ a, Agrees seen host host₀ (f a).run) : Agrees seen host host₀ (m >>= f).run := by
  rw [ExceptT.run_bind]
  refine hm.bind fun a => ?_
  cases a with
  | ok a => exact hf a
  | error e => exact Agrees.pure _

/-- A computation that looks at the world agrees if it does not look at the actions. -/
lemma Agrees.get_bind {f : World τ → RunM τ α} (hf : ∀ w w₀, World.Alike w w₀ → f w₀ = f w)
    (h : ∀ w, Agrees seen host host₀ (f w)) : Agrees seen host host₀ (get >>= f) := by
  intro w w₀ hw
  rw [bind_apply, bind_apply, get_apply, get_apply]
  dsimp only
  rw [hf w w₀ hw.alike]
  exact h w w w₀ hw

end RunM

open RunM

section Checkout

variable {seen : Action τ → Bool} {host host₀ : Host τ} (hgit : host₀.git = host.git)
  (hdirectory : host₀.directory = host.directory)

include hgit hdirectory

/-- A call of Git gives the same where Git is the same. -/
lemma Git.call_agrees (args : List String) (directory : Option String) :
    Agrees seen host host₀ (Git.call args directory).run := by
  intro w w₀ hw
  have hplace : Git.placeOf host₀ args directory = Git.placeOf host args directory := by
    rw [Git.placeOf, Git.placeOf, hdirectory]
  rw [Git.call_eq, Git.call_eq, hgit, hw.alike.gitCalls_eq, hplace]
  cases host.git w.gitCalls args with
  | none => exact ⟨rfl, hw.called.did_same _⟩
  | some reply => exact ⟨rfl, (hw.called.changed _ _).did_same _⟩

/-- Checking out a reference gives the same where Git is the same. -/
lemma Git.detach_agrees (reference directory : String) :
    Agrees seen host host₀ (Git.detach reference directory : Git.GitM τ Unit).run :=
  (Git.call_agrees hgit hdirectory _ _).run_bind fun _ => Agrees.pure _

/-- A checkout gives the same where Git is the same. -/
lemma Checkout.perform_agrees (ws : Workspace) (s : Step) :
    Agrees seen host host₀ (Checkout.perform ws s) := by
  unfold Checkout.perform
  cases ws.isolated with
  | true =>
    have hclone : Agrees seen host host₀
        (Checkout.clone ws (Checkout.reference ws s) : Git.GitM τ Unit).run := by
      refine ((Git.call_agrees hgit hdirectory _ _).run_bind fun _ => Agrees.pure _).run_bind
        fun _ => (Git.detach_agrees hgit hdirectory _ _).bind fun answer => ?_
      rcases answer with (_ | ⟨_, _, _⟩) | _
      · exact Agrees.pure _
      · exact (Git.call_agrees hgit hdirectory _ _).run_bind fun _ =>
          Git.detach_agrees hgit hdirectory _ _
      · exact Agrees.pure _
    refine hclone.bind fun answer => ?_
    cases answer with
    | ok _ => exact Agrees.pure _
    | error e => exact Agrees.pure _
  | false =>
    refine Agrees.get_bind (fun w w₀ hw => by rw [hw.tree_eq]) fun w => ?_
    split
    · exact Agrees.pure _
    · have hasked : Agrees seen host host₀ (Git.isWorkTree ws.place.text) := by
        refine (Git.call_agrees hgit hdirectory _ _).bind fun answer => ?_
        cases answer with
        | ok _ => exact Agrees.pure _
        | error _ => exact Agrees.pure _
      refine hasked.bind fun inside => ?_
      cases inside with
      | true => exact Agrees.pure _
      | false => exact Agrees.pure _

/-- An action gives the same where Git is the same, whatever programs do. -/
lemma Sequence.runAction_agrees (ws : Workspace) (job : Job) (step : Step) :
    Agrees seen host host₀ (Sequence.runAction ws job step) := by
  unfold Sequence.runAction
  split
  · refine (Checkout.perform_agrees hgit hdirectory ws step).bind fun answer => ?_
    cases answer with
    | ok done => exact (Agrees.act _).bind fun _ => Agrees.pure _
    | error message => exact Agrees.pure _
  · exact Agrees.pure _

end Checkout

end CiRunner
