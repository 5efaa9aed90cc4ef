import CiRunner.Proofs.Run.StepLog

/-!
# Streams that do not take every text

A message that its stream does not take breaks a run off.  Up to this message the run does what it
does on streams that take every text, and after it the run only stops the process whose output it
was passing on.  `RunM.Follows` says this of any computation, and `RunM.Follows.bind` puts it
together for one after another, so that `Sequence.run_follows` shows it for a run part by part.

A computation that depends on the streams is written as a function of them, since it is compared on
two of them.
-/

namespace CiRunner

variable {τ α β : Type}

/-! ## What is taken -/

/-- What the actions of a log tell. -/
def messages (log : List (Action τ)) : List Message := log.filterMap Action.message?

@[simp] lemma messages_nil : messages ([] : List (Action τ)) = [] := rfl

@[simp] lemma messages_append (log more : List (Action τ)) :
    messages (log ++ more) = messages log ++ messages more :=
  List.filterMap_append ..

/-- Deeds tell nothing. -/
lemma messages_eq_nil {log : List (Action τ)} (h : ∀ a ∈ log, a.isTell = false) :
    messages log = [] := by
  refine List.filterMap_eq_nil_iff.mpr fun a ha => ?_
  have hdeed := h a ha
  cases a with
  | tell => cases hdeed
  | _ => rfl

/-- What is told in a world grows with its actions. -/
lemma World.told_eq {w w' : World τ} {log : List (Action τ)}
    (h : w'.actions.toList = w.actions.toList ++ log) : w'.told = w.told ++ messages log := by
  rw [told, h]
  exact messages_append ..

namespace Streams

/-- Whether messages are taken one after another, after those that were told. -/
def takesAll (s : Streams) (told : List Message) : List Message → Bool
  | [] => true
  | m :: rest => (s.rejects told m).isNone && s.takesAll (told ++ [m]) rest

variable {s : Streams} {told : List Message} {log : List (Action τ)} {w : World τ}

/-- Messages are taken together if the first ones are and the others after them. -/
lemma takesAll_append (s : Streams) (told first rest : List Message) :
    s.takesAll told (first ++ rest) =
      (s.takesAll told first && s.takesAll (told ++ first) rest) := by
  induction first generalizing told with
  | nil => simp [takesAll]
  | cons m first ih => simp [takesAll, ih, Bool.and_assoc]

/-- The first message of a log that is not taken. -/
structure Rejects (s : Streams) (told : List Message) (log done : List (Action τ)) (m : Message)
    (r : Rejection) : Prop where
  /-- It comes after what is done before. -/
  le : done ++ [.tell m] <+: log
  /-- It tells something. -/
  text_ne : m.text ≠ ""
  /-- It is rejected. -/
  eq_some : s.rejects (told ++ messages done) m = some r

/-- Then not all of the log is taken. -/
lemma Rejects.takesAll_eq_false {done : List (Action τ)} {m : Message} {r : Rejection}
    (h : s.Rejects told log done m r) : s.takesAll told (messages log) = false := by
  obtain ⟨rest, rfl⟩ := h.le
  have hm : messages [Action.tell m (τ := τ)] = [m] := by
    simp [messages, Action.message?, h.text_ne]
  rw [messages_append, messages_append, takesAll_append, takesAll_append, hm]
  simp [takesAll, h.eq_some]

/-- A computation is broken off at a message in the log of what it does on streams that take every
text.  The message may be written in part, and only a process that is there already is stopped
after it.  The error is that of the message, unless the process may not be killed. -/
def BreaksOff (s : Streams) (w : World τ) (log : List (Action τ))
    (ended : Except Fault α × World τ) :
    Prop :=
  ∃ done m r fault stops, s.Rejects w.told log done m r ∧ ended.1 = .error fault ∧
    (fault = .notTold r.reason ∨ ∃ reason, fault = .system reason) ∧
    ended.2.actions.toList =
      w.actions.toList ++ (done ++ .tell { m with text := r.written } :: stops) ∧
    ∀ a ∈ stops, a.isFollowUp = true

namespace BreaksOff

variable {host : Host τ} {more : List (Action τ)}

/-- More may be done on streams that take every text. -/
lemma append {ended : Except Fault α × World τ} (h : s.BreaksOff w log ended) :
    s.BreaksOff w (log ++ more) ended := by
  obtain ⟨done, m, r, fault, stops, hrejects, hended⟩ := h
  exact ⟨done, m, r, fault, stops,
    { hrejects with le := hrejects.le.trans (List.prefix_append ..) }, hended⟩

/-- More may be done before. -/
lemma after {w' : World τ} {ended : Except Fault α × World τ}
    (hlog : w'.actions.toList = w.actions.toList ++ log) (h : s.BreaksOff w' more ended) :
    s.BreaksOff w (log ++ more) ended := by
  obtain ⟨done, m, r, fault, stops, hrejects, hfault, hkind, hactions, hstops⟩ := h
  refine ⟨log ++ done, m, r, fault, stops, ⟨?_, hrejects.text_ne, ?_⟩, hfault, hkind, ?_, hstops⟩
  · rw [List.append_assoc]
    exact (List.prefix_append_right_inj log).mpr hrejects.le
  · rw [messages_append, ← List.append_assoc, ← World.told_eq hlog]
    exact hrejects.eq_some
  · rw [hactions, hlog, List.append_assoc, List.append_assoc]

/-- What comes after a computation that is broken off is not done. -/
lemma bind {m : RunM τ α} (h : s.BreaksOff w log (m host w)) (f : α → RunM τ β) :
    s.BreaksOff w log ((m >>= f) host w) := by
  obtain ⟨done, message, r, fault, stops, hrejects, hfault, hended⟩ := h
  have hbind : (m >>= f) host w = (.error fault, (m host w).2) := by
    rw [RunM.bind_apply]
    generalize m host w = ended at hfault ⊢
    obtain ⟨result, w'⟩ := ended
    cases hfault
    rfl
  rw [hbind]
  exact ⟨done, message, r, fault, stops, hrejects, rfl, hended⟩

/-- Up to the message its deeds are the beginning of those on streams that take every text. -/
lemma deeds_eq {ended : Except Fault α × World τ} (h : s.BreaksOff w log ended) :
    ∃ fault w' done stops, ended = (.error fault, w') ∧
      deeds w'.actions.toList = done ++ stops ∧ (∀ a ∈ stops, a.isFollowUp = true) ∧
      done <+: deeds (w.actions.toList ++ log) := by
  obtain ⟨done, m, r, fault, stops, hrejects, hfault, -, hactions, hstops⟩ := h
  have hdeeds : deeds stops = stops :=
    deeds_eq_self fun a ha => Action.isTell_of_isFollowUp (hstops a ha)
  have hle : w.actions.toList ++ done <+: w.actions.toList ++ log :=
    (List.prefix_append_right_inj _).mpr ((List.prefix_append ..).trans hrejects.le)
  refine ⟨fault, ended.2, deeds (w.actions.toList ++ done), stops, Prod.ext hfault rfl, ?_, hstops,
    hle.filter _⟩
  rw [hactions, ← List.append_assoc, deeds_append, deeds_tell, hdeeds]

end BreaksOff

end Streams

/-! ## Computations -/

namespace RunM

/-- A computation gives on some streams what it gives on streams that take every text if all it
tells there is taken, and else it is broken off. -/
def Follows (s : Streams) (m : Streams → RunM τ α) : Prop :=
  ∀ host w, ∃ log, (m .unlimited host w).2.actions.toList = w.actions.toList ++ log ∧
    (s.takesAll w.told (messages log) = true ∧ m s host w = m .unlimited host w ∨
      s.BreaksOff w log (m s host w))

variable {s : Streams}

/-- Streams do not matter to a computation that tells nothing. -/
lemma Follows.of_adds {m : RunM τ α}
    (h : ∀ host, Leads host (World.Adds fun a => a.isTell = false) m) : Follows s fun _ => m := by
  intro host w
  obtain ⟨log, hlog, hdeeds⟩ := h host w
  refine ⟨log, hlog, Or.inl ⟨?_, rfl⟩⟩
  rw [messages_eq_nil hdeeds]
  rfl

/-- Nor do they matter to what is done for a process that is there already. -/
lemma Follows.of_isFollowUp {m : RunM τ α}
    (h : ∀ host, Leads host (World.Adds fun a => a.isFollowUp = true) m) : Follows s fun _ => m :=
  .of_adds fun host w => (h host w).mono fun _ => Action.isTell_of_isFollowUp

lemma Follows.pure (a : α) : Follows s fun _ => (pure a : RunM τ α) :=
  .of_adds fun _ _ => Std.Refl.refl (r := World.Adds _) _

lemma Follows.throw (e : Fault) : Follows s fun _ => (throw e : RunM τ α) :=
  .of_adds fun _ _ => Std.Refl.refl (r := World.Adds _) _

lemma Follows.get : Follows s fun _ => (get : RunM τ (World τ)) :=
  .of_adds fun _ _ => Std.Refl.refl (r := World.Adds _) _

lemma Follows.read : Follows s fun _ => (read : RunM τ (Host τ)) :=
  .of_adds fun _ _ => Std.Refl.refl (r := World.Adds _) _

lemma Follows.clock : Follows s fun _ => (RunM.clock : RunM τ τ) :=
  .of_adds fun _ _ => Std.Refl.refl (r := World.Adds _) _

lemma Follows.act {a : Action τ} (h : a.isTell = false) : Follows s fun _ => act a :=
  .of_adds fun _ w => ⟨[a], w.did_actions [a], List.forall_mem_singleton.mpr h⟩

/-- What telling something does on any streams. -/
lemma tell_eq (s : Streams) (m : Message) (host : Host τ) (w : World τ) :
    tell m host w =
      match s.rejects w.told m with
      | none => (.ok (), w.did [.tell m])
      | some r =>
        if m.text = "" then (.ok (), w.did [.tell m])
        else (.error (.notTold r.reason), w.did [.tell { m with text := r.written }]) := by
  unfold tell
  rw [bind_apply, get_apply]
  dsimp only
  cases s.rejects w.told m with
  | none => rfl
  | some r =>
    by_cases hm : m.text = ""
    · simp [hm]
    · simp [hm]

/-- On any streams telling something only tells, even if it fails. -/
lemma tell_only_tells [Streams] (host : Host τ) (m : Message) :
    Leads host (World.Adds fun a => a.isTell = true) (tell m) := by
  intro w
  rw [tell_eq]
  split
  · exact ⟨_, World.did_actions .., List.forall_mem_singleton.mpr rfl⟩
  · split <;> exact ⟨_, World.did_actions .., List.forall_mem_singleton.mpr rfl⟩

/-- So does telling one thing after another. -/
lemma forM_tell_only_tells [Streams] (host : Host τ) (f : β → Message) (l : List β) :
    Leads host (World.Adds fun a => a.isTell = true)
      (l.forM fun a => tell (f a) : RunM τ PUnit) := by
  induction l with
  | nil => exact Leads.pure _
  | cons a rest ih => exact (tell_only_tells host (f a)).bind fun _ => ih

/-- A message is taken, or it breaks off. -/
lemma Follows.tell (m : Message) : Follows s fun (_ : Streams) => (RunM.tell m : RunM τ Unit) := by
  intro host w
  refine ⟨[.tell m], w.did_actions [.tell m], ?_⟩
  change _ ∧ RunM.tell m host w = (.ok (), w.did [.tell m]) ∨ s.BreaksOff w _ (RunM.tell m host w)
  rw [tell_eq]
  by_cases hm : m.text = ""
  · refine Or.inl ⟨by simp [messages, Action.message?, hm, Streams.takesAll], ?_⟩
    cases s.rejects w.told m with
    | none => rfl
    | some r => exact if_pos hm
  · cases hr : s.rejects w.told m with
    | none => exact Or.inl ⟨by simp [messages, Action.message?, hm, Streams.takesAll, hr], rfl⟩
    | some r =>
      dsimp only
      rw [if_neg hm]
      refine Or.inr ⟨[], m, r, _, [], ⟨List.prefix_rfl, hm, ?_⟩, rfl, Or.inl rfl, by simp, by simp⟩
      simpa using hr

/-- One computation after another. -/
lemma Follows.bind {m : Streams → RunM τ α} {f : Streams → α → RunM τ β} (hm : Follows s m)
    (hf : ∀ a, Follows s fun s => f s a) : Follows s fun s => m s >>= f s := by
  intro host w
  obtain ⟨log, hlog, hfirst⟩ := hm host w
  have hbind := bind_apply (m .unlimited) (f .unlimited) host w
  rcases hended : m .unlimited host w with ⟨e | a, w'⟩
  all_goals
    rw [hended] at hlog hfirst hbind
    simp only [hbind]
  · refine ⟨log, hlog, hfirst.imp (fun ⟨htaken, heq⟩ => ⟨htaken, ?_⟩) fun h => h.bind _⟩
    rw [bind_apply, heq]
  · obtain ⟨more, hmore, hrest⟩ := hf a host w'
    refine ⟨log ++ more, by rw [hmore, hlog, List.append_assoc], ?_⟩
    rcases hfirst with ⟨htaken, heq⟩ | hbroken
    · rw [bind_apply, heq]
      refine hrest.imp (fun ⟨htaken', heq'⟩ => ⟨?_, heq'⟩) fun h => h.after hlog
      rw [messages_append, Streams.takesAll_append, htaken, Bool.true_and, ← World.told_eq hlog]
      exact htaken'
    · exact Or.inr (hbroken.append.bind _)

/-- A loop that tells one thing after another. -/
lemma Follows.forM_tell (f : β → Message) (l : List β) :
    Follows s fun (_ : Streams) => (l.forM fun a => RunM.tell (f a) : RunM τ PUnit) := by
  induction l with
  | nil => exact Follows.pure _
  | cons a rest ih => exact (Follows.tell _).bind fun _ => ih

/-- What follows a computation whatever comes of it.  If it is broken off, a process is stopped, and
the error stays the same unless the system refuses that. -/
lemma Follows.attempt_bind {m : Streams → RunM τ α} {next : Except Fault α → RunM τ β}
    (hm : Follows s m) (hsafe : ∀ host w, ∃ a, (m .unlimited host w).1 = .ok a)
    (hbroken : ∀ fault host w,
      World.Adds (fun a => a.isFollowUp = true) w (next (.error fault) host w).2 ∧
        ∃ fault', (next (.error fault) host w).1 = .error fault' ∧
          (fault' = fault ∨ ∃ reason, fault' = .system reason))
    (hnext : ∀ a, Follows s fun _ => next (.ok a)) :
    Follows s fun s => attempt (m s) >>= next := by
  have hattempt (m : RunM τ α) (host : Host τ) (w : World τ) :
      (attempt m >>= next) host w = next (m host w).1 host (m host w).2 := by
    rw [bind_apply, attempt_apply]
  intro host w
  obtain ⟨log, hlog, hfirst⟩ := hm host w
  obtain ⟨a, ha⟩ := hsafe host w
  obtain ⟨more, hmore, hrest⟩ := hnext a host (m .unlimited host w).2
  simp only [hattempt, ha]
  refine ⟨log ++ more, by rw [hmore, hlog, List.append_assoc], ?_⟩
  rcases hfirst with ⟨htaken, heq⟩ | hbreaks
  · rw [heq, ha]
    refine hrest.imp (fun ⟨htaken', heq'⟩ => ⟨?_, heq'⟩) fun h => h.after hlog
    rw [messages_append, Streams.takesAll_append, htaken, Bool.true_and, ← World.told_eq hlog]
    exact htaken'
  · obtain ⟨done, message, r, fault, stops, hrejects, hfault, hkind, hactions, hstops⟩ := hbreaks
    rw [hfault]
    obtain ⟨⟨stops', hactions', hstops'⟩, fault', hfault', hkind'⟩ :=
      hbroken fault host (m s host w).2
    refine Or.inr ⟨done, message, r, fault', stops ++ stops',
      { hrejects with le := hrejects.le.trans (List.prefix_append ..) }, hfault', ?_, ?_, ?_⟩
    · rcases hkind' with rfl | hsystem
      · exact hkind
      · exact Or.inr hsystem
    · rw [hactions', hactions]
      simp
    · exact fun a ha => (List.mem_append.mp ha).elim (hstops a) (hstops' a)

/-- Some streams take all that a computation tells on streams that take every text. -/
def Taken (s : Streams) (m : Streams → RunM τ α) (host : Host τ) (w : World τ) : Prop :=
  s.takesAll w.told ((m .unlimited host w).2.told.drop w.told.length) = true

instance (m : Streams → RunM τ α) (host : Host τ) (w : World τ) : Decidable (Taken s m host w) :=
  inferInstanceAs (Decidable (_ = true))

namespace Follows

variable {m : Streams → RunM τ α} {host : Host τ} {w : World τ}

/-- Streams that take all that is told do not matter; others break off. -/
lemma taken_or_breaksOff (h : Follows s m) (host : Host τ) (w : World τ) :
    ∃ log, (m .unlimited host w).2.actions.toList = w.actions.toList ++ log ∧
      (Taken s m host w ∧ m s host w = m .unlimited host w ∨
        ¬Taken s m host w ∧ s.BreaksOff w log (m s host w)) := by
  obtain ⟨log, hlog, htold⟩ := h host w
  have hiff : Taken s m host w ↔ s.takesAll w.told (messages log) = true := by
    rw [Taken, World.told_eq hlog, List.drop_left]
  refine ⟨log, hlog, htold.imp (fun ⟨htaken, heq⟩ => ⟨hiff.mpr htaken, heq⟩) fun hbroken => ?_⟩
  refine ⟨fun htaken => ?_, hbroken⟩
  obtain ⟨done, m, r, fault, stops, hrejects, -⟩ := hbroken
  rw [hiff, hrejects.takesAll_eq_false] at htaken
  cases htaken

/-- If all is taken, the streams do not matter. -/
lemma eq_of_taken (h : Follows s m) (htaken : Taken s m host w) :
    m s host w = m .unlimited host w := by
  obtain ⟨log, -, ⟨-, heq⟩ | ⟨hnot, -⟩⟩ := h.taken_or_breaksOff host w
  · exact heq
  · exact absurd htaken hnot

/-- A computation that gives a value was not broken off. -/
lemma taken_of_ok (h : Follows s m) {a : α} {w' : World τ} (hok : m s host w = (.ok a, w')) :
    Taken s m host w := by
  obtain ⟨log, -, ⟨htaken, -⟩ | ⟨-, done, message, r, fault, stops, -, hfault, -⟩⟩ :=
    h.taken_or_breaksOff host w
  · exact htaken
  · rw [hok] at hfault
    cases hfault

end Follows

end RunM

open RunM

/-! ## Commands -/

namespace Command

variable [Timeline τ]

/-- The actions that stop a process whose output cannot be passed on. -/
def stopping (pid : Nat) (p : Program τ) (limit : Option τ) : List (Action τ) :=
  [Action.kill pid] ++
    (if (shield? p).isNone then
      (if overruns (remainder p) limit then [Action.fireTimer pid, Action.kill pid] else []) ++
        [Action.wait pid (remainder p).exitCode]
    else []) ++
    (if firesLate (remainder p) limit then [Action.fireTimer pid, Action.kill pid] else []) ++
    if limit.isSome then [Action.cancelTimer pid] else []

/-- They are about that process. -/
lemma isFollowUp_of_mem_stopping {pid : ℕ} {p : Program τ} {limit : Option τ} {a : Action τ}
    (h : a ∈ stopping pid p limit) : a.isFollowUp = true := by
  have hall : (stopping pid p limit).all Action.isFollowUp = true := by
    unfold stopping
    split_ifs <;> rfl
  exact List.all_eq_true.mp hall a h

/-- Breaking a process off stops it.  The error stays the same, unless the process may not be
killed. -/
lemma breakOff_eq (pid : ℕ) (p : Program τ) (limit : Option τ) (fault : Fault) (host : Host τ)
    (w : World τ) :
    breakOff pid p limit fault host w =
      (.error (((shield? p).map .system).getD fault),
        (if (shield? p).isNone then w.later (runTime (remainder p) limit) else w).did
          (stopping pid p limit)) := by
  cases hs : shield? p <;> simp [breakOff, hs, cancelTimer_apply, runOut_apply, stopping]

omit [Timeline τ] in
/-- Starting a process tells nothing. -/
lemma spawn_adds (argv : List String) (directory : Location) (env : Environment) (host : Host τ) :
    Leads host (World.Adds fun a => a.isTell = false) (spawn argv directory env) := by
  intro w
  rw [spawn_eq]
  split
  · exact ⟨[], by simp, by simp⟩
  · exact ⟨_, World.did_actions .., List.forall_mem_singleton.mpr rfl⟩

/-- From the end of its output on a process is only followed. -/
lemma isFollowUp_of_mem_conclusion {pid : ℕ} {p : Program τ} {limit : Option τ} {a : Action τ}
    (h : a ∈ conclusion pid p limit) : a.isFollowUp = true := by
  simp only [conclusion, List.mem_append] at h
  rcases h with ((h | h) | h) | h
  · split at h <;> simp at h
    rcases h with rfl | rfl <;> rfl
  · split at h <;> simp at h
    subst h
    rfl
  · rw [(mem_ending_iff.mp h).2]
    rfl
  · exact (isFollowUp_of_mem_aftermath h).1

/-- The trace of a process: its timer, its output and its end. -/
lemma trace_eq_append (c : Console) (pid : ℕ) (p : Program τ) (limit : Option τ) :
    trace c pid p limit = (limit.map (Action.startTimer pid)).toList ++
      ((pieces p.output).map (fun piece => .tell (c.echo piece)) ++ conclusion pid p limit) := by
  simp [trace, life, conclusion]

variable {s : Streams}

/-- After its start a process only has its output told, on any streams, until its end is awaited or
it is broken off. -/
lemma await_adds (c : Console) (pid : ℕ) (p : Program τ) (limit : Option τ) (host : Host τ)
    (w : World τ) :
    ∃ told rest, (await c pid p limit host w).2.actions.toList =
        w.actions.toList ++ ((limit.map (Action.startTimer pid)).toList ++ (told ++ rest)) ∧
      (∀ a ∈ told, a.isTell = true) ∧
      (rest = conclusion pid p limit ∨ rest = stopping pid p limit) := by
  obtain ⟨told, htold, htells⟩ := forM_tell_only_tells host c.echo (pieces p.output)
    (w.did (limit.map (Action.startTimer pid)).toList)
  rw [World.did_actions, List.append_assoc] at htold
  unfold await
  rw [bind_apply, startTimer_apply]
  dsimp only
  rw [bind_apply, attempt_apply]
  generalize ((pieces p.output).forM fun piece => RunM.tell (c.echo piece) : RunM τ PUnit) host
    (w.did (limit.map (Action.startTimer pid)).toList) = ended at htold ⊢
  rcases ended with ⟨fault | _, w'⟩
  all_goals dsimp only at htold ⊢
  · refine ⟨told, stopping pid p limit, ?_, htells, Or.inr rfl⟩
    have hactions : (if (shield? p).isNone then w'.later (runTime (remainder p) limit)
        else w').actions = w'.actions := by split <;> rfl
    rw [breakOff_eq, World.did_actions, hactions, htold, List.append_assoc, List.append_assoc]
  · refine ⟨told, conclusion pid p limit, ?_, htells, Or.inl rfl⟩
    rw [conclude_eq, World.did_actions, World.later_actions, htold, List.append_assoc,
      List.append_assoc]

/-- A process is broken off at the first piece of its output that is not taken. -/
lemma await_follows (c : Console) (pid : ℕ) (p : Program τ) (limit : Option τ) :
    Follows s fun (_ : Streams) => await c pid p limit := by
  have hstart : ∀ host, Leads host (World.Adds fun a => a.isFollowUp = true)
      (startTimer pid limit) := by
    intro host
    cases limit with
    | none => exact Leads.pure _
    | some t => exact act_adds rfl
  have hend : ∀ fault host (w : World τ),
      World.Adds (fun a => a.isFollowUp = true) w (breakOff pid p limit fault host w).2 ∧
        ∃ fault', (breakOff pid p limit fault host w).1 = .error fault' ∧
          (fault' = fault ∨ ∃ reason, fault' = .system reason) := by
    intro fault host w
    rw [breakOff_eq]
    refine ⟨⟨stopping pid p limit, ?_, fun _ => isFollowUp_of_mem_stopping⟩, _, rfl, ?_⟩
    · split <;> exact World.did_actions ..
    · cases shield? p with
      | none => exact Or.inl rfl
      | some reason => exact Or.inr ⟨reason, rfl⟩
  have hconclude : ∀ host, Leads host (World.Adds fun a => a.isFollowUp = true)
      (conclude pid p limit) := by
    intro host w
    rw [conclude_eq]
    exact ⟨_, World.did_actions .., fun _ => isFollowUp_of_mem_conclusion⟩
  unfold await
  refine (Follows.of_isFollowUp hstart).bind fun _ => ?_
  exact (Follows.forM_tell c.echo (pieces p.output)).attempt_bind
    (fun host w => ⟨⟨⟩, congrArg Prod.fst (forM_tell_apply c.echo (pieces p.output) host w)⟩) hend
    fun _ => Follows.of_isFollowUp hconclude

/-- A command is broken off as its process is. -/
lemma execute_follows (c : Console) (job : Job) (step : Step) (directory : Location)
    (env : Environment) (limit : Option τ) :
    Follows s fun (_ : Streams) => execute c job step directory env limit := by
  unfold execute
  cases shellWords? step.shell with
  | none => exact Follows.throw _
  | some words =>
    refine (Follows.of_adds (spawn_adds _ directory env)).bind fun started => ?_
    cases started with
    | none => exact Follows.pure _
    | some started => exact (await_follows c started.1 started.2 limit).bind fun _ => Follows.pure _

end Command

/-! ## Steps and runs -/

namespace Sequence

variable [Timeline τ] {s : Streams}

omit [Timeline τ] in
/-- The action of a step is broken off at what it tells. -/
lemma runAction_follows (ws : Workspace) (job : Job) (step : Step) :
    Follows s fun (_ : Streams) => (runAction ws job step : RunM τ Outcome) := by
  unfold runAction
  split
  · refine (Follows.of_adds fun host w => ?_).bind fun answer => ?_
    · exact (Checkout.perform_adds_git host ws step w).mono fun a ha =>
        (Action.kinds_of_isGit ha).1
    · cases answer with
      | ok done => exact (Follows.tell _).bind fun _ => Follows.pure _
      | error message => exact Follows.pure _
  · exact Follows.pure _

variable (c : Console) (ws : Workspace) (base : Environment)

/-- The command of a step is broken off as its process is. -/
lemma runCommand_follows (job : Job) (step : Step) (limit : Option τ) :
    Follows s fun (_ : Streams) => runCommand c ws base job step limit := by
  unfold runCommand
  cases directoryOf ws.place step.cwd with
  | error fault => exact Follows.throw _
  | ok directory =>
    refine Follows.get.bind fun w => ?_
    split
    · exact Follows.read.bind fun host => Command.execute_follows c job step directory _ limit
    · refine Follows.read.bind fun _ => Follows.get.bind fun _ => ?_
      split
      · exact Follows.throw _
      · exact Follows.pure _

/-- The body of a step is broken off at what it tells. -/
lemma runBody_follows (job : Job) (step : Step) (limit : Option τ) :
    Follows s fun (_ : Streams) => runBody c ws base job step limit := by
  unfold runBody
  split
  · exact runAction_follows ws job step
  · exact runCommand_follows c ws base job step limit

/-- A step is broken off at what it tells. -/
lemma runStep_follows (job : Job) (deadline : Option τ) (step : Step) :
    Follows s fun (_ : Streams) => runStep c ws base job deadline step := by
  unfold runStep
  refine (Follows.tell _).bind fun _ => Follows.clock.bind fun start => ?_
  refine (Follows.act rfl).bind fun _ =>
    (runBody_follows c ws base job step _).bind fun outcome => ?_
  refine Follows.clock.bind fun stop => (Follows.act rfl).bind fun _ => ?_
  exact (Follows.tell _).bind fun _ => Follows.pure _

/-- So are the steps of a job. -/
lemma runSteps_follows (job : Job) (deadline : Option τ) (steps : List Step) :
    Follows s fun (_ : Streams) => runSteps c ws base job deadline steps := by
  induction steps with
  | nil => exact Follows.pure _
  | cons step rest ih =>
    refine (runStep_follows c ws base job deadline step).bind fun r => ?_
    split
    · exact Follows.pure _
    · exact ih.bind fun _ => Follows.pure _

/-- So are jobs. -/
lemma runJobs_follows (jobs : List Job) :
    Follows s fun (_ : Streams) => (runJobs c ws base jobs : RunM τ (List StepResult)) := by
  induction jobs with
  | nil => exact Follows.pure _
  | cons job rest ih =>
    have hjob : Follows s fun (_ : Streams) => (runJob c ws base job : RunM τ (List StepResult)) :=
      (Follows.tell _).bind fun _ => Follows.clock.bind fun _ =>
        runSteps_follows c ws base job _ job.steps
    refine hjob.bind fun rs => ?_
    split
    · exact Follows.pure _
    · exact ih.bind fun _ => Follows.pure _

/-- A run gives on any streams what it gives on streams that take every text, or it is broken off at
the first message that is not taken. -/
theorem run_follows (wf : Workflow) (e : Event) :
    Follows s fun (_ : Streams) => (run c wf e ws : RunM τ RunResult) :=
  (Follows.tell _).bind fun _ =>
    (runJobs_follows c ws (runVariables wf e ws.place) wf.jobs).bind fun _ => Follows.pure _

end Sequence

end CiRunner
