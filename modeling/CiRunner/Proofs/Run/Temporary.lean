import CiRunner.Proofs.FileTree.Frame
import CiRunner.Proofs.FileTree.Places
import CiRunner.Proofs.Run.Evaluation

/-!
# Temporary directories

A temporary directory is made under a fresh name: nothing stands at its place or below it.  This
file gives the equation of what is done with an isolated working tree: its directory is made, the
body runs, and whatever comes of the body the directory is removed.
-/

namespace CiRunner

variable {τ α : Type}

namespace Workspace

/-! ## Fresh names -/

/-- Different numbers give different names. -/
lemma temporaryName_injective : Function.Injective temporaryName := by
  intro m n h
  have hrepr : Nat.repr (m + 1) = Nat.repr (n + 1) := (String.append_right_inj _).mp h
  exact Nat.succ_injective (Nat.repr_injective hrepr)

/-- The name of a temporary directory is proper. -/
lemma isProperName_temporaryName (n : ℕ) : isProperName (temporaryName n) = true := by
  have hchars : (temporaryName n).toList = "branchci_".toList ++ Nat.toDigits 10 (n + 1) := by
    rw [temporaryName, String.toList_append]
    exact congrArg _ Nat.toList_repr
  have hne : ∀ s : String, s.length < 9 → temporaryName n ≠ s := by
    rintro s hs rfl
    rw [← String.length_toList, hchars, List.length_append] at hs
    have hlen : "branchci_".toList.length = 9 := by decide
    omega
  refine isProperName_iff.mpr ⟨hne _ (by decide), hne _ (by decide), hne _ (by decide), ?_⟩
  rw [hchars, List.mem_append]
  rintro (h | h)
  · exact absurd h (by decide)
  · exact absurd (Nat.isDigit_of_mem_toDigits (by decide) (by decide) h) (by decide)

/-- The first free name is free. -/
lemma isFree_firstFree (t : FileTree) (parent : Location) (count : ℕ) :
    t.isFree (parent ++ [temporaryName (firstFree t parent count)]) = true := by
  set numbers := List.range' count (t.entries.length + 1) with hnumbers
  have hsome : ∃ n ∈ numbers, t.isFree (parent ++ [temporaryName n]) = true := by
    by_contra hnone
    push Not at hnone
    -- otherwise every number has an entry of its own, and there are too many numbers for that
    have hsubset : numbers.map (fun n => some (temporaryName n)) ⊆
        t.entries.map fun e => e.1[parent.length]? := by
      intro x hx
      obtain ⟨n, hn, rfl⟩ := List.mem_map.mp hx
      obtain ⟨e, he, rest, hrest⟩ := FileTree.exists_entry_of_not_isFree (hnone n hn)
      refine List.mem_map.mpr ⟨e, he, ?_⟩
      rw [← hrest]
      simp
    have hnodup : (numbers.map fun n => some (temporaryName n)).Nodup :=
      List.Nodup.map ((Option.some_injective _).comp temporaryName_injective)
        List.nodup_range'
    have hlength := (hnodup.subperm hsubset).length_le
    simp [hnumbers] at hlength
  obtain ⟨n, hn, hfree⟩ := hsome
  have hfind : (numbers.find? fun n => t.isFree (parent ++ [temporaryName n])).isSome = true :=
    List.find?_isSome.mpr ⟨n, hn, hfree⟩
  obtain ⟨m, hm⟩ := Option.isSome_iff_exists.mp hfind
  have hfound : t.isFree (parent ++ [temporaryName m]) = true := by
    simpa only using List.find?_some hm
  rw [firstFree, ← hnumbers, hm]
  exact hfound

/-! ## The directory that temporary directories are made in -/

/-- Where a given directory for temporary ones is, if its text can be read. -/
def workPlace? (host : Host τ) (workDir : Option String) : Option Location :=
  workDir.bind fun text =>
    (Path.expandHome? (host.environment.value? "HOME") host.users (Path.ofText text)).map
      (·.resolve host.directory)

/-- A directory for temporary ones is found or made, or nothing happens, but for no reason from
outside. -/
lemma temporaryParent_cases (workDir : Option String) (host : Host τ) (w : World τ) :
    (∃ fault, fault.isOutside = false ∧ temporaryParent workDir host w = (.error fault, w)) ∨
      temporaryParent workDir host w = (.ok host.temporary, w) ∨
      ∃ place tree, workPlace? host workDir = some place ∧ w.tree.makeDirs place = .ok tree ∧
        temporaryParent workDir host w = (.ok place, { w with tree }) := by
  cases workDir with
  | none => exact Or.inr (Or.inl rfl)
  | some text =>
    have hhome : (RunM.home : RunM τ (Option String)) host w =
        (.ok (host.environment.value? "HOME"), w) := rfl
    cases hp : Path.expandHome? (host.environment.value? "HOME") host.users (Path.ofText text) with
    | none =>
      refine Or.inl ⟨.homeUnknown, rfl, ?_⟩
      simp [temporaryParent, hhome, hp]
    | some path =>
      cases ht : w.tree.makeDirs (path.resolve host.directory) with
      | error e =>
        refine Or.inl ⟨.file e, rfl, ?_⟩
        simp [temporaryParent, hhome, hp, ht]
      | ok tree =>
        refine Or.inr (Or.inr ⟨path.resolve host.directory, tree, ?_, ht, ?_⟩)
        · simp [workPlace?, hp]
        · simp [temporaryParent, hhome, hp, ht]

/-- A given directory for temporary ones has a proper place. -/
lemma proper_workPlace? {host : Host τ} (h : host.directory.Proper) {workDir : Option String}
    {place : Location} (hplace : workPlace? host workDir = some place) : place.Proper := by
  obtain ⟨text, -, hread⟩ := Option.bind_eq_some_iff.mp hplace
  obtain ⟨path, hpath, rfl⟩ := Option.map_eq_some_iff.mp hread
  exact Path.proper_resolve h (Path.proper_expandHome? hpath)

/-! ## The life of a temporary directory -/

/-- The place of the temporary directory that is made next. -/
def nextTemporary (w : World τ) (parent : Location) : Location :=
  parent ++ [temporaryName (firstFree w.tree parent w.temporaries)]

/-- A world in which a temporary directory was made for a working tree. -/
def opened (w : World τ) (parent : Location) : World τ :=
  let place := nextTemporary w parent
  { w with
    temporaries := firstFree w.tree parent w.temporaries + 1
    tree := (w.tree.put place .directory).put (place ++ [treeName]) .directory }.did
      [.makeTemporary place]

/-- A world in which a temporary directory was removed. -/
def closed (w : World τ) (place : Location) : World τ :=
  { w with tree := w.tree.remove place }.did [.removeTemporary place]

/-- The isolated working tree in a temporary directory. -/
def isolatedIn (place : Location) (e : Event) (source : String) : Workspace :=
  { place := place ++ [treeName], isolated := true, source, reference := referenceOf e }

/-- What is done with an isolated working tree: the body runs between the making of its directory
and the removal, and what comes of the body comes of it all. -/
lemma withIsolated_eq (e : Event) (workDir : Option String) (source : String)
    (body : Workspace → RunM τ α) (host : Host τ) (w : World τ) :
    withIsolated e workDir source body host w =
      match temporaryParent workDir host w with
      | (.error fault, w') => (.error fault, w')
      | (.ok parent, w') =>
        ((body (isolatedIn (nextTemporary w' parent) e source) host (opened w' parent)).1,
          closed (body (isolatedIn (nextTemporary w' parent) e source) host (opened w' parent)).2
            (nextTemporary w' parent)) := by
  rw [withIsolated, RunM.bind_apply]
  rcases temporaryParent workDir host w with ⟨fault | parent, w'⟩
  · rfl
  · dsimp only
    rw [RunM.bind_apply]
    rfl

/-- The place of a temporary directory is not the root. -/
lemma nextTemporary_ne_nil (w : World τ) (parent : Location) : nextTemporary w parent ≠ [] := by
  simp [nextTemporary]

/-- Nothing stands where the next temporary directory is made, or below it. -/
lemma get?_nextTemporary (w : World τ) (parent : Location) {p : Location}
    (hp : nextTemporary w parent <+: p) : w.tree.get? p = none :=
  FileTree.get?_eq_none_of_isFree (isFree_firstFree w.tree parent w.temporaries)
    (nextTemporary_ne_nil w parent) hp

/-- A working tree in a proper directory is proper. -/
lemma proper_isolatedIn (w : World τ) {parent : Location} (h : parent.Proper) (e : Event)
    (source : String) : (isolatedIn (nextTemporary w parent) e source).place.Proper :=
  (h.concat (isProperName_temporaryName _)).concat (by decide)

/-- Making a temporary directory leaves alone what is outside of it. -/
lemma sameOutside_opened (w : World τ) (parent : Location) :
    FileTree.SameOutside (nextTemporary w parent) w.tree (opened w parent).tree := by
  have hplace := nextTemporary_ne_nil w parent
  refine trans_of (FileTree.SameOutside _)
    (FileTree.sameOutside_put List.prefix_rfl hplace w.tree .directory) ?_
  exact FileTree.sameOutside_put (List.prefix_append ..) (by simp) _ .directory

end Workspace

end CiRunner
