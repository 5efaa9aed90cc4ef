import CiRunner.Branch.CharClass
import Mathlib.Data.Char

/-!
# Well-formed classes

A class is well formed if its brackets hold letters, digits and ranges of them, maybe after a caret,
and all ranges are in order.  Such a class has one meaning only, and it is read as this meaning
whatever stands after it.  If a range is not in order, the class cannot be read.
-/

namespace CiRunner.Branch

/-- An item of a well-formed class. -/
inductive ClassItem where
  /-- A letter or a digit. -/
  | single (c : Char)
  /-- All characters from a letter or a digit to another. -/
  | range (low high : Char)

namespace ClassItem

/-- How the item is written. -/
def spelling : ClassItem → List Char
  | single c => [c]
  | range low high => [low, '-', high]

/-- The ends of an item are letters or digits, in order. -/
def Valid : ClassItem → Prop
  | single c => c.isAlphanum = true
  | range low high => low.isAlphanum = true ∧ high.isAlphanum = true ∧ low ≤ high

/-- The ends of an item are letters or digits, in order or not. -/
def Plain : ClassItem → Prop
  | single c => c.isAlphanum = true
  | range low high => low.isAlphanum = true ∧ high.isAlphanum = true

lemma Valid.plain {item : ClassItem} (h : item.Valid) : item.Plain := by
  cases item with
  | single c => exact h
  | range low high => exact ⟨h.1, h.2.1⟩

/-- The characters of an item. -/
def Covers : ClassItem → Char → Prop
  | single c, d => d = c
  | range low high, d => low ≤ d ∧ d ≤ high

/-- The member that the item is read as. -/
def member : ClassItem → ClassMember
  | single c => .code c.toNat
  | range low high => .range low.toNat high.toNat

lemma holds_member (item : ClassItem) (d : Char) : item.member.holds d = true ↔ item.Covers d := by
  cases item with
  | single c =>
    rw [member, ClassMember.holds, beq_iff_eq]
    exact Char.toNat_inj
  | range low high =>
    rw [member, ClassMember.holds, Bool.and_eq_true, decide_eq_true_eq, decide_eq_true_eq]
    exact Iff.rfl

end ClassItem

/-- The text between the brackets of a class spells items, after a caret if the class is the
complement of the items. -/
structure Spells (body : List Char) (negated : Bool) (items : List ClassItem) : Prop where
  /-- There is an item. -/
  nonempty : items ≠ []
  /-- The items are in order. -/
  valid : ∀ item ∈ items, item.Valid
  /-- The text has nothing else. -/
  body_eq : body = (if negated then ['^'] else []) ++ items.flatMap ClassItem.spelling

/-- The text between the brackets of a class lists items, after a caret if the class is the
complement of the items.  Their ends need not be in order. -/
structure Lists (body : List Char) (negated : Bool) (items : List ClassItem) : Prop where
  /-- There is an item. -/
  nonempty : items ≠ []
  /-- The items have letters or digits at their ends. -/
  plain : ∀ item ∈ items, item.Plain
  /-- The text has nothing else. -/
  body_eq : body = (if negated then ['^'] else []) ++ items.flatMap ClassItem.spelling

/-- Items that are spelled are listed. -/
lemma Spells.lists {body : List Char} {negated : Bool} {items : List ClassItem}
    (h : Spells body negated items) : Lists body negated items :=
  ⟨h.nonempty, fun item hitem => (h.valid item hitem).plain, h.body_eq⟩

/-- Whether a class of items has a character. -/
def InClass (negated : Bool) (items : List ClassItem) (c : Char) : Prop :=
  (∃ item ∈ items, item.Covers c) ↔ negated = false

namespace CharClass

variable {opened : Nat} {first : Bool} {s rest : List Char} {m : ClassMember}

/-! ## Reading members -/

lemma readMember_of_isAlphanum {c : Char} (h : c.isAlphanum = true) :
    readMember opened (c :: rest) = .ok (.code c.toNat, rest) := by
  have hc : c ≠ '\\' := by
    rintro rfl
    exact absurd h (by decide)
  simp [readMember, hc]

lemma readMembers_closing : readMembers opened false (']' :: rest) = .ok ([], rest) := by
  rw [readMembers]
  simp

/-- A member without a hyphen after it is read alone. -/
lemma readMembers_member (hs : s.head? ≠ some ']')
    (hm : readMember opened s = .ok (m, rest)) (hrest : rest.head? ≠ some '-') :
    readMembers opened first s = (readMembers opened false rest).map (addMember m) := by
  rw [readMembers, if_neg fun h => hs h.1]
  split
  · rename_i hf
    cases hm.symm.trans hf
  · rename_i hok
    cases hm.symm.trans hok
    rw [if_neg hrest]

/-- Two members with a hyphen between them are read as a range. -/
lemma readMembers_range {upper after : List Char} {high r : ClassMember}
    (hs : s.head? ≠ some ']') (hm : readMember opened s = .ok (m, '-' :: upper))
    (hupper : upper.head? ≠ some ']')
    (hhigh : readMember opened upper = .ok (high, after)) (hr : range? m high = some r) :
    readMembers opened first s = (readMembers opened false after).map (addMember r) := by
  rw [readMembers, if_neg fun h => hs h.1]
  split
  · rename_i hf
    cases hm.symm.trans hf
  · rename_i hok
    cases hm.symm.trans hok
    simp only [List.head?_cons, if_true, List.drop_one, List.tail_cons, if_neg hupper]
    split
    · rename_i hf
      cases hhigh.symm.trans hf
    · rename_i hok
      cases hhigh.symm.trans hok
      rw [hr]

/-- Two members with a hyphen between them that make no range cannot be read. -/
lemma readMembers_of_range?_eq_none {upper after : List Char} {high : ClassMember}
    (hs : s.head? ≠ some ']') (hm : readMember opened s = .ok (m, '-' :: upper))
    (hupper : upper.head? ≠ some ']')
    (hhigh : readMember opened upper = .ok (high, after)) (hr : range? m high = none) :
    ∃ flaw, readMembers opened first s = .error flaw := by
  rw [readMembers, if_neg fun h => hs h.1]
  split
  · exact ⟨_, rfl⟩
  · rename_i hok
    cases hm.symm.trans hok
    simp only [List.head?_cons, if_true, List.drop_one, List.tail_cons, if_neg hupper]
    split
    · exact ⟨_, rfl⟩
    · rename_i hok
      cases hhigh.symm.trans hok
      rw [hr]
      exact ⟨_, rfl⟩

/-! ## Reading items -/

lemma head?_ne_of_isAlphanum {c d : Char} (h : c.isAlphanum = true) (hd : d.isAlphanum = false) :
    (c :: s).head? ≠ some d := by
  rintro ⟨⟩
  rw [h] at hd
  cases hd

/-- Items and a closing bracket begin with a letter, a digit or the bracket. -/
lemma head?_spelling_ne {items : List ClassItem} (h : ∀ item ∈ items, item.Plain) {d : Char}
    (hd : d.isAlphanum = false) (hne : d ≠ ']') :
    (items.flatMap ClassItem.spelling ++ ']' :: rest).head? ≠ some d := by
  cases items with
  | nil => simpa using hne.symm
  | cons item items =>
    have hitem := h item List.mem_cons_self
    cases item with
    | single c => exact head?_ne_of_isAlphanum hitem hd
    | range low high => exact head?_ne_of_isAlphanum hitem.1 hd

/-- An item whose ends are in order is read as its member. -/
lemma readMembers_item {item : ClassItem} {tail : List Char} (hitem : item.Valid)
    (htail : tail.head? ≠ some '-') :
    readMembers opened first (item.spelling ++ tail) =
      (readMembers opened false tail).map (addMember item.member) := by
  cases item with
  | single c =>
    exact readMembers_member (head?_ne_of_isAlphanum hitem rfl) (readMember_of_isAlphanum hitem)
      htail
  | range low high =>
    obtain ⟨hlow, hhigh, hle⟩ := hitem
    exact readMembers_range (head?_ne_of_isAlphanum hlow rfl) (readMember_of_isAlphanum hlow)
      (head?_ne_of_isAlphanum hhigh rfl) (readMember_of_isAlphanum hhigh) (if_pos hle)

/-- An item whose ends are not in order cannot be read. -/
lemma readMembers_item_of_not_valid {item : ClassItem} {tail : List Char} (hitem : item.Plain)
    (hnot : ¬item.Valid) :
    ∃ flaw, readMembers opened first (item.spelling ++ tail) = .error flaw := by
  cases item with
  | single c => exact absurd hitem hnot
  | range low high =>
    obtain ⟨hlow, hhigh⟩ := hitem
    have hlt : ¬low ≤ high := fun hle => hnot ⟨hlow, hhigh, hle⟩
    exact readMembers_of_range?_eq_none (head?_ne_of_isAlphanum hlow rfl)
      (readMember_of_isAlphanum hlow) (head?_ne_of_isAlphanum hhigh rfl)
      (readMember_of_isAlphanum hhigh) (if_neg hlt)

/-- Items are read one by one up to the closing bracket. -/
lemma readMembers_spelling {items : List ClassItem} (h : ∀ item ∈ items, item.Valid)
    (hfirst : first = false ∨ items ≠ []) :
    readMembers opened first (items.flatMap ClassItem.spelling ++ ']' :: rest) =
      .ok (items.map ClassItem.member, rest) := by
  induction items generalizing first with
  | nil =>
    obtain rfl : first = false := by simpa using hfirst
    exact readMembers_closing
  | cons item items ih =>
    obtain ⟨hitem, hitems⟩ := List.forall_mem_cons.mp h
    have hdash : (items.flatMap ClassItem.spelling ++ ']' :: rest).head? ≠ some '-' :=
      head?_spelling_ne (fun i hi => (hitems i hi).plain) rfl (by decide)
    rw [List.flatMap_cons, List.append_assoc, readMembers_item hitem hdash, ih hitems (Or.inl rfl)]
    rfl

/-- Items cannot be read if one of them is not in order. -/
lemma readMembers_spelling_of_not_valid {items : List ClassItem} (h : ∀ item ∈ items, item.Plain)
    (hnot : ¬∀ item ∈ items, item.Valid) :
    ∃ flaw, readMembers opened first (items.flatMap ClassItem.spelling ++ ']' :: rest) =
      .error flaw := by
  induction items generalizing first with
  | nil => exact absurd (by simp) hnot
  | cons item items ih =>
    obtain ⟨hitem, hitems⟩ := List.forall_mem_cons.mp h
    rw [List.flatMap_cons, List.append_assoc]
    by_cases hvalid : item.Valid
    · -- the item is read, and what cannot be read comes after it
      have hdash : (items.flatMap ClassItem.spelling ++ ']' :: rest).head? ≠ some '-' :=
        head?_spelling_ne hitems rfl (by decide)
      obtain ⟨flaw, hflaw⟩ := @ih false hitems fun hall =>
        hnot (List.forall_mem_cons.mpr ⟨hvalid, hall⟩)
      rw [readMembers_item hvalid hdash, hflaw]
      exact ⟨flaw, rfl⟩
    · exact readMembers_item_of_not_valid hitem hvalid

/-- The class that items are read as has the characters of the items. -/
lemma contains_iff (negated : Bool) (items : List ClassItem) (c : Char) :
    (CharClass.mk negated (items.map ClassItem.member)).contains c = true ↔
      InClass negated items c := by
  have hany : (items.map ClassItem.member).any (·.holds c) = true ↔
      ∃ item ∈ items, item.Covers c := by
    simp [ClassItem.holds_member]
  rw [InClass, ← hany, contains]
  cases (items.map ClassItem.member).any (·.holds c) <;> cases negated <;> simp

/-- A class that lists items is read item by item after its caret. -/
lemma read_of_lists {body : List Char} {negated : Bool} {items : List ClassItem}
    (h : Lists body negated items) (rest : List Char) :
    ∃ opened, read (body ++ ']' :: rest) =
      (readMembers opened true (items.flatMap ClassItem.spelling ++ ']' :: rest)).map
        fun (members, after) => (⟨negated, members⟩, after) := by
  rw [h.body_eq]
  cases negated with
  | true => exact ⟨_, rfl⟩
  | false =>
    have hcaret : (items.flatMap ClassItem.spelling ++ ']' :: rest).head? ≠ some '^' :=
      head?_spelling_ne h.plain rfl (by decide)
    simp only [Bool.false_eq_true, if_false, List.nil_append]
    unfold read
    split
    · rename_i heq
      rw [heq] at hcaret
      exact absurd rfl hcaret
    · exact ⟨_, rfl⟩

/-- A well-formed class is read as its items, and nothing after it is touched. -/
theorem read_spelling {body : List Char} {negated : Bool} {items : List ClassItem}
    (h : Spells body negated items) (rest : List Char) :
    read (body ++ ']' :: rest) = .ok (⟨negated, items.map ClassItem.member⟩, rest) := by
  obtain ⟨opened, hread⟩ := read_of_lists h.lists rest
  rw [hread, readMembers_spelling h.valid (Or.inr h.nonempty)]
  rfl

/-- A class with an item that is not in order cannot be read. -/
theorem read_lists_of_not_valid {body : List Char} {negated : Bool} {items : List ClassItem}
    (h : Lists body negated items) (hnot : ¬∀ item ∈ items, item.Valid) (rest : List Char) :
    ∃ flaw, read (body ++ ']' :: rest) = .error flaw := by
  obtain ⟨opened, hread⟩ := read_of_lists h rest
  obtain ⟨flaw, hflaw⟩ :
      ∃ flaw, readMembers opened true (items.flatMap ClassItem.spelling ++ ']' :: rest) =
        .error flaw := readMembers_spelling_of_not_valid h.plain hnot
  rw [hread, hflaw]
  exact ⟨flaw, rfl⟩

end CharClass

end CiRunner.Branch
