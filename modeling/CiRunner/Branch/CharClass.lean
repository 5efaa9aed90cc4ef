import CiRunner.Branch.Flaw
import CiRunner.Text.Blank
import CiRunner.Text.DecimalDigit
import CiRunner.Text.Hex
import CiRunner.Text.WordChar

/-!
# Character classes

A class in brackets lists characters, ranges of characters and named kinds of characters; a caret in
front turns it into its complement.  Within the brackets a backslash begins an escape, a closing
bracket that comes first is an ordinary character, and so is a hyphen that comes last.  No escape
asks for a character by its long name here.
-/

namespace CiRunner.Branch

open CiRunner.Text

/-- The kinds of characters that have an escape of their own. -/
inductive CharKind where
  /-- Decimal digits of every script. -/
  | digit
  /-- Blank characters. -/
  | blank
  /-- Letters, numbers and the underscore. -/
  | word
  deriving DecidableEq, Repr

/-- Whether a character is of a kind. -/
def CharKind.holds : CharKind → Char → Bool
  | digit, c => (decimalValue? c).isSome
  | blank, c => isBlank c
  | word, c => isWordChar c

/-- A member of a class. -/
inductive ClassMember where
  /-- One code point. -/
  | code (n : Nat)
  /-- All code points from one to another. -/
  | range (low high : Nat)
  /-- All characters of a kind, or all others. -/
  | kind (k : CharKind) (others : Bool)
  deriving DecidableEq, Repr

/-- Whether a character belongs to a member of a class. -/
def ClassMember.holds : ClassMember → Char → Bool
  | code n, c => c.toNat == n
  | range low high, c => low ≤ c.toNat && c.toNat ≤ high
  | kind k others, c => k.holds c != others

/-- A class of characters. -/
structure CharClass where
  /-- Whether the class is the complement of its members. -/
  negated : Bool
  /-- The members. -/
  members : List ClassMember
  deriving DecidableEq, Repr

namespace CharClass

/-- Whether a character belongs to the class. -/
def contains (s : CharClass) (c : Char) : Bool :=
  s.members.any (·.holds c) != s.negated

/-- The class of one character. -/
def single (c : Char) : CharClass := ⟨false, [.code c.toNat]⟩

/-- The class of all characters but one. -/
def allBut (c : Char) : CharClass := ⟨true, [.code c.toNat]⟩

@[simp] theorem contains_single (c d : Char) : (single c).contains d = (d.toNat == c.toNat) := by
  simp [contains, single, ClassMember.holds]

@[simp] theorem contains_allBut (c d : Char) : (allBut c).contains d = (d.toNat != c.toNat) := by
  simp [contains, allBut, ClassMember.holds, bne]

/-! ### Reading a class -/

/-- The code point that an escape letter stands for. -/
def controlCode? (c : Char) : Option Nat :=
  if c = 'a' then some 7 else if c = 'b' then some 8 else if c = 't' then some 9
  else if c = 'n' then some 10 else if c = 'v' then some 11 else if c = 'f' then some 12
  else if c = 'r' then some 13 else none

/-- The kind that an escape letter stands for. -/
def kind? (c : Char) : Option ClassMember :=
  if c = 'd' then some (.kind .digit false) else if c = 'D' then some (.kind .digit true)
  else if c = 's' then some (.kind .blank false) else if c = 'S' then some (.kind .blank true)
  else if c = 'w' then some (.kind .word false) else if c = 'W' then some (.kind .word true)
  else none

/-- How many hexadecimal digits an escape letter asks for. -/
def hexWidth? (c : Char) : Option Nat :=
  if c = 'x' then some 2 else if c = 'u' then some 4 else if c = 'U' then some 8 else none

/-- Reads a code point written in a fixed number of hexadecimal digits, after the letter that asks
for them. -/
def readHex (letter : Char) (width : Nat) (rest : List Char) : Except Flaw ClassMember :=
  let digits := (rest.take width).takeWhile fun c => (hexValue? c).isSome
  let flaw (kind : List Char → FlawKind) : Except Flaw ClassMember :=
    .error ⟨kind ('\\' :: letter :: digits), rest.length + 2⟩
  if digits.length = width then
    match (digitsValue? 16 digits).filter (· < 0x110000) with
    | some n => .ok (.code n)
    | none => flaw .badEscape
  else flaw .shortEscape

/-- Whether a character is an octal digit. -/
def isOctal (c : Char) : Bool := '0' ≤ c && c ≤ '7'

/-- Reads what follows a backslash: the member and how many characters belong to it after the first.
Letters and digits without a meaning are refused; any other character stands for itself. -/
def readEscape (c : Char) (rest : List Char) : Except Flaw (ClassMember × Nat) :=
  match controlCode? c, kind? c, hexWidth? c with
  | some n, _, _ => .ok (.code n, 0)
  | _, some member, _ => .ok (member, 0)
  | _, _, some width => (readHex c width rest).map fun member => (member, width)
  | none, none, none =>
    if isOctal c then
      let more := (rest.take 2).takeWhile isOctal
      match (digitsValue? 8 (c :: more)).filter (· < 0o400) with
      | some n => .ok (.code n, more.length)
      | none => .error ⟨.largeEscape ('\\' :: c :: more), rest.length + 2⟩
    else if c = 'N' ∧ rest.head? ≠ some '\x7b' then .error ⟨.namelessEscape, rest.length⟩
    else if c.isAlphanum then .error ⟨.badEscape ['\\', c], rest.length + 2⟩
    else .ok (.code c.toNat, 0)

/-- Reads one member of the class that was opened when so many characters were left, and gives the
rest of the text. -/
def readMember (opened : Nat) : List Char → Except Flaw (ClassMember × List Char)
  | [] => .error ⟨.openClass, opened⟩
  | c :: rest =>
    if c = '\\' then
      match rest with
      | [] => .error ⟨.loneEscape, 1⟩
      | d :: after => (readEscape d after).map fun (member, count) => (member, after.drop count)
    else .ok (.code c.toNat, rest)

theorem length_lt_of_readMember {opened : Nat} {s rest : List Char} {m : ClassMember}
    (h : readMember opened s = .ok (m, rest)) : rest.length < s.length := by
  cases s with
  | nil => cases h
  | cons c s =>
    simp only [readMember] at h
    by_cases hc : c = '\\'
    · rw [if_pos hc] at h
      cases s with
      | nil => cases h
      | cons d s =>
        cases hd : readEscape d s with
        | error f => simp only [hd] at h; cases h
        | ok p =>
          simp only [hd] at h
          cases h
          simp only [List.length_drop, List.length_cons]
          omega
    · rw [if_neg hc] at h
      cases h
      exact Nat.lt_succ_self _

/-- The range between two members, which have to be single code points in order. -/
def range? : ClassMember → ClassMember → Option ClassMember
  | .code low, .code high => if low ≤ high then some (.range low high) else none
  | _, _ => none

/-- How the end of a range is written: a character, or an escape without its digits. -/
def written : List Char → List Char
  | '\\' :: c :: _ => ['\\', c]
  | s => s.take 1

/-- Puts a member in front of what was read after it. -/
def addMember (m : ClassMember) (r : List ClassMember × List Char) : List ClassMember × List Char :=
  (m :: r.1, r.2)

/-- Reads the members up to the closing bracket and gives the text after it.  `first` tells that no
member has been read, so that a closing bracket is an ordinary character. -/
def readMembers (opened : Nat) (first : Bool) (s : List Char) :
    Except Flaw (List ClassMember × List Char) :=
  if s.head? = some ']' ∧ first = false then .ok ([], s.drop 1)
  else
    match h : readMember opened s with
    | .error f => .error f
    | .ok (m, rest) =>
      have _hr := length_lt_of_readMember h
      if rest.head? = some '-' then
        let upper := rest.drop 1
        if upper.head? = some ']' then .ok ([m, .code '-'.toNat], upper.drop 1)
        else
          match h' : readMember opened upper with
          | .error f => .error f
          | .ok (m', after) =>
            match range? m m' with
            | none =>
              let ends := (written s, written upper)
              .error ⟨.badRange ends.1 ends.2, after.length + ends.1.length + 1 + ends.2.length⟩
            | some r =>
              have _ha := length_lt_of_readMember h'
              (readMembers opened false after).map (addMember r)
      else (readMembers opened false rest).map (addMember m)
termination_by s.length
decreasing_by
  · simp only [upper, List.length_drop] at _ha
    omega
  · exact _hr

/-- Reads a class after its opening bracket and gives the text after its closing one. -/
def read (s : List Char) : Except Flaw (CharClass × List Char) :=
  match s with
  | '^' :: rest => (readMembers (s.length + 1) true rest).map fun (ms, after) => (⟨true, ms⟩, after)
  | rest => (readMembers (s.length + 1) true rest).map fun (ms, after) => (⟨false, ms⟩, after)

theorem length_lt_of_readMembers {opened : Nat} {first : Bool} {s after : List Char}
    {ms : List ClassMember} (h : readMembers opened first s = .ok (ms, after)) :
    after.length < s.length := by
  fun_induction readMembers opened first s generalizing ms after with
  | case1 first s hs =>
    cases s with
    | nil => simp at hs
    | cons c s => cases h; simp
  | case2 => cases h
  | case3 =>
    rename_i hr _ upper _
    cases h
    simp only [upper, List.length_drop]
    omega
  | case4 => cases h
  | case5 => cases h
  | case6 =>
    rename_i s _ _ _ _ hr _ upper _ _ rest' _ _ _ ha ih
    cases hm : readMembers opened false rest' with
    | error f => rw [hm] at h; cases h
    | ok p =>
      rw [hm] at h
      cases h
      have := ih hm
      simp only [upper, List.length_drop] at ha
      change p.2.length < s.length
      omega
  | case7 =>
    rename_i s _ _ rest _ hr _ ih
    cases hm : readMembers opened false rest with
    | error f => rw [hm] at h; cases h
    | ok p =>
      rw [hm] at h
      cases h
      have := ih hm
      change p.2.length < s.length
      omega

theorem length_lt_of_read {s after : List Char} {k : CharClass}
    (h : read s = .ok (k, after)) : after.length < s.length := by
  unfold read at h
  split at h
  · rename_i rest
    cases hm : readMembers (('^' :: rest).length + 1) true rest with
    | error f => rw [hm] at h; cases h
    | ok p =>
      rw [hm] at h
      cases h
      have := length_lt_of_readMembers hm
      simp only [List.length_cons]
      omega
  · cases hm : readMembers (s.length + 1) true s with
    | error f => rw [hm] at h; cases h
    | ok p =>
      rw [hm] at h
      cases h
      exact length_lt_of_readMembers hm

end CharClass

end CiRunner.Branch
