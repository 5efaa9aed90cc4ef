import CiRunner.Calendar.Moment
import CiRunner.Decimal.Reading
import CiRunner.Text.Blank
import CiRunner.Yaml.Cursor

/-!
# Tags and the forms of plain scalars

The tag of a node says what it is.  A plain scalar without a tag gets one from its form: words for
truth values and for nothing, integers in four bases and in base sixty, floating-point numbers,
dates, the sign that merges mappings and the sign of a default value.
-/

namespace CiRunner.Yaml

open CiRunner.Text CiRunner.Calendar

/-- The beginning that all known tags share. -/
def tagRoot : String := "tag:yaml.org,2002:"

/-- What a tag says about a node. -/
inductive Tag where
  /-- Nothing. -/
  | null
  /-- A truth value. -/
  | bool
  /-- An integer. -/
  | int
  /-- A floating-point number. -/
  | float
  /-- A date or a moment. -/
  | moment
  /-- Bytes. -/
  | binary
  /-- A text. -/
  | text
  /-- A list. -/
  | list
  /-- A mapping. -/
  | map
  /-- A set. -/
  | set
  /-- A list of pairs with distinct keys. -/
  | orderedMap
  /-- A list of pairs. -/
  | pairs
  /-- The sign that merges a mapping into another. -/
  | merge
  /-- The sign of a default value. -/
  | default
  /-- A tag without a meaning here. -/
  | unknown (name : String)
  deriving DecidableEq, Repr, Inhabited

/-- The tag of a name. -/
def Tag.ofName (name : String) : Tag :=
  match [("null", Tag.null), ("bool", .bool), ("int", .int), ("float", .float),
    ("timestamp", .moment), ("binary", .binary), ("str", .text), ("seq", .list), ("map", .map),
    ("set", .set), ("omap", .orderedMap), ("pairs", .pairs), ("merge", .merge),
    ("value", .default)].find? fun e => tagRoot ++ e.1 == name with
  | some e => e.2
  | none => .unknown name

/-! ### Forms -/

/-- Digits and underscores. -/
def isDigitOrSeparator (c : Char) : Bool := c.isDigit || c == '_'

/-- Digits of base two and underscores. -/
def isBinaryDigit (c : Char) : Bool := c == '0' || c == '1' || c == '_'

/-- Digits of base eight and underscores. -/
def isOctalDigit (c : Char) : Bool := ('0' ≤ c && c ≤ '7') || c == '_'

/-- Digits of base sixteen and underscores. -/
def isHexDigit (c : Char) : Bool := (hexValue? c).isSome || c == '_'

/-- The words for truth values, each in three spellings. -/
def isTruthWord (s : String) : Bool :=
  ["yes", "Yes", "YES", "no", "No", "NO", "true", "True", "TRUE", "false", "False", "FALSE", "on",
    "On", "ON", "off", "Off", "OFF"].contains s

/-- The words for nothing. -/
def isNullWord (s : String) : Bool := ["", "~", "null", "Null", "NULL"].contains s

/-- A text without the sign it may begin with. -/
def dropSign (s : List Char) : List Char := (Decimal.takeSign s).2

/-- Whether a text is one or two digits of base sixty. -/
def isSixty (s : List Char) : Bool :=
  match s with
  | [d] => d.isDigit
  | [d, e] => '0' ≤ d && d ≤ '5' && e.isDigit
  | _ => false

/-- Whether a text is digits with underscores, a digit first. -/
def isDigits (s : List Char) : Bool :=
  (s.head?.map Char.isDigit).getD false && s.all isDigitOrSeparator

/-- Whether a text is a number in base sixty: digits, then colons with one or two digits each. -/
def isSexagesimal (s : List Char) : Bool :=
  match splitAtChar ':' [] s with
  | first :: second :: rest => isDigits first && (second :: rest).all isSixty
  | _ => false

/-- Whether a text has the form of an integer. -/
def isIntForm (s : List Char) : Bool :=
  match dropSign s with
  | '0' :: 'b' :: rest => !rest.isEmpty && rest.all isBinaryDigit
  | '0' :: 'x' :: rest => !rest.isEmpty && rest.all isHexDigit
  | '0' :: rest => rest.all isOctalDigit
  | body => (isDigits body || isSexagesimal body)

/-- Whether a text is empty or the exponent of a floating-point number, which has a sign. -/
def isPowerForm (s : List Char) : Bool :=
  match s with
  | [] => true
  | e :: sign :: digits =>
    (e == 'e' || e == 'E') && (sign == '+' || sign == '-') && !digits.isEmpty &&
      digits.all Char.isDigit
  | _ => false

/-- Whether a text has the form of a floating-point number: it has a point. -/
def isFloatForm (s : List Char) : Bool :=
  let body := dropSign s
  let word := String.ofList body
  if word == ".inf" || word == ".Inf" || word == ".INF" then true
  else if s.length = 4 && (word == ".nan" || word == ".NaN" || word == ".NAN") then true
  else
    match cutAt '.' body with
    | ([], some after) =>
      s.head? == some '.' && (after.head?.map Char.isDigit).getD false &&
        isPowerForm (after.dropWhile isDigitOrSeparator)
    | (before, some after) =>
      (isDigits before && isPowerForm (after.dropWhile isDigitOrSeparator)) ||
        (isSexagesimal before && after.all isDigitOrSeparator)
    | (_, none) => false

/-! ### Dates and moments -/

/-- The parts of a written date or moment. -/
structure MomentForm where
  /-- The digits of the year. -/
  year : List Char
  /-- The digits of the month. -/
  month : List Char
  /-- The digits of the day. -/
  day : List Char
  /-- The digits of the hour, the minute, the second and the fraction of the second. -/
  clock : Option (List Char × List Char × List Char × List Char)
  /-- The offset in minutes. -/
  offset : Option Int

/-- The number that digits write. -/
def number (digits : List Char) : Nat := (digitsValue? 10 digits).getD 0

/-- Reads digits, of which there have to be as many as told. -/
def readDigits? (least most : Nat) (s : List Char) : Option (List Char × List Char) :=
  let digits := s.takeWhile Char.isDigit
  if least ≤ digits.length ∧ digits.length ≤ most then some (digits, s.drop digits.length)
  else none

/-- Drops a character that has to come next. -/
def expect? (c : Char) (s : List Char) : Option (List Char) :=
  match s with
  | d :: rest => if d = c then some rest else none
  | [] => none

/-- Reads the offset at the end of a moment. -/
def readOffset? (s : List Char) : Option (Option Int) :=
  match s.dropWhile isSpaceOrTab with
  | [] => if s.isEmpty then some none else none
  | 'Z' :: rest => if rest.isEmpty then some (some 0) else none
  | sign :: rest =>
    if sign = '+' ∨ sign = '-' then do
      let (hour, rest) ← readDigits? 1 2 rest
      let minute ←
        match rest with
        | [] => some []
        | _ => do
          let (minute, rest) ← readDigits? 2 2 (← expect? ':' rest)
          if rest.isEmpty then some minute else none
      let total : Int := number hour * 60 + number minute
      pure (some (if sign = '-' then -total else total))
    else none

/-- Reads the time of day behind a date, with the offset. -/
def readClock? (s : List Char) :
    Option ((List Char × List Char × List Char × List Char) × Option Int) := do
  let (hour, rest) ← readDigits? 1 2 s
  let (minute, rest) ← readDigits? 2 2 (← expect? ':' rest)
  let (second, rest) ← readDigits? 2 2 (← expect? ':' rest)
  let (fraction, rest) :=
    match rest with
    | '.' :: rest => (rest.takeWhile Char.isDigit, rest.dropWhile Char.isDigit)
    | _ => ([], rest)
  let offset ← readOffset? rest
  pure ((hour, minute, second, fraction), offset)

/-- Reads a date or a moment. -/
def readMomentForm? (s : List Char) : Option MomentForm := do
  let (year, rest) ← readDigits? 4 4 s
  let (month, rest) ← readDigits? 1 2 (← expect? '-' rest)
  let (day, rest) ← readDigits? 1 2 (← expect? '-' rest)
  match rest with
  | [] => pure ⟨year, month, day, none, none⟩
  | c :: rest =>
    if c = 'T' ∨ c = 't' then
      let (clock, offset) ← readClock? rest
      pure ⟨year, month, day, some clock, offset⟩
    else if isSpaceOrTab c then
      let (clock, offset) ← readClock? (rest.dropWhile isSpaceOrTab)
      pure ⟨year, month, day, some clock, offset⟩
    else none

/-- Whether a text has the form of a date or a moment.  A date alone has two digits for the month
and for the day. -/
def isMomentForm (s : List Char) : Bool :=
  match readMomentForm? s with
  | none => false
  | some f => f.clock.isSome || (f.month.length == 2 && f.day.length == 2)

/-- The tag that the form of a plain scalar gives. -/
def Tag.ofPlain (s : String) : Tag :=
  if isTruthWord s then .bool
  else if isFloatForm s.toList then .float
  else if isIntForm s.toList then .int
  else if s == "<<" then .merge
  else if isNullWord s then .null
  else if isMomentForm s.toList then .moment
  else if s == "=" then .default
  else .text

end CiRunner.Yaml
