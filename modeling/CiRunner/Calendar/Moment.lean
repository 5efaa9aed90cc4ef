import CiRunner.Calendar.Date
import CiRunner.Text.Hex

/-!
# Moments

A moment is a date with a time of day, exact to the microsecond, and maybe the offset of its clock
from universal time.  Two moments with offsets are the same when they fall on the same instant; one
with an offset and one without are never the same.
-/

namespace CiRunner.Calendar

/-- A date with a time of day. -/
structure Moment where
  /-- The date. -/
  date : Date
  /-- The hour, below 24. -/
  hour : Nat
  /-- The minute, below 60. -/
  minute : Nat
  /-- The second, below 60. -/
  second : Nat
  /-- The microsecond, below a million. -/
  micro : Nat
  /-- The offset of the clock from universal time, in minutes. -/
  offset : Option Int
  deriving DecidableEq, Repr, Inhabited

namespace Moment

/-- The moment, if its numbers lie in their ranges and the offset is less than a day. -/
def of? (date : Date) (hour minute second micro : Nat) (offset : Option Int) : Option Moment :=
  if hour < 24 ∧ minute < 60 ∧ second < 60 ∧ micro < 1000000 ∧
      (offset.all fun o => -1440 < o && o < 1440) then
    some ⟨date, hour, minute, second, micro, offset⟩
  else none

/-- The microseconds since the beginning of year one by the moment's own clock. -/
def ticks (m : Moment) : Int :=
  ((((m.date.ordinal : Int) * 24 + m.hour) * 60 + m.minute) * 60 + m.second) * 1000000 + m.micro

/-- The instant of a moment with an offset. -/
def instant? (m : Moment) : Option Int :=
  m.offset.map fun o => m.ticks - o * 60 * 1000000

/-- Whether two moments are the same point in time. -/
def same (a b : Moment) : Bool :=
  match a.instant?, b.instant? with
  | some x, some y => x == y
  | none, none => a.ticks == b.ticks
  | _, _ => false

/-- An offset as `+05:30`. -/
def offsetText (minutes : Int) : String :=
  (if minutes < 0 then "-" else "+") ++ Date.padded 2 (minutes.natAbs / 60) ++ ":" ++
    Date.padded 2 (minutes.natAbs % 60)

/-- The time of day as `21:59:43`, with the microseconds when there are any. -/
def clockText (m : Moment) : String :=
  Date.padded 2 m.hour ++ ":" ++ Date.padded 2 m.minute ++ ":" ++ Date.padded 2 m.second ++
    (if m.micro = 0 then "" else "." ++ Date.padded 6 m.micro)

/-- The moment as `2001-12-14 21:59:43.100000-05:00`. -/
def text (m : Moment) : String :=
  m.date.text ++ " " ++ m.clockText ++ (m.offset.map offsetText).getD ""

/-- The moment in universal time as `2001-12-14T21:59:43Z`. -/
def stamp (m : Moment) : String :=
  m.date.text ++ "T" ++ m.clockText ++ "Z"

/-- The moment that is written as a whole second of universal time, `2001-12-14T21:59:43Z`. -/
def ofStamp? (s : String) : Option Moment := do
  match s.toList with
  | [y₁, y₂, y₃, y₄, '-', m₁, m₂, '-', d₁, d₂, 'T', h₁, h₂, ':', n₁, n₂, ':', s₁, s₂, 'Z'] =>
    let number := Text.digitsValue? 10
    let date ← Date.of? (← number [y₁, y₂, y₃, y₄]) (← number [m₁, m₂]) (← number [d₁, d₂])
    of? date (← number [h₁, h₂]) (← number [n₁, n₂]) (← number [s₁, s₂]) 0 (some 0)
  | _ => none

end Moment

end CiRunner.Calendar
