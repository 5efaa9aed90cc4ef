import CiRunner.Value.Basic
import CiRunner.Decimal.Style
import CiRunner.Text.Blank
import CiRunner.Text.Quoted

/-!
# The text of a value

`Value.display` is the text put where a value is asked for as text: a text is itself.  Inside a
collection, and wherever the kind of a value has to be seen, `Value.shown` is used instead: there a
text is quoted.
-/

namespace CiRunner

open CiRunner.Calendar CiRunner.Text

namespace Calendar

/-- A date among the members of a collection. -/
def Date.shown (d : Date) : String :=
  s!"datetime.date({d.year}, {d.month}, {d.day})"

/-- An offset in minutes among the members of a collection: whole days and the seconds left. -/
def Moment.offsetShown (minutes : Int) : String :=
  if minutes = 0 then "datetime.timezone.utc"
  else
    let days := minutes.fdiv 1440
    let seconds := minutes.fmod 1440 * 60
    let parts := (if days = 0 then [] else [s!"days={days}"]) ++
      (if seconds = 0 then [] else [s!"seconds={seconds}"])
    "datetime.timezone(datetime.timedelta(" ++ Text.join ", " parts ++ "))"

/-- A moment among the members of a collection, zero seconds and microseconds left out at the
end. -/
def Moment.shown (m : Moment) : String :=
  let parts := [m.date.year, m.date.month, m.date.day, m.hour, m.minute] ++
    (if m.micro = 0 then (if m.second = 0 then [] else [m.second]) else [m.second, m.micro])
  let zone := (m.offset.map fun o => ["tzinfo=" ++ offsetShown o]).getD []
  "datetime.datetime(" ++ Text.join ", " (parts.map toString ++ zone) ++ ")"

end Calendar

namespace Value

mutual

/-- A value among the members of a collection. -/
def shown : Value → String
  | null => "None"
  | bool b => if b then "True" else "False"
  | int n => toString n
  | float x => Decimal.text x
  | text s => quoted s
  | bytes bs => String.ofList (Quoted.encodeBytes bs)
  | date d => d.shown
  | moment m => m.shown
  | list items => "[" ++ join ", " (shownList items) ++ "]"
  | pair a b => "(" ++ a.shown ++ ", " ++ b.shown ++ ")"
  | map entries => "\x7b" ++ join ", " (shownEntries entries) ++ "\x7d"
  | set members =>
    if members.isEmpty then "set()" else "\x7b" ++ join ", " (shownList members) ++ "\x7d"

/-- The members of a list. -/
def shownList : List Value → List String
  | [] => []
  | v :: rest => v.shown :: shownList rest

/-- The entries of a mapping. -/
def shownEntries : List (Value × Value) → List String
  | [] => []
  | (k, v) :: rest => (k.shown ++ ": " ++ v.shown) :: shownEntries rest

end

/-- The text of a value. -/
def display : Value → String
  | text s => s
  | date d => d.text
  | moment m => m.text
  | v => v.shown

@[simp] theorem display_text (s : String) : (text s).display = s := rfl

end Value

end CiRunner
