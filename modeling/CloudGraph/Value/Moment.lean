/-!
# Dates and times

The calendar values that a settings file can hold, with their ISO text.
-/

namespace CloudGraph

/-- A day of the calendar. -/
structure Day where
  year : Nat
  month : Nat
  day : Nat
  deriving DecidableEq, Inhabited

/-- A time of the day. -/
structure Clock where
  hour : Nat
  minute : Nat
  second : Nat
  microsecond : Nat
  deriving DecidableEq, Inhabited

/-- A date, a time of the day, or both, then with an optional offset from UTC in
minutes. -/
inductive Moment where
  | date (day : Day)
  | time (clock : Clock)
  | dateTime (day : Day) (clock : Clock) (offset : Option Int)
  deriving DecidableEq, Inhabited

/-- A number padded with zeros to a width. -/
def paddedNumber (width n : Nat) : String :=
  let digits := Nat.toDigits 10 n
  String.ofList (List.replicate (width - digits.length) '0' ++ digits)

/-- The days of a month. -/
def daysIn (year month : Nat) : Nat :=
  if month = 2 then
    if year % 4 = 0 ∧ (year % 100 ≠ 0 ∨ year % 400 = 0) then 29 else 28
  else if month ∈ [4, 6, 9, 11] then 30
  else 31

namespace Day

/-- Whether the day exists. -/
def valid (d : Day) : Bool :=
  1 ≤ d.year && 1 ≤ d.month && d.month ≤ 12 && 1 ≤ d.day && d.day ≤ daysIn d.year d.month

/-- The ISO text of a day. -/
def text (d : Day) : String :=
  paddedNumber 4 d.year ++ "-" ++ paddedNumber 2 d.month ++ "-" ++ paddedNumber 2 d.day

end Day

namespace Clock

/-- Whether the time exists. -/
def valid (c : Clock) : Bool :=
  c.hour < 24 && c.minute < 60 && c.second < 60 && c.microsecond < 1000000

/-- The ISO text of a time; a whole second has no fraction. -/
def text (c : Clock) : String :=
  paddedNumber 2 c.hour ++ ":" ++ paddedNumber 2 c.minute ++ ":" ++ paddedNumber 2 c.second ++
    (if c.microsecond = 0 then "" else "." ++ paddedNumber 6 c.microsecond)

end Clock

namespace Moment

/-- An offset from UTC, with its sign. -/
def offsetText (minutes : Int) : String :=
  (if minutes < 0 then "-" else "+") ++ paddedNumber 2 (minutes.natAbs / 60) ++ ":" ++
    paddedNumber 2 (minutes.natAbs % 60)

/-- Whether the moment has a text: an offset of a day or more has none. -/
def hasText : Moment → Bool
  | .dateTime _ _ (some offset) => offset.natAbs < 24 * 60
  | _ => true

/-- The ISO text, with the given text between the day and the time. -/
def isoText (between : String) : Moment → String
  | .date day => day.text
  | .time clock => clock.text
  | .dateTime day clock offset =>
    day.text ++ between ++ clock.text ++ (offset.map offsetText).getD ""

end Moment

end CloudGraph
