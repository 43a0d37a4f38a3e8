import CloudGraph.Number.Numeral
import CloudGraph.Text.Lines
import CloudGraph.Toml.Node

/-!
# Scalars of a settings file

Times, dates and numbers. Dates and times are read by the places of their fields; what
separates the fields is not checked. An offset from UTC that cannot be read is left out,
and with it the fraction of a second.
-/

namespace CloudGraph.Toml

/-- The characters of a text from one place up to another. -/
def between (text : List Char) (first last : Nat) : List Char :=
  (text.take last).drop first

/-- A field of a date or a time. -/
def field? (text : List Char) : Option Nat :=
  (Numeral.decimalInteger? text).bind fun value => if 0 ≤ value then some value.toNat else none

/-- The number of two ASCII digits. -/
def pair? (a b : Char) : Option Nat :=
  if a.isDigit ∧ b.isDigit then some ((a.toNat - 0x30) * 10 + (b.toNat - 0x30)) else none

/-- The hour, minute and second that a text starts with, and what follows them. -/
def clockStart? : List Char → Option (Nat × Nat × Nat × List Char)
  | a :: b :: ':' :: c :: d :: ':' :: e :: f :: rest => do
    let hour ← pair? a b
    let minute ← pair? c d
    let second ← pair? e f
    return (hour, minute, second, rest)
  | _ => none

/-- The three to six digits after a point at the start of a text. -/
def clockFraction : List Char → Nat
  | '.' :: rest =>
    let digits := (rest.takeWhile Char.isDigit).take 6
    if digits.length < 3 then 0
    else Numeral.valueOf 10 (digits.map fun c => c.toNat - 0x30)
  | _ => 0

/-- The time that a text starts with. Its fraction is read as a count of microseconds. -/
def clock? (text : List Char) : Option Clock := do
  let (hour, minute, second, rest) ← clockStart? text
  return ⟨hour, minute, second, clockFraction rest⟩

/-- An offset from UTC: a `Z`, or a sign with hours and minutes at their places. -/
def offset? (text : List Char) : Option Int :=
  match text with
  | ['Z'] => some 0
  | sign :: rest => do
    let hours ← Numeral.decimalInteger? (rest.take 2)
    let minutes ← Numeral.decimalInteger? (between rest 3 5)
    let offset := hours * 60 + minutes
    return if sign = '-' then -offset else offset
  | [] => none

/-- The microseconds of a fraction of a second. More than six digits are counted in
floating point and cut off. -/
def microseconds? (digits : List Char) : Except ReadError (Option Int) :=
  match Numeral.decimalInteger? digits with
  | none => .ok none
  | some value =>
    if digits.length ≤ 6 then .ok (some (value * Nat.pow 10 (6 - digits.length)))
    else
      let unit := Double.ofDecimal false 1 (6 - digits.length)
      match (Double.ofInt value).truncatedProduct? unit with
      | some count => .ok (some count)
      | none => .error .tooLarge

/-- The digits of a fraction of a second and the offset that follows them: a `Z` at the
end, or else what starts with the first plus sign, or else with the first minus sign. -/
def fractionParts (text : List Char) : List Char × List Char :=
  if text.getLast? = some 'Z' || text.getLast? = some 'z' then (text.dropLast, ['Z'])
  else
    let sign := if text.contains '+' then '+' else '-'
    (text.takeWhile (· != sign), text.dropWhile (· != sign))

/-- The fraction and the offset that follow the seconds of a date with a time. Both are
left out when the offset cannot be read; so are they when the fraction cannot. -/
def secondsEnd : List Char → Except ReadError (Int × Option Int)
  | [] => .ok (0, none)
  | '.' :: rest => do
    let (digits, zone) := fractionParts rest
    let offset := offset? zone
    if offset.isNone && !zone.isEmpty then return (0, none)
    match ← microseconds? digits with
    | some count => return (count, offset)
    | none => return (0, none)
  | zone => .ok (0, offset? zone)

/-- The day of the first ten characters. -/
def day? (text : List Char) : Option Day := do
  let day : Day :=
    ⟨← field? (text.take 4), ← field? (between text 5 7), ← field? (between text 8 10)⟩
  if day.valid then some day else none

/-- The time of the day behind a day, with its microseconds. -/
def dayClock? (text : List Char) (microseconds : Int) : Option Clock := do
  if microseconds < 0 then none
  let clock : Clock :=
    ⟨← field? (between text 11 13), ← field? (between text 14 16),
      ← field? (between text 17 19), microseconds.toNat⟩
  if clock.valid then some clock else none

/-- The date of a text, with a time if it goes on after the day. -/
def date? (text : List Char) : Except ReadError (Option Moment) := do
  let (microseconds, offset) ← secondsEnd (text.drop 19)
  if !(text.drop 1).contains '-' then return none
  if text.length = 10 then return (day? text).map .date
  return do
    let day ← day? text
    let clock ← dayClock? text microseconds
    return .dateTime day clock offset

/-- Whether a number is written with a point or an exponent. -/
def isFractional (text : List Char) : Bool :=
  text.contains '.' || (!text.contains 'x' && (text.contains 'e' || text.contains 'E'))

/-- The number of an unsigned text with a point or an exponent: a digit comes first, and
a point is followed by something. -/
def fractional? (text : List Char) : Option Double :=
  let ended := text.getLast? = some '.' && text.count '.' = 1
  if ended || !((text.head?.map Char.isDigit).getD false) then none
  else Double.ofText? text

/-- The opposite of a number; that of zero is zero. -/
def opposite (value : Double) : Double :=
  if value.isZero then value else value.neg

/-- The number of a text. Underscores do not count. -/
def number? (text : List Char) : Option Atom :=
  let (negative, rest) := Numeral.takeSign text
  let rest := rest.filter (· != '_')
  let word := String.ofList (rest.map Char.toLower)
  if isFractional rest || word = "inf" || word = "nan" then
    let value? := if isFractional rest then fractional? rest else Double.ofText? rest
    value?.map fun value => .float (if negative then opposite value else value)
  else
    (Numeral.integer? rest).map fun value => .int (if negative then -value else value)

/-- Whether a number starts with a zero that stands before another digit. -/
def startsWithZero (marks : List Char) : List Char → Bool
  | '0' :: c :: _ => !marks.contains c
  | _ => false

/-- Whether the underscores of a number stand between digits and its zeros count. The
mark of a base may follow a zero, but not behind a sign. -/
def isOrderly (text : List Char) : Bool :=
  match Text.trim text with
  | [] => false
  | [c] => c != '_'
  | c :: rest =>
    let text := c :: rest
    let leading :=
      if c = '+' || c = '-' then startsWithZero ['.'] rest
      else startsWithZero ['.', 'o', 'b', 'x'] text
    let misplaced := c = '_' || text.getLast? = some '_'
      || Text.hasPart ['_', '.'] text || Text.hasPart ['.', '_'] text
      || Text.hasPart ['_', '_'] text
    !(leading || misplaced)

/-- Whether a text is a number, a date or a time that needs no blank before it. -/
def standsAlone (text : List Char) : Except ReadError Bool := do
  if (Double.ofText? text).isSome then return true
  return (← date? text).isSome || (clock? text).isSome

/-- The scalar of a text that is no truth value; `orderly` says whether a number may be
read from it. -/
def scalar (orderly : Bool) (text : List Char) : Except ReadError Atom := do
  match clock? text with
  | some clock => if clock.valid then return .moment (.time clock) else throw .malformed
  | none =>
    match ← date? text with
    | some moment => return .moment moment
    | none =>
      match if orderly then number? text else none with
      | some number => return number
      | none => throw .malformed

end CloudGraph.Toml
