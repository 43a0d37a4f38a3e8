import CloudGraph.Text.Quoted
import CloudGraph.Value.Basic

/-!
# Values inside messages

How a value is written inside a message. `Value.display` quotes texts,
`Value.plain` leaves a text as it is.
-/

namespace CloudGraph

namespace Atom

/-- A scalar inside a message, a text in quotes. -/
def display : Atom → String
  | .null => "None"
  | .bool value => if value then "True" else "False"
  | .int value => toString value
  | .float value => value.text
  | .text value => Text.quoted value
  | .moment value => value.isoText " "

/-- A scalar inside a message, a text as it is. -/
def plain : Atom → String
  | .text value => value
  | scalar => scalar.display

end Atom

namespace Value

mutual

/-- A value inside a message, given the form of the shared parts. -/
def displayWith (shown : Shared → String) : Value → String
  | .atom scalar => scalar.display
  | .list items => "[" ++ displayItems shown items ++ "]"
  | .map entries => "\x7b" ++ displayEntries shown entries ++ "\x7d"
  | .shared part => shown part

/-- The items of a list, separated by commas. -/
def displayItems (shown : Shared → String) : List Value → String
  | [] => ""
  | [item] => displayWith shown item
  | item :: items => displayWith shown item ++ ", " ++ displayItems shown items

/-- The entries of a mapping, separated by commas. -/
def displayEntries (shown : Shared → String) : List (Atom × Value) → String
  | [] => ""
  | [(key, value)] => key.display ++ ": " ++ displayWith shown value
  | (key, value) :: entries =>
    key.display ++ ": " ++ displayWith shown value ++ ", " ++ displayEntries shown entries

end

/-- A value inside a message, every text in quotes. A shared part is shown by its
content, which holds no shared part itself. -/
def display : Value → String :=
  displayWith fun part => displayWith (fun _ => "") part.value

/-- A value inside a message, a text as it is. -/
def plain : Value → String
  | .atom scalar => scalar.plain
  | value => value.display

end Value

end CloudGraph
