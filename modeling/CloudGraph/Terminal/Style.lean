import CloudGraph.Text.Lines

/-!
# Styles

The styles of a text on a terminal, written as escape codes around it. Without colours a
style leaves the text as it is, apart from the mark of a nested style.
-/

namespace CloudGraph

/-- A colour by its red, green and blue parts. -/
structure Colour where
  red : Nat
  green : Nat
  blue : Nat

/-- How a text stands out. -/
inductive Style where
  | dim
  | good
  | bad
  | neutral

namespace Style

/-- The colour of a style, if it has one. -/
def colour? : Style → Option Colour
  | .dim => some ⟨119, 119, 119⟩
  | .good => some ⟨2, 119, 119⟩
  | .bad => some ⟨153, 16, 16⟩
  | .neutral => none

/-- Whether a style is bold. -/
def isBold : Style → Bool
  | .dim => false
  | .good | .bad | .neutral => true

/-- An escape code with its parameters. -/
def code (parameters : String) : String :=
  "\x1b[" ++ parameters ++ "m"

/-- The code that starts a colour. -/
def colourCode (colour : Colour) : String :=
  code ("38;2;" ++ toString colour.red ++ ";" ++ toString colour.green ++ ";" ++
    toString colour.blue)

/-- The codes that start a style, bold first. -/
def start (style : Style) : String :=
  (if style.isBold then code "1" else "") ++ ((style.colour?.map colourCode).getD "")

/-- The codes that end a style. -/
def finish (style : Style) : String :=
  (if style.isBold then code "22" else "") ++ (if style.colour?.isSome then code "39" else "")

/-- The mark at the end of a styled text that stands inside another one. -/
def nestMark : String := code "26"

/-- Replaces every occurrence of a part of a text, from the left. The part is not
empty. -/
def replacePart (part replacement : List Char) : Nat → List Char → List Char
  | _, [] => []
  | skip + 1, _ :: rest => replacePart part replacement skip rest
  | 0, c :: rest =>
    if part.isPrefixOf (c :: rest) then
      replacement ++ replacePart part replacement (part.length - 1) rest
    else c :: replacePart part replacement 0 rest

/-- A text in a style. A mark of a nested style starts the outer one again. -/
def apply (style : Style) (colours : Bool) (text : String) : String :=
  let start := if colours then style.start else ""
  let finish := if colours then style.finish else ""
  let inner := replacePart nestMark.toList start.toList 0 text.toList
  start ++ String.ofList inner ++ finish

end Style

end CloudGraph
