/-!
# Patterns

Regular patterns, and how they are tried on a text. `Pattern.splits` gives the ways to take a
pattern from the front of a text in the order in which they are tried: the first of two choices
comes before the second, and more repetitions come before fewer. A `Shape` puts patterns in a row,
with the start and the end of a line between them, and keeps what some of them take.
`Shape.rewrite` goes through a text once, from left to right, and replaces what reads as a shape.
-/

namespace CloudGraph.Text

/-- A regular pattern. -/
inductive Pattern where
  | empty
  /-- One character of a class. -/
  | one (accepts : Char → Bool)
  | seq (first second : Pattern)
  | either (first second : Pattern)
  /-- Any number of times, none included. -/
  | many (body : Pattern)

/-- A text in two: what is taken from its front, and what is left. -/
abbrev Split := List Char × List Char

/-- The ways to take something again and again, more often before less often. Each time has to
take at least one character. -/
def repeated (take : List Char → List Split) (text : List Char) : List Split :=
  ((take text).flatMap fun (taken, rest) =>
    if _shorter : rest.length < text.length then
      (repeated take rest).map fun (more, rest) => (taken ++ more, rest)
    else []) ++ [([], text)]
termination_by text.length

namespace Pattern

/-- The pattern of a given text. -/
def word : List Char → Pattern
  | [] => .empty
  | c :: rest => .seq (.one (· == c)) (word rest)

/-- A pattern that need not be there. -/
def optional (body : Pattern) : Pattern := .either body .empty

/-- At least one time. -/
def several (body : Pattern) : Pattern := .seq body (.many body)

/-- One of some patterns. -/
def anyOf : List Pattern → Pattern
  | [] => .one fun _ => false
  | pattern :: patterns => .either pattern (anyOf patterns)

/-- The ways to take a pattern from the front of a text, in the order in which they are
tried. -/
def splits : Pattern → List Char → List Split
  | .empty, text => [([], text)]
  | .one _, [] => []
  | .one accepts, c :: rest => if accepts c then [([c], rest)] else []
  | .seq first second, text =>
    (splits first text).flatMap fun (taken, rest) =>
      (splits second rest).map fun (more, rest) => (taken ++ more, rest)
  | .either first second, text => splits first text ++ splits second text
  | .many body, text => repeated (splits body) text

end Pattern

/-- A part of a shape. -/
inductive Piece where
  | lineStart
  | lineEnd
  | plain (pattern : Pattern)
  /-- A pattern that is kept. -/
  | kept (pattern : Pattern)

/-- Parts in a row. -/
abbrev Shape := List Piece

/-- A way to read the front of a text as a shape. -/
structure Reading where
  /-- What the kept patterns have taken, in order. -/
  kept : List (List Char)
  /-- The last character that has been passed, if there is one. -/
  last? : Option Char
  rest : List Char

/-- Whether a text begins with a line end, or not at all. -/
def endsLine (text : List Char) : Bool :=
  text.head?.all (· == '\n')

namespace Shape

/-- The ways to read the front of a text as a shape, in the order in which they are tried, where
the given character is the last before the text. -/
def readings : Shape → Option Char → List Char → List Reading
  | [], last?, text => [⟨[], last?, text⟩]
  | .lineStart :: shape, last?, text =>
    if last?.all (· == '\n') then readings shape last? text else []
  | .lineEnd :: shape, last?, text => if endsLine text then readings shape last? text else []
  | .plain pattern :: shape, last?, text =>
    (pattern.splits text).flatMap fun (taken, rest) =>
      readings shape (taken.getLast?.or last?) rest
  | .kept pattern :: shape, last?, text =>
    (pattern.splits text).flatMap fun (taken, rest) =>
      (readings shape (taken.getLast?.or last?) rest).map fun reading =>
        { reading with kept := taken :: reading.kept }

/-- The first way to read the front of a text as a shape and to get on with it. -/
def firstReading? (shape : Shape) (last? : Option Char) (text : List Char) : Option Reading :=
  (shape.readings last? text).find? fun reading => reading.rest.length < text.length

/-- Replaces what reads as a shape from a text on, where the given character is the last before
it. -/
def rewriteFrom (shape : Shape) (write : List (List Char) → List Char) (last? : Option Char)
    (text : List Char) : List Char :=
  match _found : shape.firstReading? last? text with
  | some reading => write reading.kept ++ rewriteFrom shape write reading.last? reading.rest
  | none =>
    match text with
    | [] => []
    | c :: rest => c :: rewriteFrom shape write (some c) rest
termination_by text.length
decreasing_by
  · simpa using List.find?_some _found
  · simp

/-- Replaces whatever reads as a shape in a text by what is written for the kept parts. -/
def rewrite (shape : Shape) (write : List (List Char) → List Char) (text : List Char) : List Char :=
  shape.rewriteFrom write none text

end Shape

end CloudGraph.Text
