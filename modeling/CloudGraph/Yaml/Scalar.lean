import CloudGraph.Text.Quoted
import CloudGraph.Value.Basic
import CloudGraph.Yaml.Resolve

/-!
# Scalars of the descriptor text

A scalar is written plain, in single quotes or in double quotes. A text is plain
where a reader takes it back as the same text, in single quotes where its characters
need no escape, and in double quotes elsewhere. Lines are folded at a space once they
pass `lineWidth`, and only ASCII is written.
-/

namespace CloudGraph.Yaml

/-- The column after which a line is folded. -/
def lineWidth : Nat := 1024

/-- The three ways to write a scalar. -/
inductive Style where
  | plain
  | singleQuoted
  | doubleQuoted
  deriving DecidableEq

/-- Whether a character ends a line. -/
def isBreak (c : Char) : Bool :=
  c = '\n' || c = '\x85' || c = '\u2028' || c = '\u2029'

/-- Whether a character needs an escape: all but the line end and graphic ASCII. -/
def isSpecial (c : Char) : Bool :=
  c ≠ '\n' && !(' ' ≤ c && c ≤ '~')

/-- Whether a character separates an indicator from what stands beside it. -/
def isSeparator (c : Char) : Bool :=
  c = '\x00' || c = ' ' || c = '\t' || c = '\r' || isBreak c

/-- Whether the rest of a text starts with a separator or is empty. -/
def separated : List Char → Bool
  | [] => true
  | c :: _ => isSeparator c

/-- The characters that have a meaning of their own at the start of a scalar. -/
def indicators : List Char :=
  ['#', ',', '[', ']', '{', '}', '&', '*', '!', '|', '>', '\'', '"', '%', '@', '\x60']

/-- Whether a text starts with a character or a marker that is not read as text. -/
def startsIndicator (text : List Char) : Bool :=
  ['-', '-', '-'].isPrefixOf text || ['.', '.', '.'].isPrefixOf text ||
    match text with
    | c :: rest =>
      indicators.contains c || ((c = '?' || c = ':' || c = '-') && separated rest)
    | [] => false

/-- Whether the text after a first character holds a mark that ends a plain scalar: a
colon before a separator, or a number sign after one. -/
def holdsMark : Char → List Char → Bool
  | _, [] => false
  | before, c :: rest =>
    (c = ':' && separated rest) || (c = '#' && isSeparator before) || holdsMark c rest

/-- Whether a text has a character of one class directly before one of another. -/
def adjacent (first second : Char → Bool) : List Char → Bool
  | a :: b :: rest => (first a && second b) || adjacent first second (b :: rest)
  | _ => false

/-- Whether a character is the space. -/
def isBlank (c : Char) : Bool := c = ' '

/-- Whether a text starts or ends with a space or a line end. -/
def looseEnds (text : List Char) : Bool :=
  let loose (c : Option Char) := c.any fun c => isBlank c || isBreak c
  loose text.head? || loose text.getLast?

/-- Whether a text spans lines. -/
def multiline (text : List Char) : Bool :=
  text.any isBreak

/-- Whether a text may be written plain, its reading apart. -/
def allowsPlain (text : List Char) : Bool :=
  !looseEnds text && !multiline text && !text.any isSpecial && !startsIndicator text &&
    match text with
    | c :: rest => !holdsMark c rest
    | [] => true

/-- Whether a text may be written in single quotes: no escapes, and no space beside a
line end. -/
def allowsSingle (text : List Char) : Bool :=
  !text.any isSpecial && !adjacent isBreak isBlank text && !adjacent isBlank isBreak text

/-- The style of a text. -/
def styleOf (text : List Char) : Style :=
  if allowsPlain text && !readsAsOther text then .plain
  else if allowsSingle text then .singleQuoted
  else .doubleQuoted

/-- A line end and the indentation of the next line. -/
def lineEnd (indent : Nat) : List Char :=
  '\n' :: List.replicate indent ' '

/-- What the characters of a run have in common. -/
inductive RunKind where
  | word
  | blanks
  | breaks
  deriving DecidableEq

/-- The kind of run that a character belongs to. -/
def runKind (c : Char) : RunKind :=
  if isBlank c then .blanks else if isBreak c then .breaks else .word

/-- A text cut into its longest runs of one kind. -/
def runs : List Char → List (RunKind × List Char)
  | [] => []
  | c :: rest =>
    match runs rest with
    | (kind, run) :: others =>
      if kind = runKind c then (kind, c :: run) :: others
      else (runKind c, [c]) :: (kind, run) :: others
    | [] => [(runKind c, [c])]

/-- Writes the runs of a plain scalar. A single space past the line width becomes a
line end. -/
def plainRuns (indent column : Nat) : List (RunKind × List Char) → List Char
  | [] => []
  | (kind, run) :: rest =>
    if kind = .blanks ∧ run.length = 1 ∧ lineWidth < column then
      lineEnd indent ++ plainRuns indent indent rest
    else run ++ plainRuns indent (column + run.length) rest

/-- A word in single quotes, its quotes doubled. -/
def doubleQuotes (word : List Char) : List Char :=
  word.flatMap fun c => if c = '\'' then ['\'', '\''] else [c]

/-- Writes the runs of a scalar in single quotes. A single space past the line width
becomes a line end unless it stands at an end of the text; a run of line ends is
written with one more. -/
def singleRuns (indent column : Nat) (first : Bool) : List (RunKind × List Char) → List Char
  | [] => []
  | (kind, run) :: rest =>
    match kind with
    | .word =>
      let written := doubleQuotes run
      written ++ singleRuns indent (column + written.length) false rest
    | .blanks =>
      if run.length = 1 ∧ lineWidth < column ∧ !first ∧ !rest.isEmpty then
        lineEnd indent ++ singleRuns indent indent false rest
      else run ++ singleRuns indent (column + run.length) false rest
    | .breaks => '\n' :: run ++ List.replicate indent ' ' ++ singleRuns indent indent false rest

/-- The escapes that have a letter. -/
def escapeLetters : List (Char × Char) :=
  [('\x00', '0'), ('\x07', 'a'), ('\x08', 'b'), ('\x09', 't'), ('\x0a', 'n'), ('\x0b', 'v'),
    ('\x0c', 'f'), ('\x0d', 'r'), ('\x1b', 'e'), ('"', '"'), ('\\', '\\'), ('\x85', 'N'),
    ('\xa0', '_'), ('\u2028', 'L'), ('\u2029', 'P')]

/-- Whether a character is escaped in double quotes. -/
def needsEscape (c : Char) : Bool :=
  c = '"' || c = '\\' || !(' ' ≤ c && c ≤ '~')

/-- The hexadecimal digits of a number in capitals, padded with zeros to a width. -/
def hexCapitals (width n : Nat) : List Char :=
  (Text.hex width n).map Char.toUpper

/-- The escape of a character in double quotes. -/
def escape (c : Char) : List Char :=
  match escapeLetters.lookup c with
  | some letter => ['\\', letter]
  | none =>
    if c.toNat ≤ 0xff then '\\' :: 'x' :: hexCapitals 2 c.toNat
    else if c.toNat ≤ 0xffff then '\\' :: 'u' :: hexCapitals 4 c.toNat
    else '\\' :: 'U' :: hexCapitals 8 c.toNat

/-- A folded line end in double quotes, before the given rest: a leading space of the
rest is protected by a backslash. The second part is the column after it. -/
def foldedEnd (indent : Nat) (rest : List Char) : List Char × Nat :=
  if rest.head? = some ' ' then ('\\' :: lineEnd indent ++ ['\\'], indent + 1)
  else ('\\' :: lineEnd indent, indent)

/-- Writes the body of a scalar in double quotes. `pending` holds the plain characters
that are not written yet, last first. Past the line width, the line is folded before a
space or beside an escape, but not at an end of the text. -/
def doubleBody (split : Bool) (indent column : Nat) (first : Bool) (pending : List Char) :
    List Char → List Char
  | [] => pending.reverse
  | c :: rest =>
    let inner := split && !first && !rest.isEmpty
    if needsEscape c then
      let written := pending.reverse ++ escape c
      let column := column + written.length
      if inner && lineWidth + 1 < column then
        let (folded, column) := foldedEnd indent rest
        written ++ folded ++ doubleBody split indent column false [] rest
      else written ++ doubleBody split indent column false [] rest
    else if inner && (c = ' ' || pending.isEmpty) && lineWidth < column + pending.length then
      let (folded, column) := foldedEnd indent (c :: rest)
      pending.reverse ++ folded ++ doubleBody split indent column false [c] rest
    else doubleBody split indent column false (c :: pending) rest

/-- Writes a text in a style, from a column on; `indent` is the indentation of its
further lines. A text that may not be split stays on one line. -/
def writeText (style : Style) (split : Bool) (indent column : Nat) (text : List Char) :
    List Char :=
  match style with
  | .plain => if split then plainRuns indent column (runs text) else text
  | .singleQuoted =>
    '\'' :: (if split then singleRuns indent (column + 1) true (runs text)
      else doubleQuotes text) ++ ['\'']
  | .doubleQuoted => '"' :: doubleBody split indent (column + 1) true [] text ++ ['"']

/-- The text of a number: a point always stands before an exponent. -/
def floatText : Double → String
  | .nan => ".nan"
  | .infinite negative => if negative then "-.inf" else ".inf"
  | number =>
    let text := number.text.toList
    let lead := text.takeWhile (· ≠ 'e')
    if text.contains '.' || lead.length = text.length then String.ofList text
    else String.ofList (lead ++ ['.', '0'] ++ text.drop lead.length)

/-- The characters of a scalar and the length of the name of its type. -/
def scalarText : Atom → List Char × Nat
  | .null => ("null".toList, 6)
  | .bool value => ((if value then "true" else "false").toList, 6)
  | .int value => ((toString value).toList, 5)
  | .float value => ((floatText value).toList, 7)
  | .text value => (value.toList, 5)
  | .moment value => ((value.isoText " ").toList, 11)

/-- The style of a scalar; all but texts are plain. -/
def scalarStyle : Atom → Style
  | .text value => styleOf value.toList
  | _ => .plain

/-- Writes a scalar from a column on. -/
def writeScalar (split : Bool) (indent column : Nat) (scalar : Atom) : List Char :=
  writeText (scalarStyle scalar) split indent column (scalarText scalar).1

/-- The length from which a key no longer fits before its colon. -/
def keyLimit : Nat := 128

/-- Whether a scalar can stand as a key before its colon: neither empty, nor of more
than one line, nor too long together with the name of its type. -/
def isSimpleKey (scalar : Atom) : Bool :=
  let (text, typeLength) := scalarText scalar
  typeLength + text.length < keyLimit && !text.isEmpty && !multiline text

end CloudGraph.Yaml
