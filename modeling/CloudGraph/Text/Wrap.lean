import CloudGraph.Text.Word

/-!
# Wrapping

A text is cut into chunks, which are runs of spaces, words and parts of words with a
hyphen, and the chunks are laid out in lines of at most some number of characters. A
chunk that fits on no line is cut, after a hyphen if it has one in reach.
-/

namespace CloudGraph.Text

/-- Whether a character is one of those that words are made of. -/
def isWordChar (c : Char) : Bool :=
  alphanumeric c || c = '_'

/-- Whether a character is part of a word and no digit. -/
def isLetter (c : Char) : Bool :=
  isWordChar c && (digitValue? c).isNone

/-- Whether a dash may follow a character as a dash between words. -/
def beforeDash (c : Char) : Bool :=
  isWordChar c || ['!', '"', '\'', '&', '.', ',', '?'].contains c

/-- Replaces the tabs of a text by spaces up to the next column that is a multiple of
eight, and every other space of a line by a single space. -/
def expandTabs (column : Nat) : List Char → List Char
  | [] => []
  | c :: rest =>
    if c = '\t' then
      let width := 8 - column % 8
      List.replicate width ' ' ++ expandTabs (column + width) rest
    else if c = '\n' ∨ c = '\r' then ' ' :: expandTabs 0 rest
    else if c = '\x0b' ∨ c = '\x0c' then ' ' :: expandTabs (column + 1) rest
    else c :: expandTabs (column + 1) rest

/-- The length of the dash between two words that a text starts with, or none. A dash is
two hyphens or more, and a word follows it. -/
def dashLength? (text : List Char) : Option Nat :=
  let dash := text.takeWhile (· = '-')
  let follows := ((text.drop dash.length).head?.map isWordChar).getD false
  if 2 ≤ dash.length && follows then some dash.length else none

/-- Whether a word goes on after a hyphen with two letters, which a further hyphen may
stand between. -/
def goesOn : List Char → Bool
  | a :: '-' :: b :: _ => isLetter a && isLetter b
  | a :: b :: _ => isLetter a && isLetter b
  | _ => false

/-- Whether a hyphen may end a chunk after the characters before it, the last of which
comes first. -/
def allowsHyphen : List Char → Bool
  | a :: '-' :: b :: _ => isLetter a && isLetter b
  | a :: b :: _ => isLetter a && isLetter b
  | _ => false

/-- Takes the rest of a word or of a part of one; `before` are the characters before it,
the last first. -/
def takeWord (before : List Char) : List Char → List Char × List Char
  | [] => ([], [])
  | c :: rest =>
    let before := c :: before
    let ends : Bool := match rest with
      | [] => true
      | d :: _ => d = ' ' || (beforeDash c && (dashLength? rest).isSome)
    match rest with
    | '-' :: more =>
      if allowsHyphen before && goesOn more then ([c, '-'], more)
      else if ends then ([c], '-' :: more)
      else
        let (word, rest) := takeWord before ('-' :: more)
        (c :: word, rest)
    | rest =>
      if ends then ([c], rest)
      else
        let (word, rest) := takeWord before rest
        (c :: word, rest)

/-- Takes the chunk at the start of a text that is not empty. -/
def takeChunk (before text : List Char) : List Char × List Char :=
  if text.head? = some ' ' then (text.takeWhile (· = ' '), text.dropWhile (· = ' '))
  else
    let afterWord := (before.head?.map beforeDash).getD false
    match if afterWord then dashLength? text else none with
    | some length => (text.take length, text.drop length)
    | none => takeWord before text

/-- The chunks of a text. Each one spends a unit of fuel. -/
def chunks (fuel : Nat) (before text : List Char) : List (List Char) :=
  match fuel with
  | 0 => []
  | fuel + 1 =>
    if text.isEmpty then []
    else
      let (chunk, rest) := takeChunk before text
      chunk :: chunks fuel (chunk.reverse ++ before) rest

/-- Whether a chunk is made of spaces alone. -/
def isSpaces (chunk : List Char) : Bool :=
  chunk.all blank

/-- The chunks that fit on a line together, and those that follow. -/
def fill (room : Nat) : List (List Char) → List (List Char) × List (List Char)
  | [] => ([], [])
  | chunk :: rest =>
    if chunk.length ≤ room then
      let (line, rest) := fill (room - chunk.length) rest
      (chunk :: line, rest)
    else ([], chunk :: rest)

/-- Where a chunk is cut that has to leave the given room: after the last hyphen in reach
that something other than hyphens comes before, or at the end of the room. -/
def cutAt (room : Nat) (chunk : List Char) : Nat :=
  let reach := chunk.take room
  let tail := reach.reverse.takeWhile (· != '-')
  let start := reach.length - tail.length
  if room < chunk.length && 1 < start && (reach.take (start - 1)).any (· != '-') then start
  else room

/-- A line without the chunk of spaces that may end it. -/
def dropLastSpaces (line : List (List Char)) : List (List Char) :=
  match line.getLast? with
  | some chunk => if isSpaces chunk then line.dropLast else line
  | none => line

/-- The first line of some chunks and the chunks that are left. A chunk that is wider than
any line fills up the line and is cut. -/
def firstLine (width : Nat) (pending : List (List Char)) :
    List (List Char) × List (List Char) :=
  let (line, rest) := fill width pending
  match rest with
  | chunk :: more =>
    if width < chunk.length then
      let cut := cutAt (width - line.flatten.length) chunk
      (line ++ [chunk.take cut], chunk.drop cut :: more)
    else (line, rest)
  | [] => (line, [])

/-- Lays chunks out in lines. Each line spends a unit of fuel. Spaces at the start of a
line other than the first and at the end of any line are dropped. -/
def layLines (fuel width : Nat) (first : Bool) (pending : List (List Char)) :
    List (List Char) :=
  match fuel, pending with
  | 0, _ => []
  | _, [] => []
  | fuel + 1, chunk :: rest =>
    let pending := if isSpaces chunk && !first then rest else chunk :: rest
    let (line, pending) := firstLine width pending
    let line := dropLastSpaces line
    if line.isEmpty then layLines fuel width first pending
    else line.flatten :: layLines fuel width false pending

/-- The lines of a text, each of at most `width` characters, which has to be positive. -/
def wrap (width : Nat) (text : List Char) : List (List Char) :=
  let text := expandTabs 0 text
  layLines (2 * text.length + 2) width true (chunks (text.length + 1) [] text)

end CloudGraph.Text
