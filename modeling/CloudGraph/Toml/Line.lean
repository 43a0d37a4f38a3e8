import CloudGraph.Text.Lines
import CloudGraph.Text.Word
import CloudGraph.Toml.Node

/-!
# Lines of a settings file

`lines` divides a settings file into the lines that headers and values are read from. A
line end inside a list is a blank, and so is every character of a comment. A line end
between three quotes stays, unless it follows two quotes of one kind: then it is one more
quote. The keys of lines and the quotes of the whole file are checked on the way.
-/

namespace CloudGraph.Toml

/-- Whether an odd number of backslashes starts a text. -/
def oddBackslashes (text : List Char) : Bool :=
  (text.takeWhile (· = '\\')).length % 2 = 1

/-- Whether an odd number of backslashes ends a text. -/
def endsOpen (text : List Char) : Bool :=
  oddBackslashes text.reverse

/-- Whether a character opens and closes texts. -/
def isQuote (c : Char) : Bool :=
  c = '"' || c = '\''

/-- Whether a character may stand inside a bare key. -/
def isKeyChar (c : Char) : Bool :=
  Text.alphanumeric c || c = '_' || c = '-'

/-- Where a character stands with respect to the key of its line. -/
inductive KeyPlace where
  | outside
  /-- In a word of the key. -/
  | word
  /-- Behind a word of the key. -/
  | behind
  deriving DecidableEq

/-- The header that a character stands in. -/
inductive Heading where
  | none
  | table
  | list
  deriving DecidableEq

/-- What is known after some characters of a settings file. -/
structure Scan where
  /-- The characters as they are read, the last one first. -/
  past : List Char := []
  key : KeyPlace := .outside
  /-- Whether the key has a point. -/
  dotted : Bool := false
  /-- The quote that is open. -/
  quote? : Option Char := none
  /-- Whether three quotes are open. -/
  multi : Bool := false
  heading : Heading := .none
  /-- The brackets of lists that are open. -/
  depth : Int := 0
  /-- Whether only blanks have been seen of the line. -/
  fresh : Bool := true
  /-- Whether the rest of the line is a comment. -/
  comment : Bool := false

namespace Scan

/-- The scan after one more character. -/
def push (scan : Scan) (c : Char) : Scan :=
  { scan with past := c :: scan.past }

/-- Goes back into a word of the key if the next character starts one. -/
def resume (scan : Scan) : List Char → Except ReadError Scan
  | [] => .error .nothingThere
  | c :: _ =>
    .ok (if Text.blank c || c = '.' then scan else { scan with key := .word })

/-- Ends the key at its equals sign, the only character that may do so. -/
def leaveKey (scan : Scan) (c : Char) : Except ReadError Scan :=
  if c = '=' then .ok { scan.push c with key := .outside, dotted := false }
  else .error .malformed

/-- Passes a character in a word of the key. -/
def passWord (scan : Scan) (c : Char) : Except ReadError Scan :=
  if Text.blank c then .ok { scan.push c with key := .behind }
  else if c = '.' then .ok { scan.push c with dotted := true }
  else if isKeyChar c then .ok (scan.push c)
  else if scan.dotted && scan.past.head? = some '.' && isQuote c then
    .ok { scan.push c with quote? := some c }
  else scan.leaveKey c

/-- Passes a character behind a word of the key. -/
def passBehind (scan : Scan) (c : Char) (rest : List Char) : Except ReadError Scan :=
  if Text.blank c then
    if scan.dotted then (scan.push c).resume rest else .ok (scan.push c)
  else if c = '.' then { scan.push c with dotted := true }.resume rest
  else scan.leaveKey c

/-- Passes a character of a key. -/
def passKey (scan : Scan) (c : Char) (rest : List Char) : Except ReadError Scan :=
  if c = '\n' then .error .malformed
  else
    match scan.quote?, scan.key with
    | some quote, _ =>
      if c = quote && !oddBackslashes scan.past then
        .ok { scan.push c with key := .behind, quote? := none }
      else .ok (scan.push c)
    | none, .word => scan.passWord c
    | none, _ => scan.passBehind c rest

/-- Opens or closes a text at a quote. The third quote in a row opens or closes a text over
several lines; a double quote behind an odd number of backslashes is part of its text.
What stands before the first character of a file is its end. -/
def meetQuote (scan : Scan) (quote : Char) (rest : List Char) : Scan :=
  let behind := if scan.past.isEmpty then (quote :: rest).reverse else scan.past
  let count := min 2 (behind.takeWhile (· = quote)).length
  let escaped := quote = '"' && count != 1 && oddBackslashes (behind.drop count)
  if escaped || scan.quote?.any (· != quote) then scan
  else
    let multi := if count = 2 then !scan.multi else scan.multi
    let opens := if count = 2 then multi else scan.quote?.isNone
    { scan with multi, quote? := if opens then some quote else none }

/-- Opens a header or a list at a bracket outside texts. -/
def meetOpening (scan : Scan) (rest : List Char) : Scan :=
  if scan.quote?.isSome || scan.heading != .none then scan
  else if scan.fresh then
    { scan with heading := if rest.head? = some '[' then .list else .table }
  else { scan with depth := scan.depth + 1 }

/-- Closes a header or a list at a bracket outside texts. -/
def meetClosing (scan : Scan) : Scan :=
  if scan.quote?.isSome then scan
  else
    match scan.heading with
    | .table => { scan with heading := .none }
    | .list =>
      if scan.past.head? = some ']' then { scan with heading := .none } else scan
    | .none => { scan with depth := scan.depth - 1 }

/-- The characters up to a line end between three quotes, with the line end, the last one
first. Of three quotes before it the first is taken away. -/
def pushLineEnd : List Char → List Char
  | first :: second :: past =>
    if isQuote first && first = second then
      match past with
      | third :: older =>
        first :: first :: second :: (if third = first then ' ' else third) :: older
      | [] => [first, first, second]
    else '\n' :: first :: second :: past
  | past => '\n' :: past

/-- Passes a line end. -/
def passLineEnd (scan : Scan) : Except ReadError Scan :=
  let scan := { scan with comment := false }
  if scan.multi then .ok { scan with past := pushLineEnd scan.past }
  else if scan.quote?.isSome then .error .malformed
  else if scan.depth != 0 then .ok (scan.push ' ')
  else .ok { scan.push '\n' with fresh := true }

/-- Passes a character inside a line; the first one that is no blank starts a key, unless
it starts a header. -/
def passInside (scan : Scan) (c : Char) : Except ReadError Scan :=
  if scan.fresh && c != ' ' && c != '\t' then
    if scan.heading != .none then .ok { scan.push c with fresh := false }
    else if c = '=' then .error .malformed
    else .ok { scan.push c with fresh := false, key := .word }
  else .ok (scan.push c)

/-- Passes one character, with those that follow it in sight. -/
def pass (scan : Scan) (c : Char) (rest : List Char) : Except ReadError Scan :=
  if scan.key != .outside then scan.passKey c rest
  else if c = '\n' then scan.passLineEnd
  else if scan.comment then .ok (scan.push ' ')
  else if isQuote c then (scan.meetQuote c rest).passInside c
  else if c = '[' then (scan.meetOpening rest).passInside c
  else if c = ']' then scan.meetClosing.passInside c
  else if c = '#' && scan.quote?.isNone && scan.heading = .none then
    .ok { scan.push ' ' with comment := true }
  else scan.passInside c

/-- Passes a whole text and gives its characters as they are read. -/
def passAll (scan : Scan) : List Char → Except ReadError (List Char)
  | [] =>
    if scan.key != .outside || scan.quote?.isSome then .error .malformed
    else .ok scan.past.reverse
  | c :: rest => do
    let scan ← scan.pass c rest
    scan.passAll rest

end Scan

/-- The lines of a settings file. -/
def lines (text : List Char) : Except ReadError (List (List Char)) := do
  return Text.splitOn '\n' (← Scan.passAll {} text)

end CloudGraph.Toml
