import CloudGraph.Number.Numeral
import CloudGraph.Toml.Line
import CloudGraph.Toml.Pieces

/-!
# Texts of a settings file

The four forms of a text: between double quotes with escapes, between single quotes
without, and both with three quotes over several lines. The code points of a text are put
in before its other escapes are replaced, and its quotes are taken away last.
-/

namespace CloudGraph.Toml

/-- The character that an escape letter stands for. -/
def escaped? : Char → Option Char
  | '0' => some '\x00'
  | 'b' => some '\x08'
  | 'f' => some '\x0c'
  | 'n' => some '\n'
  | 'r' => some '\r'
  | 't' => some '\t'
  | '"' => some '"'
  | _ => none

/-- Whether an escape letter stands before a code point. -/
def isCodeLetter (c : Char) : Bool :=
  c = 'u' || c = 'U'

/-- Whether every backslash starts an escape, given what follows each backslash. A
backslash after another one may stand before any letter. -/
def escapesExist (escaped : Bool) : List (List Char) → Bool
  | [] => true
  | [] :: parts => escapesExist (!escaped) parts
  | (c :: _) :: parts =>
    ((escaped? c).isSome || isCodeLetter c || escaped) && escapesExist false parts

/-- The value of an ASCII hexadecimal digit. -/
def hexValue? (c : Char) : Option Nat :=
  if c.toNat < 0x80 then Numeral.digitIn? 16 c else none

/-- The character of a code point in hexadecimal. The digit after a leading `d` may not
reach the surrogates; those that zeros come before are replaced. -/
def codePoint (digits : List Char) : Except ReadError Char :=
  match digits.mapM hexValue? with
  | none => .error .malformed
  | some [] => .error .nothingThere
  | some [0xd] => .error .nothingThere
  | some (first :: rest) =>
    let code := Numeral.valueOf 16 (first :: rest)
    if first = 0xd && rest.head?.any (7 < ·) then .error .malformed
    else if Nat.pow 2 31 ≤ code then .error .tooLarge
    else if 0x10ffff < code then .error .malformed
    else .ok (if code.isValidChar then Char.ofNat code else '\ufffd')

/-- Puts characters in place of the code points that start the parts of a text after each
occurrence of an escape. The escape stays when a backslash keeps it from being one. -/
def putCodePoints (letter : Char) (length : Nat) (kept : Bool) :
    List (List Char) → Except ReadError (List Char)
  | [] => .ok []
  | part :: parts =>
    if kept then do
      return '\\' :: letter :: part ++ (← putCodePoints letter length (endsOpen part) parts)
    else do
      let c ← codePoint (part.take length)
      return c :: part.drop length ++ (← putCodePoints letter length false parts)

/-- Replaces the code points of one escape letter, which have at most a number of digits. -/
def replaceCodePoints (letter : Char) (length : Nat) (text : List Char) :
    Except ReadError (List Char) :=
  match Text.splitOnText ['\\', letter] text with
  | [] => .ok []
  | first :: parts => do
    return first ++ (← putCodePoints letter length (endsOpen first) parts)

/-- Replaces the other escapes of a text. An escape letter of code points stays with its
backslash. -/
def unescape : List Char → Except ReadError (List Char)
  | '\\' :: '\\' :: rest => do return '\\' :: (← unescape rest)
  | '\\' :: c :: rest =>
    match escaped? c with
    | some replacement => do return replacement :: (← unescape rest)
    | none =>
      if isCodeLetter c then do return '\\' :: c :: (← unescape rest)
      else .error .malformed
  | c :: rest => do return c :: (← unescape rest)
  | [] => .ok []

/-- Replaces all escapes of a text between double quotes. -/
def replaceEscapes (text : List Char) : Except ReadError (List Char) := do
  if !escapesExist false ((Text.splitOn '\\' text).drop 1) then throw .malformed
  let text ← replaceCodePoints 'u' 4 text
  let text ← replaceCodePoints 'U' 8 text
  unescape text

/-- Whether only quotes follow the end of a text, given its parts between quotes. A text
over several lines ends behind two quotes; a part that an open backslash ends is not
looked at. -/
def endsOnce (multi closed : Bool) (quotes : Nat) : List (List Char) → Bool
  | [] => true
  | part :: parts =>
    if part.isEmpty then
      if multi then endsOnce multi closed (quotes + 1) parts
      else endsOnce multi true quotes parts
    else if endsOpen part then endsOnce multi closed quotes parts
    else if closed then false
    else if !multi || 1 < quotes then endsOnce multi true quotes parts
    else endsOnce multi false 0 parts

/-- Takes the quotes away: three at each end when two more follow the first one, and one
otherwise. Two quotes alone hold nothing. -/
def withoutQuotes (quote : Char) (text : List Char) : List Char :=
  match text.drop 1 with
  | second :: rest =>
    if second = quote && (rest.isEmpty || rest.head? = some second) then
      inner (inner (inner text))
    else inner text
  | [] => []

/-- Reads a text that starts with a quote. -/
def readQuoted (quote : Char) (text : List Char) : Except ReadError String := do
  let parts := Text.splitOn quote (text.drop 1)
  let (multi, parts) := match parts with
    | [] :: [] :: parts => (true, parts)
    | parts => (false, parts)
  if !endsOnce multi false 0 parts then throw .malformed
  let text ← if quote = '"' then replaceEscapes text else pure text
  return String.ofList (withoutQuotes quote text)

end CloudGraph.Toml
