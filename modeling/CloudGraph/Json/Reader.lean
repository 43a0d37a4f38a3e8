import CloudGraph.Number.Numeral
import CloudGraph.Value.Basic

/-!
# Reading JSON

`Json.read` reads one JSON value that fills a text. Integers are unbounded, a number
with a fraction or an exponent is a double-precision number, `NaN` and the two
infinities are accepted, and a repeated key keeps its first position and its last
value. A refusal tells its cause and the offset where it was met.
-/

namespace CloudGraph.Json

/-- Why a text is not JSON. -/
inductive Cause where
  | expectedValue
  | expectedName
  | expectedColon
  | expectedComma
  | unterminatedText
  | badEscape
  | badCodePoint
  | controlCharacter
  | extraData
  | byteOrderMark
  deriving DecidableEq

/-- The wording of a cause. -/
def Cause.message : Cause → String
  | .expectedValue => "Expecting value"
  | .expectedName => "Expecting property name enclosed in double quotes"
  | .expectedColon => "Expecting ':' delimiter"
  | .expectedComma => "Expecting ',' delimiter"
  | .unterminatedText => "Unterminated string starting at"
  | .badEscape => "Invalid \\escape"
  | .badCodePoint => "Invalid \\uXXXX escape"
  | .controlCharacter => "Invalid control character at"
  | .extraData => "Extra data"
  | .byteOrderMark => "Unexpected UTF-8 BOM (decode using utf-8-sig)"

/-- Why a text could not be read. -/
inductive ReadError where
  | malformed (cause : Cause) (offset : Nat)
  /-- An integer with more digits than are converted. -/
  | numberTooLong
  deriving DecidableEq

/-- The rest of a text, with the offset where it starts. -/
structure Cursor where
  offset : Nat
  rest : List Char

/-- Whether a character may stand between tokens. -/
def isSpace (c : Char) : Bool :=
  c = ' ' || c = '\t' || c = '\n' || c = '\r'

/-- The cursor after a run of spaces. -/
def Cursor.skipSpace (c : Cursor) : Cursor :=
  let rest := c.rest.dropWhile isSpace
  ⟨c.offset + (c.rest.length - rest.length), rest⟩

/-- The value of a hexadecimal digit. -/
def hexDigit? (c : Char) : Option Nat :=
  if c.isDigit then some (c.toNat - 0x30)
  else if 'a' ≤ c ∧ c ≤ 'f' then some (c.toNat - 0x61 + 10)
  else if 'A' ≤ c ∧ c ≤ 'F' then some (c.toNat - 0x41 + 10)
  else none

/-- The number that four hexadecimal digits stand for. -/
def hexQuad? (a b c d : Char) : Option Nat := do
  let a ← hexDigit? a
  let b ← hexDigit? b
  let c ← hexDigit? c
  let d ← hexDigit? d
  return ((a * 16 + b) * 16 + c) * 16 + d

/-- The character of a code point; half of a surrogate pair has none of its own and
is read as the replacement character. -/
def codePoint (n : Nat) : Char :=
  if 0xd800 ≤ n ∧ n ≤ 0xdfff then '\ufffd' else Char.ofNat n

/-- The character that an escape letter stands for. -/
def escaped? : Char → Option Char
  | '"' => some '"'
  | '\\' => some '\\'
  | '/' => some '/'
  | 'b' => some '\x08'
  | 'f' => some '\x0c'
  | 'n' => some '\n'
  | 'r' => some '\r'
  | 't' => some '\t'
  | _ => none

/-- Whether a code point is the first half of a surrogate pair. -/
def isHighHalf (n : Nat) : Bool := 0xd800 ≤ n && n ≤ 0xdbff

/-- Whether a code point is the second half of a surrogate pair. -/
def isLowHalf (n : Nat) : Bool := 0xdc00 ≤ n && n ≤ 0xdfff

/-- The code point of an escape that stands first in a text and has a character
after it: nothing when there is no such escape, or none for bad digits. -/
def nextEscape? : List Char → Option (Option Nat)
  | '\\' :: 'u' :: a :: b :: c :: d :: _ :: _ => some (hexQuad? a b c d)
  | _ => none

/-- Reads the rest of a text literal. `start` is the offset of its opening quote,
`read` what was read so far, last character first. -/
def readText (start offset : Nat) (rest read : List Char) :
    Except ReadError (String × Cursor) :=
  match rest with
  | [] => .error (.malformed .unterminatedText start)
  | ['\\'] => .error (.malformed .unterminatedText start)
  | '\\' :: 'u' :: a :: b :: c :: d :: next :: rest =>
    match hexQuad? a b c d with
    | none => .error (.malformed .badCodePoint (offset + 1))
    | some first =>
      if isHighHalf first then
        match nextEscape? (next :: rest) with
        | some none => .error (.malformed .badCodePoint (offset + 7))
        | some (some second) =>
          if isLowHalf second then
            let joined := Char.ofNat (0x10000 + (first - 0xd800) * 0x400 + (second - 0xdc00))
            readText start (offset + 12) ((next :: rest).drop 6) (joined :: read)
          else readText start (offset + 6) (next :: rest) (codePoint first :: read)
        | none => readText start (offset + 6) (next :: rest) (codePoint first :: read)
      else readText start (offset + 6) (next :: rest) (codePoint first :: read)
  | '\\' :: 'u' :: _ => .error (.malformed .badCodePoint (offset + 1))
  | '\\' :: letter :: rest =>
    match escaped? letter with
    | none => .error (.malformed .badEscape offset)
    | some c => readText start (offset + 2) rest (c :: read)
  | '"' :: rest => .ok (String.ofList read.reverse, ⟨offset + 1, rest⟩)
  | c :: rest =>
    if c.toNat ≤ 0x1f then .error (.malformed .controlCharacter offset)
    else readText start (offset + 1) rest (c :: read)
termination_by rest.length
decreasing_by all_goals (simp; try omega)

/-- The number that decimal digits stand for. -/
def digitsValue (digits : List Char) : Nat :=
  digits.foldl (fun value c => value * 10 + (c.toNat - 0x30)) 0

/-- The fraction after the whole digits, if there is one. -/
def fraction (rest : List Char) : List Char :=
  match rest with
  | '.' :: rest => rest.takeWhile Char.isDigit
  | _ => []

/-- The sign and digits of an exponent, with the count of characters it takes. -/
def exponent? (rest : List Char) : Option (Bool × List Char × Nat) :=
  match rest with
  | e :: rest =>
    if e = 'e' ∨ e = 'E' then
      let (negative, signs, rest) :=
        match rest with
        | '-' :: rest => (true, 1, rest)
        | '+' :: rest => (false, 1, rest)
        | rest => (false, 0, rest)
      let digits := rest.takeWhile Char.isDigit
      if digits.isEmpty then none else some (negative, digits, 1 + signs + digits.length)
    else none
  | [] => none

/-- Reads a number; a zero takes no further whole digits. -/
def readNumber (c : Cursor) : Except ReadError (Atom × Cursor) :=
  let (negative, unsigned) :=
    match c.rest with
    | '-' :: rest => (true, rest)
    | rest => (false, rest)
  let whole :=
    match unsigned with
    | '0' :: _ => ['0']
    | rest => rest.takeWhile Char.isDigit
  if whole.isEmpty then .error (.malformed .expectedValue c.offset)
  else
    let afterWhole := unsigned.drop whole.length
    let places := fraction afterWhole
    let pointed := if places.isEmpty then 0 else places.length + 1
    let afterPoint := afterWhole.drop pointed
    let power := exponent? afterPoint
    let powered := match power with
      | some (_, _, length) => length
      | none => 0
    let length := (if negative then 1 else 0) + whole.length + pointed + powered
    let next : Cursor := ⟨c.offset + length, c.rest.drop length⟩
    if places.isEmpty && power.isNone then
      if maxDigits < whole.length then .error .numberTooLong
      else
        let magnitude : Int := digitsValue whole
        .ok (.int (if negative then -magnitude else magnitude), next)
    else
      let scale : Int := match power with
        | some (below, digits, _) =>
          let magnitude : Int := digitsValue digits
          if below then -magnitude else magnitude
        | none => 0
      let digits := digitsValue (whole ++ places)
      .ok (.float (.ofDecimal negative digits (scale - places.length)), next)

/-- Reads a scalar that is not a text. -/
def readScalar (c : Cursor) : Except ReadError (Atom × Cursor) :=
  let word (text : String) (scalar : Atom)
      (otherwise : Unit → Except ReadError (Atom × Cursor)) :=
    if text.toList.isPrefixOf c.rest then
      .ok (scalar, ⟨c.offset + text.length, c.rest.drop text.length⟩)
    else otherwise ()
  word "null" .null fun _ =>
  word "true" (.bool true) fun _ =>
  word "false" (.bool false) fun _ =>
  word "NaN" (.float .nan) fun _ =>
  word "Infinity" (.float (.infinite false)) fun _ =>
  word "-Infinity" (.float (.infinite true)) fun _ =>
  readNumber c

mutual

/-- Reads one value. Each nested call spends one unit of fuel, and every one of them
has consumed a character, so a text's length is always enough. -/
def readValue (fuel : Nat) (c : Cursor) : Except ReadError (Value × Cursor) :=
  match fuel with
  | 0 => .error (.malformed .expectedValue c.offset)
  | fuel + 1 =>
    match c.rest with
    | '"' :: rest => do
      let (text, next) ← readText c.offset (c.offset + 1) rest []
      return (.text text, next)
    | '{' :: rest =>
      let next := Cursor.skipSpace ⟨c.offset + 1, rest⟩
      match next.rest with
      | '}' :: rest => .ok (.map [], ⟨next.offset + 1, rest⟩)
      | _ => readFields fuel next []
    | '[' :: rest =>
      let next := Cursor.skipSpace ⟨c.offset + 1, rest⟩
      match next.rest with
      | ']' :: rest => .ok (.list [], ⟨next.offset + 1, rest⟩)
      | _ => readItems fuel next []
    | _ => do
      let (scalar, next) ← readScalar c
      return (.atom scalar, next)

/-- Reads the rest of a list from one of its items on. -/
def readItems (fuel : Nat) (c : Cursor) (read : List Value) : Except ReadError (Value × Cursor) :=
  match fuel with
  | 0 => .error (.malformed .expectedValue c.offset)
  | fuel + 1 => do
    let (item, next) ← readValue fuel c
    let next := next.skipSpace
    match next.rest with
    | ']' :: rest => .ok (.list (item :: read).reverse, ⟨next.offset + 1, rest⟩)
    | ',' :: rest => readItems fuel (Cursor.skipSpace ⟨next.offset + 1, rest⟩) (item :: read)
    | _ => .error (.malformed .expectedComma next.offset)

/-- Reads the rest of an object from one of its keys on. -/
def readFields (fuel : Nat) (c : Cursor) (read : List (Atom × Value)) :
    Except ReadError (Value × Cursor) :=
  match fuel with
  | 0 => .error (.malformed .expectedValue c.offset)
  | fuel + 1 =>
    match c.rest with
    | '"' :: rest => do
      let (key, next) ← readText c.offset (c.offset + 1) rest []
      let next := next.skipSpace
      match next.rest with
      | ':' :: rest =>
        let (value, next) ← readValue fuel (Cursor.skipSpace ⟨next.offset + 1, rest⟩)
        let next := next.skipSpace
        let read := (.text key, value) :: read
        match next.rest with
        | '}' :: rest =>
          .ok (.map (Entries.ofPairs Atom.same read.reverse), ⟨next.offset + 1, rest⟩)
        | ',' :: rest => readFields fuel (Cursor.skipSpace ⟨next.offset + 1, rest⟩) read
        | _ => .error (.malformed .expectedComma next.offset)
      | _ => .error (.malformed .expectedColon next.offset)
    | _ => .error (.malformed .expectedName c.offset)

end

/-- Reads the one value that a text holds. -/
def read (text : String) : Except ReadError Value := do
  let chars := text.toList
  if chars.head? = some '\ufeff' then
    throw (.malformed .byteOrderMark 0)
  let (value, next) ← readValue (2 * chars.length + 2) (Cursor.skipSpace ⟨0, chars⟩)
  let next := next.skipSpace
  if next.rest.isEmpty then return value else throw (.malformed .extraData next.offset)

/-- A cause with its place in the text: line and column count from one. -/
def describe (text : String) (cause : Cause) (offset : Nat) : String :=
  let before := text.toList.take offset
  let line := before.count '\n' + 1
  let column := (before.reverse.takeWhile (· != '\n')).length + 1
  cause.message ++ ": line " ++ toString line ++ " column " ++ toString column ++ " (char " ++
    toString offset ++ ")"

end CloudGraph.Json
