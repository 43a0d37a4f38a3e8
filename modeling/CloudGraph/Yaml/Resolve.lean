import CloudGraph.Text.Lines

/-!
# Texts that read as something else

A plain scalar is read by its form: `yes` is a truth value, `0x1F` a number,
`2012-10-17` a day. `Yaml.readsAsOther` tells the texts that a reader would not take
for a text, which therefore have to be quoted.
-/

namespace CloudGraph.Yaml

/-- The words for truth values, for null, for merging and for the default value. -/
def reservedWords : List String :=
  ["yes", "Yes", "YES", "no", "No", "NO", "true", "True", "TRUE", "false", "False", "FALSE",
    "on", "On", "ON", "off", "Off", "OFF", "~", "null", "Null", "NULL", "", "<<", "=",
    "!", "&", "*"]

/-- Drops one sign. -/
def unsigned : List Char → List Char
  | '-' :: rest => rest
  | '+' :: rest => rest
  | rest => rest

/-- Whether a character may stand inside a decimal number. -/
def digitOrBar (c : Char) : Bool := c.isDigit || c = '_'

/-- A run of digits and bars that starts with a digit of the given class. -/
def startsDigit (first : Char → Bool) : List Char → Bool
  | c :: rest => first c && rest.all digitOrBar
  | [] => false

/-- A nonempty run of characters of one class. -/
def oneOrMore (class? : Char → Bool) (text : List Char) : Bool :=
  !text.isEmpty && text.all class?

/-- One group of a number in base sixty. -/
def sixtieth : List Char → Bool
  | [a] => a.isDigit
  | [a, b] => '0' ≤ a && a ≤ '5' && b.isDigit
  | _ => false

/-- A number in base sixty, at least two groups separated by colons. -/
def baseSixty (first : Char → Bool) (text : List Char) : Bool :=
  match Text.splitOn ':' text with
  | lead :: groups => startsDigit first lead && !groups.isEmpty && groups.all sixtieth
  | [] => false

/-- Whether a digit is not a zero. -/
def nonzeroDigit (c : Char) : Bool := c.isDigit && c ≠ '0'

/-- Whether a character may stand inside a hexadecimal number. -/
def hexOrBar (c : Char) : Bool :=
  digitOrBar c || ('a' ≤ c && c ≤ 'f') || ('A' ≤ c && c ≤ 'F')

/-- Whether a text reads as an integer: binary, octal, decimal, hexadecimal or in
base sixty. -/
def isInteger (text : List Char) : Bool :=
  let body := unsigned text
  let based := match body with
    | '0' :: 'b' :: rest => oneOrMore (fun c => c = '0' || c = '1' || c = '_') rest
    | '0' :: 'x' :: rest => oneOrMore hexOrBar rest
    | ['0'] => true
    | '0' :: rest => oneOrMore (fun c => ('0' ≤ c && c ≤ '7') || c = '_') rest
    | _ => false
  based || startsDigit nonzeroDigit body || baseSixty nonzeroDigit body

/-- Whether a text is empty or an exponent with a sign. -/
def optionalExponent : List Char → Bool
  | [] => true
  | e :: sign :: digits =>
    (e = 'e' || e = 'E') && (sign = '-' || sign = '+') && oneOrMore Char.isDigit digits
  | _ => false

/-- Whether a text reads as a number with a fraction, as infinite or as no number. -/
def isFloat (text : List Char) : Bool :=
  let body := unsigned text
  let whole := body.takeWhile (· ≠ '.')
  match body.drop whole.length with
  | '.' :: rest =>
    let places := rest.takeWhile digitOrBar
    let after := rest.drop places.length
    (startsDigit Char.isDigit whole && optionalExponent after) ||
      (text = body && whole.isEmpty && startsDigit Char.isDigit places && optionalExponent after) ||
      (baseSixty Char.isDigit whole && after.isEmpty) ||
      (whole.isEmpty && ["inf", "Inf", "INF"].contains (String.ofList rest)) ||
      (text = body && whole.isEmpty && ["nan", "NaN", "NAN"].contains (String.ofList rest))
  | _ => false

/-- Drops between `least` and `least + extra` digits, as many as there are. -/
def dropDigits? (least extra : Nat) (text : List Char) : Option (List Char) :=
  let found := ((text.take (least + extra)).takeWhile Char.isDigit).length
  if found < least then none else some (text.drop found)

/-- Drops one character. -/
def dropChar? (c : Char) : List Char → Option (List Char)
  | d :: rest => if c = d then some rest else none
  | [] => none

/-- Whether a character may stand between the parts of a time. -/
def spaceOrTab (c : Char) : Bool := c = ' ' || c = '\t'

/-- Whether a text is empty or an offset from universal time, after blanks. -/
def optionalOffset (text : List Char) : Bool :=
  match text.dropWhile spaceOrTab with
  | [] => text.isEmpty
  | ['Z'] => true
  | sign :: rest =>
    (sign = '-' || sign = '+') &&
      match dropDigits? 1 1 rest with
      | some [] => true
      | some (':' :: rest) => dropDigits? 2 0 rest = some []
      | _ => false

/-- Drops the separator between a day and a time. -/
def dropDayEnd? : List Char → Option (List Char)
  | 'T' :: rest => some rest
  | 't' :: rest => some rest
  | c :: rest => if spaceOrTab c then some (rest.dropWhile spaceOrTab) else none
  | [] => none

/-- Drops a fraction of a second. -/
def dropFraction : List Char → List Char
  | '.' :: rest => rest.dropWhile Char.isDigit
  | rest => rest

/-- Whether a text reads as a day or as a day with a time. -/
def isTimestamp (text : List Char) : Bool :=
  let day := do
    let rest ← dropDigits? 4 0 text >>= dropChar? '-'
    let rest ← dropDigits? 2 0 rest >>= dropChar? '-'
    dropDigits? 2 0 rest
  let time := do
    let rest ← dropDigits? 4 0 text >>= dropChar? '-'
    let rest ← dropDigits? 1 1 rest >>= dropChar? '-'
    let rest ← dropDigits? 1 1 rest >>= dropDayEnd?
    let rest ← dropDigits? 1 1 rest >>= dropChar? ':'
    let rest ← dropDigits? 2 0 rest >>= dropChar? ':'
    let rest ← dropDigits? 2 0 rest
    return dropFraction rest
  day = some [] || (time.map optionalOffset).getD false

/-- Whether a plain scalar with this text would not be read as a text. -/
def readsAsOther (text : List Char) : Bool :=
  reservedWords.contains (String.ofList text) || isInteger text || isFloat text ||
    isTimestamp text

end CloudGraph.Yaml
