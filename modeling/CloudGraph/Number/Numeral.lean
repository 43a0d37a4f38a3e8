import CloudGraph.Number.Double
import CloudGraph.Text.Word

/-!
# Numerals

Numbers as people write them: digits of any script, a single underscore between two
digits, blanks around the whole. `Double.ofText?` reads a number with an optional
fraction and exponent, or one of the words for infinity and not-a-number.
-/

namespace CloudGraph

/-- The longest run of digits that is converted to an integer. -/
def maxDigits : Nat := 4300

namespace Numeral

/-- Whether a character is a blank that may stand around a number: any but the separators
of files, groups, records and units. -/
def isBlank (c : Char) : Bool :=
  Text.blank c && !(0x1c ≤ c.toNat && c.toNat ≤ 0x1f)

/-- The number that digits stand for in a base. -/
def valueOf (base : Nat) (digits : List Nat) : Nat :=
  digits.foldl (fun value digit => value * base + digit) 0

/-- Whether a text starts with a decimal digit. -/
def startsWithDigit : List Char → Bool
  | [] => false
  | c :: _ => (Text.digitValue? c).isSome

/-- The decimal digits at the start of a text and what follows them. An underscore
between two digits is passed over. -/
def takeDigits : List Char → List Nat × List Char
  | [] => ([], [])
  | c :: rest =>
    match Text.digitValue? c with
    | none => ([], c :: rest)
    | some digit =>
      match rest with
      | '_' :: more =>
        if startsWithDigit more then
          let (digits, rest) := takeDigits more
          (digit :: digits, rest)
        else ([digit], '_' :: more)
      | more =>
        let (digits, rest) := takeDigits more
        (digit :: digits, rest)

/-- A sign at the start of a text, true for minus, and what follows it. -/
def takeSign : List Char → Bool × List Char
  | '-' :: rest => (true, rest)
  | '+' :: rest => (false, rest)
  | rest => (false, rest)

/-- An integer with its sign. -/
def signed (negative : Bool) (magnitude : Nat) : Int :=
  if negative then -(magnitude : Int) else magnitude

/-- The exponent that fills the rest of a text; an empty text is an exponent of zero. -/
def exponent? : List Char → Option Int
  | [] => some 0
  | e :: rest =>
    if e = 'e' ∨ e = 'E' then
      let (negative, rest) := takeSign rest
      match takeDigits rest with
      | ([], _) => none
      | (digits, []) => some (signed negative (valueOf 10 digits))
      | _ => none
    else none

/-- The digits of a fraction after its point, if there is a point, and what follows. -/
def takeFraction : List Char → List Nat × List Char
  | '.' :: rest => takeDigits rest
  | rest => ([], rest)

/-- The number of an unsigned text. -/
def unsigned? (negative : Bool) (text : List Char) : Option Double :=
  let word := String.ofList (text.map Char.toLower)
  if word = "inf" ∨ word = "infinity" then some (.infinite negative)
  else if word = "nan" then some .nan
  else
    let (whole, rest) := takeDigits text
    let (fraction, rest) := takeFraction rest
    if whole.isEmpty && fraction.isEmpty then none
    else
      (exponent? rest).map fun exponent =>
        .ofDecimal negative (valueOf 10 (whole ++ fraction)) (exponent - fraction.length)

/-- The value of a digit in a base up to sixteen. -/
def digitIn? (base : Nat) (c : Char) : Option Nat :=
  let value? :=
    match Text.digitValue? c with
    | some value => some value
    | none =>
      if 'a' ≤ c ∧ c ≤ 'f' then some (c.toNat - 0x61 + 10)
      else if 'A' ≤ c ∧ c ≤ 'F' then some (c.toNat - 0x41 + 10)
      else none
  value?.filter (· < base)

/-- The number that a whole text stands for in a base. -/
def inBase? (base : Nat) (text : List Char) : Option Nat :=
  if text.isEmpty then none else (text.mapM (digitIn? base)).map (valueOf base)

/-- A decimal digit of any script as an ASCII digit; another character as it is. -/
def asciiDigit (c : Char) : Char :=
  match Text.digitValue? c with
  | some value => Char.ofNat (0x30 + value)
  | none => c

/-- The natural number of a text in ASCII digits: decimal without leading zeros, or in the base that its
first two characters name. -/
def naturalAscii? (text : List Char) : Option Nat :=
  match text with
  | '0' :: 'x' :: digits | '0' :: 'X' :: digits => inBase? 16 digits
  | '0' :: 'o' :: digits | '0' :: 'O' :: digits => inBase? 8 digits
  | '0' :: 'b' :: digits | '0' :: 'B' :: digits => inBase? 2 digits
  | _ =>
    if maxDigits < text.length then none
    else
      (inBase? 10 text).filter fun value =>
        value = 0 || (text.head?.bind Text.digitValue?) != some 0

/-- The natural number of a text, in digits of any script. -/
def natural? (text : List Char) : Option Nat :=
  naturalAscii? (text.map asciiDigit)

/-- The integer that decimal digits stand for, blanks and a sign allowed. Leading zeros
do not count. -/
def decimalInteger? (text : List Char) : Option Int :=
  let (negative, rest) := takeSign (Text.trimWhere isBlank text)
  match takeDigits rest with
  | ([], _) => none
  | (digits, []) =>
    if maxDigits < digits.length then none else some (signed negative (valueOf 10 digits))
  | _ => none

/-- The integer of a text, blanks and a sign allowed. -/
def integer? (text : List Char) : Option Int :=
  let (negative, rest) := takeSign (Text.trimWhere isBlank text)
  (natural? rest).map (signed negative)

end Numeral

/-- The number that a text stands for, blanks and a sign allowed. -/
def Double.ofText? (text : List Char) : Option Double :=
  let (negative, rest) := Numeral.takeSign (Text.trimWhere Numeral.isBlank text)
  Numeral.unsigned? negative rest

end CloudGraph
