import CloudGraph.Text.Lines
import CloudGraph.Toml.Node

/-!
# Quoted pieces of a line

`pieces` divides a line into pieces that stand outside quotes and between quotes by turns.
`cutOutside` looks for the first separator outside quotes.
-/

namespace CloudGraph.Toml

/-- A text without its first and its last character. -/
def inner (text : List Char) : List Char :=
  (text.drop 1).dropLast

/-- Takes further parts between double quotes into pieces between single quotes while a
single quote is open, that is, while their number is even. -/
def closeSingle (read : List (List Char)) :
    List (List Char) → List (List Char) × List (List Char)
  | [] => (read, [])
  | part :: parts =>
    if read.length % 2 = 0 then
      let last := read.getLastD [] ++ '"' :: part
      closeSingle (read.dropLast ++ Text.splitOn '\'' last) parts
    else (read, part :: parts)

/-- The pieces of a text outside and between quotes by turns, the first one outside. Single
quotes divide it up to the first double quote that they do not enclose; from there on only
double quotes do. -/
def pieces (text : List Char) : List (List Char) :=
  let parts := Text.splitOn '"' text
  let first := parts.headD []
  let (opening, parts) :=
    if 1 < parts.length && first.contains '\'' then
      closeSingle (Text.splitOn '\'' first) (parts.drop 1)
    else ([], parts)
  match parts with
  | [] => opening
  | part :: parts => opening ++ Text.splitOn '\'' part ++ parts

/-- The number of separators up to the first one outside quotes. -/
def rankOutside (separator : List Char) (between : Bool) : List (List Char) → Nat
  | [] => 1
  | piece :: pieces =>
    let count := (Text.splitOnText separator piece).length - 1
    if !between && 0 < count then 1
    else count + rankOutside separator (!between) pieces

/-- What stands before and after the separator of a rank. -/
def cutAt? (separator : List Char) (rank : Nat) (text : List Char) :
    Option (List Char × List Char) :=
  let parts := Text.splitOnText separator text
  if parts.length ≤ rank then none
  else
    some (Text.joinWith separator (parts.take rank), Text.joinWith separator (parts.drop rank))

/-- What stands before and after the first separator outside quotes. -/
def cutOutside? (separator text : List Char) : Option (List Char × List Char) :=
  cutAt? separator (rankOutside separator false (pieces text)) text

end CloudGraph.Toml
