import CloudGraph.Fault
import CloudGraph.Number.Numeral
import CloudGraph.Text.Lines
import CloudGraph.Text.Width
import CloudGraph.Text.Wrap
import CloudGraph.Value.Display

/-!
# Tables

A table is a header over rows of cells, in columns that are as wide as their widest
cell. A cell that reads as a number is written in a common form for numbers. A table
that is too wide gives every column its share of the width and wraps the cells.
-/

namespace CloudGraph.Table

/-- The greatest width of a table. -/
def maxWidth : Nat := 120

/-- The columns between two cells. -/
def gap : Nat := 3

/-- The decimal places of a number in a cell. -/
def places : Nat := 3

/-- The magnitude above which a number is written with an exponent. -/
def largest : Nat := 100000000

/-- The number that a cell stands for, if it is one. -/
def number? : Value → Except Fault (Option Double)
  | .atom (.bool _) => .ok none
  | .atom (.int value) =>
    match Double.ofInt value with
    | .infinite _ => .error .overflow
    | number => .ok (some number)
  | .atom (.float value) => .ok (some value)
  | .atom (.text text) => .ok (Double.ofText? text.toList)
  | _ => .ok none

/-- The text of a cell: a large number with an exponent, a whole number without a point,
any other number with three places, and everything else as it is. -/
def cellText (cell : Value) : Except Fault String := do
  match ← number? cell with
  | none => return cell.plain
  | some number =>
    if number.exceeds largest then return number.scientific places
    else if number = .nan then return cell.plain
    else
      match number.toInt? with
      | some whole => return toString whole
      | none => return number.fixed places

/-- The columns that a line takes up, a tab reaching to the next multiple of eight. -/
def lineWidth (line : List Char) : Nat :=
  match Text.splitOn '\t' line with
  | [] => 0
  | part :: parts =>
    parts.foldl (fun width part => (width / 8 + 1) * 8 + Text.columns part) (Text.columns part)

/-- The columns that a cell takes up. -/
def cellWidth (cell : List Char) : Nat :=
  ((Text.splitOn '\n' cell).map lineWidth).foldl max 0

/-- The greater of two widths in every column. -/
def widest : List Nat → List Nat → List Nat
  | [], others => others
  | widths, [] => widths
  | width :: widths, other :: others => max width other :: widest widths others

/-- Gives out columns one at a time, in rounds, to those that want more; nothing is given
beyond what is available. -/
def share (fuel available : Nat) (widths wanted : List Nat) : List Nat :=
  match fuel with
  | 0 => widths
  | fuel + 1 =>
    if available = 0 then widths
    else
      let give : Nat × List Nat → Nat × Nat → Nat × List Nat :=
        fun (left, given) (has, wants) =>
          if has < wants ∧ 0 < left then (left - 1, given ++ [has + 1])
          else (left, given ++ [has])
      let (left, given) := (widths.zip wanted).foldl give (available, [])
      share fuel left given wanted

/-- The widths of the columns, given those of their widest cells. -/
def fit (wanted : List Nat) : Except Fault (List Nat) :=
  let between := gap * (wanted.length - 1)
  if wanted.foldr (· + ·) between ≤ maxWidth then .ok wanted
  else if maxWidth < wanted.length + between then .error .badValue
  else
    let available := maxWidth - between
    .ok (share available available (wanted.map fun _ => 0) wanted)

/-- The lines of a cell in a column of some width. -/
def cellLines (width : Nat) (cell : List Char) : Except Fault (List (List Char)) := do
  let parts ← (Text.splitOn '\n' cell).mapM fun part =>
    if Text.isSpaces part then pure [[]]
    else if width = 0 then throw .badValue
    else pure (Text.wrap width part)
  return parts.flatten

/-- How a cell stands in its column. -/
inductive Align where
  | left
  | centre

/-- A line of a cell, filled with spaces up to the width of its column. -/
def pad (align : Align) (width : Nat) (line : List Char) : List Char :=
  let room := width - Text.columns line
  let spaces (count : Nat) := List.replicate count ' '
  match align with
  | .left => line ++ spaces room
  | .centre => spaces (room / 2) ++ line ++ spaces (room - room / 2)

/-- The lines of a row. -/
def rowLines (align : Align) (widths : List Nat) (row : List (List Char)) :
    Except Fault (List (List Char)) := do
  if row.isEmpty then throw .wrongKind
  let cells ← (row.zip widths).mapM fun (cell, width) => do
    return (width, ← cellLines width cell)
  let height := (cells.map fun cell => cell.2.length).foldl max 0
  let line (index : Nat) : List Char :=
    Text.joinWith (List.replicate gap ' ')
      (cells.map fun (width, lines) => pad align width ((lines[index]?).getD []))
  return (List.range height).map line

/-- The line under the header. -/
def rule (widths : List Nat) : List Char :=
  Text.joinWith (List.replicate gap '=') (widths.map (List.replicate · '='))

/-- The number of cells that a row counts as having. A text counts its columns. -/
def rowSize : Value → Except Fault Nat
  | .atom (.text text) => .ok (Text.columns text.toList)
  | row =>
    match row.elements? with
    | some cells => .ok cells.length
    | none => .error .noSuchOperation

/-- The cells of a row. -/
def rowCells (row : Value) : Except Fault (List Value) :=
  match row.elements? with
  | some cells => .ok cells
  | none => .error .wrongKind

/-- The texts of the rows, given the number of cells that each has to have, where zero
leaves it open. The first row fixes how many columns there are. -/
def rowTexts (size : Nat) (columns? : Option Nat) :
    List Value → Except Fault (List (List (List Char)))
  | [] => .ok []
  | row :: rows => do
    let own ← rowSize row
    if size ≠ 0 ∧ size ≠ own then throw .unevenRow
    let columns := columns?.getD own
    let cells ← rowCells row
    let texts ← (cells.take columns).mapM cellText
    if columns < cells.length then throw .outOfRange
    let rest ← rowTexts own columns rows
    return texts.map String.toList :: rest

/-- The lines of the header, if there is one. -/
def headLines (widths : List Nat) (titles : List (List Char)) :
    Except Fault (List (List Char)) := do
  if titles.isEmpty then return []
  else return (← rowLines .centre widths titles) ++ [rule widths]

/-- Draws a table; a table without a header and without rows has no text. -/
def draw (header : Value) (rows : List Value) : Except Fault (Option String) := do
  let size ← rowSize header
  let titles := (← rowCells header).map fun cell => cell.plain.toList
  let body ← rowTexts size none rows
  if titles.isEmpty && body.isEmpty then return none
  let widths ← fit (((titles :: body).map (·.map cellWidth)).foldl widest [])
  let head ← headLines widths titles
  let lines ← body.mapM (rowLines .left widths)
  return some (String.ofList (Text.joinWith ['\n'] (head ++ lines.flatten)))

end CloudGraph.Table
