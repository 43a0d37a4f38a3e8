import CloudGraph.Toml.Content
import CloudGraph.Toml.Header

/-!
# Reading settings files

`Toml.read` reads the tables of a settings file line by line. A line is blank, a header,
entries between braces, or a key with its value; every other line is passed over.
-/

namespace CloudGraph.Toml

/-- A settings file on the way. -/
structure Reading where
  document : Document := {}
  /-- The path of the table that entries are added to. -/
  path : List Step := []
  /-- The entry that the next lines go on with. -/
  pending? : Option Pending := none

namespace Reading

/-- Changes the table that entries are added to. -/
def alter (reading : Reading) (change : Node → Except ReadError (Node × Option Pending)) :
    Except ReadError Reading := do
  let (root, pending?) ← reading.document.root.alterAt change reading.path
  return { reading with document := { reading.document with root }, pending? }

/-- Sets the entry of a name, there or not. -/
def setEntry (name : String) (node : Node) : Node → Except ReadError (Node × Option Pending)
  | .table oneLine entries => .ok (.table oneLine (Node.put entries name node), none)
  | _ => .error .notTable

/-- Whether a line ends the value of a pending entry. -/
def ends (text line : List Char) : Except ReadError Bool :=
  if text.head? = some '[' then
    match line.getLast? with
    | some c => .ok (c = ']')
    | none => .error .nothingThere
  else .ok (2 < line.length && (line.reverse.take 3).all (some · == text.head?))

/-- Reads a line of a pending entry. The blanks around it count once the value has a line
end, unless it is joined to the line before. -/
def readPending (reading : Reading) (pending : Pending) (line : List Char) :
    Except ReadError Reading := do
  let trims := pending.joins || !pending.text.contains '\n'
  let line := if trims then Text.trim line else line
  if line.isEmpty && pending.joins then return reading
  let text := pending.text ++ line
  if ← ends text line then
    let value ← readValue true text
    reading.alter (setEntry pending.name value)
  else return { reading with pending? := some (.ofText pending.name text) }

/-- Reads a header. -/
def readHeader (reading : Reading) (line : List Char) : Except ReadError Reading := do
  match Header.ofLine? line with
  | some header =>
    let document ← reading.document.enter header
    return { reading with document, path := Header.path header.adds header.names }
  | none => throw .malformed

/-- Reads a line. -/
def readLine (reading : Reading) (line : List Char) : Except ReadError Reading := do
  match reading.pending? with
  | some pending => reading.readPending pending line
  | none =>
    let line := Text.trim line
    match line with
    | [] => return reading
    | first :: _ =>
      if first = '[' then reading.readHeader line
      else if first = '\x7b' then
        if line.getLast? != some '\x7d' then throw .malformed
        reading.alter fun table => do return (← addFields readValue line table, none)
      else if line.contains '=' then reading.alter (addEntry readValue line)
      else return reading

end Reading

/-- Reads a settings file. -/
def read (text : String) : Except ReadError Node := do
  let reading ← (← lines text.toList).foldlM Reading.readLine {}
  return reading.document.root

end CloudGraph.Toml
