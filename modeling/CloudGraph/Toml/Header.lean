import CloudGraph.Toml.Quoted

/-!
# Headers of a settings file

A header opens a table, which has to be new unless headers of its parts brought it about,
or adds a table to a list. A header goes on in the last item of a list.
-/

namespace CloudGraph.Toml

/-- A header: the names from outside in, and whether it adds a table to a list. -/
structure Header where
  names : List String
  adds : Bool

/-- The tables read so far, with the names of those that are there only because headers
of their parts named them. -/
structure Document where
  root : Node := emptyTable
  implied : List String := []

namespace Header

/-- Whether a character may stand in the bare name of a table. -/
def isNameChar (c : Char) : Bool :=
  c.isAlphanum || c = '_' || c = '-'

/-- The names of a header, given its parts between points. A name that starts with a quote
goes on until it ends with it. -/
def namesOf? (open? : Option (List Char)) : List (List Char) → Option (List String)
  | [] => if open?.isSome then none else some []
  | part :: parts =>
    let text := match open? with
      | some text => text ++ '.' :: part
      | none => Text.trim part
    if text.head?.any isQuote then
      let name := Text.trim text
      if name.length != 1 && name.head? = name.getLast? then do
        return String.ofList (inner name) :: (← namesOf? none parts)
      else namesOf? (some text) parts
    else if !text.isEmpty && text.all isNameChar then do
      return String.ofList text :: (← namesOf? none parts)
    else none

/-- The header of a line that starts with a bracket. -/
def ofLine? (line : List Char) : Option Header := do
  let adds := (line.drop 1).head? = some '['
  let closing := if adds then [']', ']'] else [']']
  let (text, rest) ← cutOutside? closing (line.drop closing.length)
  if (Text.trim rest).isEmpty then
    return ⟨← namesOf? none (Text.splitOn '.' text), adds⟩
  else none

/-- The part that the last name of a header opens, which is there already. -/
def reopen (adds : Bool) (implied : List String) (name : String) (part : Node) :
    Except ReadError (Node × List String) :=
  if implied.contains name then
    if adds then .error .malformed else .ok (part, implied.erase name)
  else if !adds then .error .malformed
  else
    match part with
    | .list items => .ok (.list (items ++ [emptyTable]), implied)
    | _ => .error .notList

/-- The part that a name of a header stands for in a node. In the last item of a list
nothing is asked about a part that is there already. -/
def partOf (adds last : Bool) (implied : List String) (name : String) (node : Node) :
    Except ReadError (Node × List String) := do
  let fresh := if last && adds then .list [emptyTable] else emptyTable
  match node with
  | .table _ entries =>
    match Node.find? entries name with
    | some part => if last then reopen adds implied name part else return (part, implied)
    | none => return (fresh, if last then implied else implied ++ [name])
  | _ =>
    match ← node.lastPart with
    | .table _ entries => return ((Node.find? entries name).getD fresh, implied)
    | _ => throw .notTable

/-- The path of a header. A header that adds to lists goes into the last item of each. -/
def path (adds : Bool) : List String → List Step
  | [] => []
  | name :: names =>
    .lastPart :: .entry name :: (if adds then [.lastPart] else []) ++ path adds names

/-- Opens the part of a node that the names of a header stand for. -/
def openIn (adds : Bool) (implied : List String) :
    List String → Node → Except ReadError Document
  | [], node => .ok ⟨node, implied⟩
  | name :: names, node => do
    if name.isEmpty then throw .malformed
    let (part, implied) ← partOf adds names.isEmpty implied name node
    let entered ← if adds then part.lastPart else pure part
    let ⟨opened, implied⟩ ← openIn adds implied names entered
    let part := if adds then part.withLastPart opened else opened
    match ← node.lastPart with
    | .table oneLine entries =>
      return ⟨node.withLastPart (.table oneLine (Node.put entries name part)), implied⟩
    | _ => throw .notTable

end Header

/-- Opens the table of a header. -/
def Document.enter (document : Document) (header : Header) : Except ReadError Document :=
  Header.openIn header.adds document.implied header.names document.root

end CloudGraph.Toml
