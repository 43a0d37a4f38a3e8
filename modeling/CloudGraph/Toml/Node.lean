import CloudGraph.Fault

/-!
# Nodes of a settings file

A settings file is a tree of tables, lists and scalars. `Node.alterAt` changes one node
of it at the end of a path; a table that a path names and that is not there is made on
the way. A table written on one line is kept apart from the others, because the
descriptor has no form for it.
-/

namespace CloudGraph.Toml

/-- Why a settings file cannot be read. -/
inductive ReadError where
  | malformed
  /-- A table is added to something that is not a list. -/
  | notList
  /-- A header or a key goes through something that holds no keys. -/
  | notTable
  /-- A character, an item or a part of a key is looked for and there is none. -/
  | nothingThere
  /-- A code point or a fraction of a second is out of all bounds. -/
  | tooLarge
  /-- A text over several lines is given to a key without a name. -/
  | unnamed

/-- Data of a settings file. -/
inductive Node where
  | scalar (value : Atom)
  | list (items : List Node)
  | table (oneLine : Bool) (entries : List (String × Node))
  deriving Inhabited

/-- A table without entries. -/
def emptyTable : Node := .table false []

namespace Node

/-- Whether two nodes may be items of one list. Dates are of one kind, with and without a
time. -/
def sameKind : Node → Node → Bool
  | .list _, .list _ => true
  | .table _ _, .table _ _ => true
  | .scalar (.text _), .scalar (.text _) => true
  | .scalar (.bool _), .scalar (.bool _) => true
  | .scalar (.int _), .scalar (.int _) => true
  | .scalar (.float _), .scalar (.float _) => true
  | .scalar (.moment (.time _)), .scalar (.moment (.time _)) => true
  | .scalar (.moment (.time _)), .scalar (.moment _) => false
  | .scalar (.moment _), .scalar (.moment (.time _)) => false
  | .scalar (.moment _), .scalar (.moment _) => true
  | _, _ => false

/-- The entry of a table. -/
def find? (entries : List (String × Node)) (name : String) : Option Node :=
  Entries.find? (· == ·) entries name

/-- The entries of a table after setting one. -/
def put (entries : List (String × Node)) (name : String) (node : Node) :
    List (String × Node) :=
  Entries.put (· == ·) entries name node

/-- The entry of a node that is a table. -/
def field? (node : Node) (name : String) : Option Node :=
  match node with
  | .table _ entries => find? entries name
  | _ => none

mutual

/-- The data of a node. -/
def toValue : Node → Value
  | .scalar value => .atom value
  | .list items => .list (itemValues items)
  | .table _ entries => .map (entryValues entries)

/-- `toValue` on the items of a list. -/
def itemValues : List Node → List Value
  | [] => []
  | item :: items => toValue item :: itemValues items

/-- `toValue` on the entries of a table. -/
def entryValues : List (String × Node) → List (Atom × Value)
  | [] => []
  | (name, node) :: entries => (.text name, toValue node) :: entryValues entries

end

mutual

/-- The first reason, in the order of writing, why the descriptor cannot hold a node. -/
def obstacle? : Node → Option Fault
  | .scalar (.moment (.time _)) => some .unwritable
  | .scalar (.moment moment) => if moment.hasText then none else some .badValue
  | .scalar _ => none
  | .list items => itemsObstacle? items
  | .table true _ => some .unwritable
  | .table false entries => entriesObstacle? entries

/-- `obstacle?` on the items of a list. -/
def itemsObstacle? : List Node → Option Fault
  | [] => none
  | item :: items => (obstacle? item).or (itemsObstacle? items)

/-- `obstacle?` on the entries of a table. -/
def entriesObstacle? : List (String × Node) → Option Fault
  | [] => none
  | (_, node) :: entries => (obstacle? node).or (entriesObstacle? entries)

end

mutual

/-- Whether every date and time of a node has a text. -/
def hasText : Node → Bool
  | .scalar (.moment moment) => moment.hasText
  | .scalar _ => true
  | .list items => itemsHaveText items
  | .table _ entries => entriesHaveText entries

/-- `hasText` on the items of a list. -/
def itemsHaveText : List Node → Bool
  | [] => true
  | item :: items => hasText item && itemsHaveText items

/-- `hasText` on the entries of a table. -/
def entriesHaveText : List (String × Node) → Bool
  | [] => true
  | (_, node) :: entries => hasText node && entriesHaveText entries

end

/-- What a header goes on in when it comes to a node: a table itself, and the last item
of a list. A text counts as a list of its characters here. -/
def lastPart : Node → Except ReadError Node
  | .table oneLine entries => .ok (.table oneLine entries)
  | .list items =>
    match items.getLast? with
    | some item => .ok item
    | none => .error .nothingThere
  | .scalar (.text text) =>
    if text.isEmpty then .error .nothingThere else .ok (.scalar (.text text))
  | .scalar _ => .error .notTable

/-- The node after changing its last part. -/
def withLastPart (node part : Node) : Node :=
  match node with
  | .list items => .list (items.dropLast ++ [part])
  | _ => part

end Node

/-- A step from a node to a part of it. -/
inductive Step where
  | entry (name : String)
  | lastPart

/-- Changes the node at the end of a path, and gives what the change has found. -/
def Node.alterAt {α : Type} (change : Node → Except ReadError (Node × α)) :
    List Step → Node → Except ReadError (Node × α)
  | [], node => change node
  | .entry name :: path, .table oneLine entries => do
    let (part, found) ← alterAt change path ((find? entries name).getD emptyTable)
    return (.table oneLine (put entries name part), found)
  | .entry _ :: _, _ => .error .notTable
  | .lastPart :: path, node => do
    let (part, found) ← alterAt change path (← node.lastPart)
    return (node.withLastPart part, found)

end CloudGraph.Toml
