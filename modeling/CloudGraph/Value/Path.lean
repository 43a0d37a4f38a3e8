import CloudGraph.Fault
import CloudGraph.Text.Lines

/-!
# Parts of a value

Reading and changing a value at a path of keys. `Value.item` reads one part,
`Value.withItem` replaces one, and `Value.modifyAt` changes the part at the end of a
path and nothing else. A mapping takes any scalar as a key; a list takes an integer, and
a negative one counts from the end.
-/

namespace CloudGraph

/-- The integer that a key is as an index of a list. -/
def Atom.index? : Atom → Option Int
  | .bool value => some (if value then 1 else 0)
  | .int value => some value
  | _ => none

/-- The position that an index stands for in a list of a given length. -/
def position? (length : Nat) (index : Int) : Option Nat :=
  let position := if index < 0 then index + length else index
  if 0 ≤ position ∧ position < length then some position.toNat else none

namespace Value

/-- The value itself, or what a shared part holds. -/
def content : Value → Value
  | .shared part => part.value
  | value => value

/-- The part of a value at a key. -/
def item (value : Value) (key : Atom) : Except Fault Value :=
  match value.content with
  | .map entries =>
    match Entries.find? Atom.same entries key with
    | some found => .ok found
    | none => .error (.missingKey key)
  | .list items =>
    match key.index? with
    | none => .error .wrongKind
    | some index =>
      match (position? items.length index).bind (items[·]?) with
      | some found => .ok found
      | none => .error .outOfRange
  | .atom (.text letters) =>
    match key.index? with
    | none => .error .wrongKind
    | some index =>
      match (position? letters.length index).bind (letters.toList[·]?) with
      | some found => .ok (.text (String.singleton found))
      | none => .error .outOfRange
  | _ => .error .wrongKind

/-- The value with its part at a key replaced. -/
def withItem (value : Value) (key : Atom) (part : Value) : Except Fault Value :=
  match value.content with
  | .map entries => .ok (.map (Entries.put Atom.same entries key part))
  | .list items =>
    match key.index? with
    | none => .error .wrongKind
    | some index =>
      match position? items.length index with
      | some position => .ok (.list (items.set position part))
      | none => .error .outOfRange
  | _ => .error .wrongKind

/-- The part of a value at the end of a path. -/
def itemAt (value : Value) : List Atom → Except Fault Value
  | [] => .ok value
  | key :: path => do (← value.item key).itemAt path

/-- Changes the part of a value at the end of a path. -/
def modifyAt (change : Value → Except Fault Value) (value : Value) :
    List Atom → Except Fault Value
  | [] => change value
  | key :: path => do
    let part ← value.item key
    let changed ← modifyAt change part path
    value.withItem key changed

/-- The value with a default for a key that is not there. -/
def withDefault (value : Value) (key : Atom) (part : Value) : Except Fault Value :=
  match value.content with
  | .map entries =>
    match Entries.find? Atom.same entries key with
    | some _ => .ok (.map entries)
    | none => .ok (.map (Entries.put Atom.same entries key part))
  | _ => .error .noSuchOperation

/-- The list with an item at its end. -/
def appended (value item : Value) : Except Fault Value :=
  match value.content with
  | .list items => .ok (.list (items ++ [item]))
  | _ => .error .noSuchOperation

/-- Whether a text is one of the elements of a value; inside a text, whether it is a
part of it. -/
def holdsText (wanted : String) (value : Value) : Except Fault Bool :=
  let isText : Value → Bool
    | .atom (.text other) => other == wanted
    | _ => false
  match value.content with
  | .list items => .ok (items.any isText)
  | .map entries => .ok (entries.any fun entry => isText (.atom entry.1))
  | .atom (.text other) => .ok (Text.hasPart wanted.toList other.toList)
  | _ => .error .wrongKind

/-- The list with a text at its end, unless it holds the text already. -/
def including (wanted : String) (value : Value) : Except Fault Value := do
  if ← value.holdsText wanted then return value else value.appended (.text wanted)

/-- The number of elements of a value. -/
def size (value : Value) : Except Fault Nat :=
  match value.elements? with
  | some elements => .ok elements.length
  | none => .error .wrongKind

end Value

end CloudGraph
