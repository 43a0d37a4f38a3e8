import CloudGraph.Yaml.Node
import CloudGraph.Yaml.Scalar

/-!
# Layout of the descriptor text

Nodes are laid out in block form: an entry or an item a line, nested collections
indented by two, the items of a list under a key at the indentation of the key.
`layoutNode` writes what follows the place where a node starts, and never a line end
after it.
-/

namespace CloudGraph.Yaml

/-- Where a node starts. -/
inductive Place where
  /-- At the start of the text. -/
  | root
  /-- After a key and its colon. -/
  | afterKey
  /-- After the dash of an item. -/
  | afterDash
  /-- After the colon on a line of its own, below a key that did not fit before it. -/
  | afterColon
  deriving DecidableEq

/-- The digits of an anchor's name. -/
def anchorName (anchor : Nat) : List Char :=
  let digits := Nat.toDigits 10 anchor
  'i' :: 'd' :: List.replicate (3 - digits.length) '0' ++ digits

/-- The space between an indicator and a node on the same line. -/
def Place.space : Place → List Char
  | .root => []
  | _ => [' ']

/-- The anchor of a collection, with the space before it. -/
def Place.anchorText (place : Place) : Option Nat → List Char
  | some anchor => place.space ++ '&' :: anchorName anchor
  | none => []

/-- The indentation of a list that starts at a place inside a collection of
indentation `indent`. -/
def Place.listIndent (place : Place) (indent : Nat) (anchored : Bool) : Nat :=
  match place with
  | .root => 0
  | .afterKey => indent
  | .afterDash => indent + 2
  | .afterColon => if anchored then indent else indent + 2

/-- The indentation of a mapping that starts at a place. -/
def Place.mapIndent (place : Place) (indent : Nat) : Nat :=
  match place with
  | .root => 0
  | _ => indent + 2

/-- What stands before the first entry or item of a collection of indentation
`indent`. -/
def Place.opening (place : Place) (indent : Nat) (anchored : Bool) : List Char :=
  if anchored then lineEnd indent
  else
    match place with
    | .root => []
    | .afterKey => lineEnd indent
    | _ => [' ']

/-- The indentation of the further lines of a scalar inside a collection. -/
def Place.scalarIndent (place : Place) (indent : Nat) : Nat :=
  match place with
  | .root => 2
  | _ => indent + 2

/-- Puts the items or entries of a collection of indentation `indent` together, each on
lines of its own. A collection without any stands on the same line, as brackets. -/
def collectionText (place : Place) (anchor : Option Nat) (indent : Nat) (brackets : List Char)
    (parts : List (List Char)) : List Char :=
  place.anchorText anchor ++
    if parts.isEmpty then (if anchor.isSome then [' '] else place.space) ++ brackets
    else place.opening indent anchor.isSome ++ Text.joinWith (lineEnd indent) parts

/-- One entry of a mapping of indentation `indent`; `value` lays out its value from a
place and a column on. A key that does not fit before its colon stands after a question
mark, and the colon starts the next line. -/
def entryText (indent : Nat) (key : Atom) (value : Place → Nat → List Char) : List Char :=
  if isSimpleKey key then
    let written := writeScalar false (indent + 2) indent key
    written ++ ':' :: value .afterKey (indent + written.length + 1)
  else
    '?' :: ' ' :: writeScalar true (indent + 2) (indent + 2) key ++ lineEnd indent ++
      ':' :: value .afterColon (indent + 1)

mutual

/-- Lays out a node that starts at a column, inside a collection of indentation
`indent`. -/
def layoutNode (place : Place) (indent column : Nat) : Node → List Char
  | .scalar scalar =>
    place.space ++
      writeScalar true (place.scalarIndent indent) (column + place.space.length) scalar
  | .alias anchor => place.space ++ '*' :: anchorName anchor
  | .list anchor items =>
    let inner := place.listIndent indent anchor.isSome
    collectionText place anchor inner ['[', ']'] (layoutItems inner items)
  | .map anchor entries =>
    let inner := place.mapIndent indent
    collectionText place anchor inner ['{', '}'] (layoutEntries inner entries)

/-- The texts of the items of a list of indentation `indent`. -/
def layoutItems (indent : Nat) : List Node → List (List Char)
  | [] => []
  | item :: items =>
    ('-' :: layoutNode .afterDash indent (indent + 1) item) :: layoutItems indent items

/-- The texts of the entries of a mapping of indentation `indent`. -/
def layoutEntries (indent : Nat) : List (Atom × Node) → List (List Char)
  | [] => []
  | (key, value) :: entries =>
    entryText indent key (fun place column => layoutNode place indent column value) ::
      layoutEntries indent entries

end

/-- Whether a node is a plain scalar. Such a text is closed by a line of three dots,
since nothing else shows where it ends. -/
def isPlainScalar : Node → Bool
  | .scalar scalar => scalarStyle scalar = .plain
  | _ => false

/-- The text of a value. -/
def textOf (value : Value) : List Char :=
  let node := Node.ofValue value
  layoutNode .root 0 0 node ++ '\n' ::
    (if isPlainScalar node then ['.', '.', '.', '\n'] else [])

end CloudGraph.Yaml
