import CloudGraph.Number.Decimal
import CloudGraph.Value.Moment

/-!
# Data values

The tree-shaped data that models, settings and the deployment descriptor are made
of. A mapping keeps its keys in order of insertion: `Entries.put` on a key that is
already there keeps the first key and its position and replaces the value.

`Value.shared` marks a part of the descriptor that is one object wherever it
appears. Its content is `Shared.value`, so every occurrence has the same value by
construction, and `Value.expand` replaces all marks by their contents.
-/

namespace CloudGraph

/-- A scalar. -/
inductive Atom where
  | null
  | bool (value : Bool)
  | int (value : Int)
  | float (value : Double)
  | text (value : String)
  | moment (value : Moment)
  deriving DecidableEq, Inhabited

namespace Atom

/-- The integer that a scalar is as a key; the truth values count as one and zero. -/
def int? : Atom → Option Int
  | .bool value => some (if value then 1 else 0)
  | .int value => some value
  | .float value => value.toInt?
  | _ => none

/-- Whether two scalars are the same key: numbers by value, texts by content. -/
def same : Atom → Atom → Bool
  | .text a, .text b => a == b
  | .null, .null => true
  | .float a, .float b => a.same b
  | .moment a, .moment b => a == b
  | a, b =>
    match a.int?, b.int? with
    | some x, some y => x == y
    | _, _ => false

@[simp]
theorem same_text (a b : String) : Atom.same (.text a) (.text b) = (a == b) := rfl

end Atom

/-- Pairs of keys and values in order of insertion. -/
abbrev Entries (κ α : Type) := List (κ × α)

namespace Entries

variable {κ α : Type}

/-- The value of the first entry whose key is the same as `key`. -/
def find? (same : κ → κ → Bool) (entries : Entries κ α) (key : κ) : Option α :=
  (List.find? (fun entry => same entry.1 key) entries).map (·.2)

/-- Sets the value of a key. A key that is already there keeps its position. -/
def put (same : κ → κ → Bool) (entries : Entries κ α) (key : κ) (value : α) : Entries κ α :=
  match entries with
  | [] => [(key, value)]
  | (k, old) :: rest =>
    if same k key then (k, value) :: rest else (k, old) :: put same rest key value

/-- The entries after setting each pair in turn. -/
def ofPairs (same : κ → κ → Bool) (pairs : List (κ × α)) : Entries κ α :=
  pairs.foldl (fun entries pair => put same entries pair.1 pair.2) []

/-- The keys, in order. -/
def keys (entries : Entries κ α) : List κ :=
  entries.map (·.1)

end Entries

/-- The parts of the descriptor that are one object wherever they appear. -/
inductive Shared where
  /-- The region that the descriptor is deployed to. -/
  | region
  /-- The account that the descriptor is deployed to. -/
  | accountId
  /-- The actions of a delivery stream on its bucket. -/
  | bucketActions
  /-- The reference to the role of an analytics application. -/
  | roleArn (role : String)
  deriving DecidableEq, Inhabited

/-- Tree-shaped data. -/
inductive Value where
  | atom (scalar : Atom)
  | list (items : List Value)
  | map (entries : List (Atom × Value))
  | shared (part : Shared)
  deriving Inhabited

namespace Value

/-- A text. -/
@[match_pattern]
abbrev text (value : String) : Value := .atom (.text value)

/-- An integer. -/
@[match_pattern]
abbrev int (value : Int) : Value := .atom (.int value)

/-- A truth value. -/
@[match_pattern]
abbrev bool (value : Bool) : Value := .atom (.bool value)

/-- The null value. -/
@[match_pattern]
abbrev null : Value := .atom .null

/-- A mapping from texts. -/
def record (fields : List (String × Value)) : Value :=
  .map (fields.map fun field => (.text field.1, field.2))

/-- A list of texts. -/
def texts (items : List String) : Value :=
  .list (items.map .text)

end Value

/-- The content of a shared part. -/
def Shared.value : Shared → Value
  | .region => .record [("Ref", .text "AWS::Region")]
  | .accountId => .record [("Ref", .text "AWS::AccountId")]
  | .bucketActions => .texts [
      "s3:AbortMultipartUpload",
      "s3:GetBucketLocation",
      "s3:GetObject",
      "s3:ListBucket",
      "s3:ListBucketMultipartUploads",
      "s3:PutObject"]
  | .roleArn role => .record [("Fn::GetAtt", .texts [role, "Arn"])]

namespace Value

mutual

/-- The value with every shared part replaced by its content. -/
def expand : Value → Value
  | .atom scalar => .atom scalar
  | .list items => .list (expandItems items)
  | .map entries => .map (expandEntries entries)
  | .shared part => part.value

/-- `expand` on the items of a list. -/
def expandItems : List Value → List Value
  | [] => []
  | item :: items => expand item :: expandItems items

/-- `expand` on the entries of a mapping. -/
def expandEntries : List (Atom × Value) → List (Atom × Value)
  | [] => []
  | (key, value) :: entries => (key, expand value) :: expandEntries entries

end

/-- Whether the value counts as present: not null, false, zero or empty. -/
def truthy : Value → Bool
  | .atom .null => false
  | .atom (.bool value) => value
  | .atom (.int value) => value != 0
  | .atom (.float value) => !value.isZero
  | .atom (.text value) => !value.isEmpty
  | .atom (.moment _) => true
  | .list items => !items.isEmpty
  | .map entries => !entries.isEmpty
  | .shared _ => true

/-- The value of a text key of a mapping. -/
def field? (value : Value) (name : String) : Option Value :=
  match value with
  | .map entries => Entries.find? Atom.same entries (.text name)
  | _ => none

/-- The elements that a value gives when it is gone through: the items of a list,
the keys of a mapping, the characters of a text. -/
def elements? : Value → Option (List Value)
  | .list items => some items
  | .map entries => some (entries.map fun entry => .atom entry.1)
  | .atom (.text value) => some (value.toList.map fun c => .text (String.singleton c))
  | .shared part =>
    match part.value with
    | .list items => some items
    | .map entries => some (entries.map fun entry => .atom entry.1)
    | _ => none
  | .atom _ => none

end Value

end CloudGraph
