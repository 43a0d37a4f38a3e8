import CloudGraph.Value.Basic

/-!
# Anchors and aliases

A shared part that occurs more than once is written out at its first occurrence, under
an anchor, and as an alias afterwards. `anchors` numbers the anchors in the order in
which second occurrences are met. `Node.ofValue` places anchors and aliases.
-/

namespace CloudGraph.Yaml

/-- A value with its anchors and aliases. -/
inductive Node where
  | scalar (value : Atom)
  | list (anchor : Option Nat) (items : List Node)
  | map (anchor : Option Nat) (entries : List (Atom × Node))
  | alias (anchor : Nat)
  deriving Inhabited

mutual

/-- The occurrences of shared parts, in the order of the text. -/
def uses : Value → List Shared
  | .atom _ => []
  | .list items => itemUses items
  | .map entries => entryUses entries
  | .shared part => [part]

/-- The occurrences of shared parts in the items of a list. -/
def itemUses : List Value → List Shared
  | [] => []
  | item :: items => uses item ++ itemUses items

/-- The occurrences of shared parts in the entries of a mapping. -/
def entryUses : List (Atom × Value) → List Shared
  | [] => []
  | (_, value) :: entries => uses value ++ entryUses entries

end

/-- The parts that occur again, each listed where its second occurrence is met. `met`
holds the parts that were met before. -/
def secondUses (met found : List Shared) : List Shared → List Shared
  | [] => found
  | part :: rest =>
    if met.contains part && !found.contains part then secondUses met (found ++ [part]) rest
    else secondUses (part :: met) found rest

/-- The anchored parts of a value; a part's number is its position from one. -/
def anchors (value : Value) : List Shared :=
  secondUses [] [] (uses value)

namespace Node

/-- Puts an anchor on a collection. -/
def anchored (anchor : Nat) : Node → Node
  | .list _ items => .list (some anchor) items
  | .map _ entries => .map (some anchor) entries
  | node => node

mutual

/-- The node of a value, given the node of every shared part that it meets. The state
lists the parts that were written out before. -/
def build (part : Shared → StateM (List Shared) Node) : Value → StateM (List Shared) Node
  | .atom value => pure (.scalar value)
  | .list items => do return .list none (← buildItems part items)
  | .map entries => do return .map none (← buildEntries part entries)
  | .shared shared => part shared

/-- The nodes of the items of a list. -/
def buildItems (part : Shared → StateM (List Shared) Node) :
    List Value → StateM (List Shared) (List Node)
  | [] => pure []
  | item :: items => do
    let node ← build part item
    return node :: (← buildItems part items)

/-- The nodes of the entries of a mapping. -/
def buildEntries (part : Shared → StateM (List Shared) Node) :
    List (Atom × Value) → StateM (List Shared) (List (Atom × Node))
  | [] => pure []
  | (key, value) :: entries => do
    let node ← build part value
    return (key, node) :: (← buildEntries part entries)

end

/-- The content of a shared part, which holds no shared part itself. -/
def ofContent (part : Shared) : Node :=
  (build (fun _ => pure (.scalar .null)) part.value []).1

/-- The node of one occurrence of a shared part. -/
def ofShared (anchors : List Shared) (part : Shared) : StateM (List Shared) Node := do
  match anchors.idxOf? part with
  | none => return ofContent part
  | some index =>
    if (← get).contains part then return .alias (index + 1)
    else
      modify (part :: ·)
      return anchored (index + 1) (ofContent part)

/-- The node of a value. -/
def ofValue (value : Value) : Node :=
  (build (ofShared (anchors value)) value []).1

end Node

end CloudGraph.Yaml
