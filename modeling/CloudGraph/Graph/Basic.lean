import CloudGraph.Graph.Kind

/-!
# Architecture graphs

A graph is its nodes in order, each under its id. Edges are kept at both ends and are
not checked: an id in `sources` or `targets` may name no node, and may be any value.
Looking one up fails when no node has it.
-/

namespace CloudGraph

/-- A node. The type and the ends of edges are kept as they were read. -/
structure Node where
  id : Atom
  type : Value
  description : Value
  /-- The nodes that have an edge into this one. -/
  sources : List Value
  /-- The nodes that this one has an edge to. -/
  targets : List Value
  deriving Inhabited

/-- Nodes in order, each under its id. -/
structure Graph where
  nodes : Entries Atom Node
  deriving Inhabited

namespace Graph

/-- The nodes, in order. -/
def nodeList (graph : Graph) : List Node :=
  graph.nodes.map (·.2)

/-- The graph of some nodes. A later node takes the place of an earlier one of the same
id. -/
def ofNodes (nodes : List Node) : Graph :=
  ⟨Entries.ofPairs Atom.same (nodes.map fun node => (node.id, node))⟩

/-- The node of an id. -/
def node (graph : Graph) (id : Value) : Except Fault Node :=
  match id with
  | .atom key =>
    match Entries.find? Atom.same graph.nodes key with
    | some found => .ok found
    | none => .error (.missingKey key)
  | _ => .error .wrongKind

/-- The type field of the node of an id. -/
def typeOf (graph : Graph) (id : Value) : Except Fault Value := do
  return (← graph.node id).type

/-- Whether the node of an id is a function. -/
def isFunction (graph : Graph) (id : Value) : Except Fault Bool := do
  return Kind.function.isNamedBy (← graph.typeOf id)

/-- The kind of the node of an id. -/
def kindOf (graph : Graph) (id : Value) : Except Fault Kind := do
  Kind.ofValue (← graph.typeOf id)

/-- An id, unless it is null. -/
def present? : Value → Option Value
  | .atom .null => none
  | id => some id

/-- The last of some ids whose node is of a kind. Every id has to name a node, and a node
whose id is null does not count. -/
def lastOfKind (graph : Graph) (kind : Kind) (ids : List Value) : Except Fault (Option Value) :=
  ids.foldlM (fun found id => do
    return if kind.isNamedBy (← graph.typeOf id) then present? id else found) none

end Graph

end CloudGraph
