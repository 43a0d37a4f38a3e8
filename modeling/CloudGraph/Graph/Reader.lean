import CloudGraph.Graph.Basic
import CloudGraph.Json.Reader
import CloudGraph.Log
import CloudGraph.Text.Lines

/-!
# Reading and writing models

A model is an object with a field `nodes` that holds the nodes, either as an object
whose keys do not matter or as a list. `Graph.ofValue` reads one and `Graph.toValue`
writes one. Nothing is checked that the reading does not need.
-/

namespace CloudGraph

/-- The elements of a field that lists ids; an absent field lists none. -/
def Value.idsIn (value : Value) (name : String) : Except Fault (List Value) :=
  match value.field? name with
  | none => .ok []
  | some ids =>
    match ids.elements? with
    | some elements => .ok elements
    | none => .error .wrongKind

namespace Node

/-- Reads a node. Only its id and its type are required. -/
def ofValue (value : Value) : Except Fault Node := do
  match value with
  | .map _ =>
    let some id := value.field? "id" | throw (.problem (.nodeWithout value "id"))
    let some type := value.field? "type" | throw (.problem (.nodeWithout value "type"))
    let described := (value.field? "description").getD .null
    let description := if described.truthy then described else .text ""
    let sources ← value.idsIn "from"
    let targets ← value.idsIn "to"
    match id with
    | .atom id => return ⟨id, type, description, sources, targets⟩
    | _ => throw .wrongKind
  | _ => throw (.problem (.nodeNotObject value))

/-- The object of a node, with all five fields. -/
def toValue (node : Node) : Value :=
  .record [
    ("id", .atom node.id),
    ("type", node.type),
    ("description", node.description),
    ("from", .list node.sources),
    ("to", .list node.targets)]

end Node

namespace Graph

/-- The values that a model gives for its nodes. -/
def nodeValues (value : Value) : Except Fault (List Value) :=
  match value.field? "nodes" with
  | none => .error (.problem .noNodes)
  | some (.map entries) => .ok (entries.map (·.2))
  | some nodes =>
    match nodes.elements? with
    | some elements => .ok elements
    | none => .error .wrongKind

/-- Reads a graph from the value of a model. The first bad node decides the fault. -/
def ofValue (value : Value) : Except Fault Graph := do
  let values ← nodeValues value
  return ofNodes (← values.mapM Node.ofValue)

/-- The value of a model with this graph. -/
def toValue (graph : Graph) : Value :=
  .record [("nodes", .map (graph.nodeList.map fun node => (node.id, node.toValue)))]

/-- Reads a graph and leaves a record of its size. -/
def ofValueLogged (value : Value) : Logged Graph := do
  let graph ← Trace.ofExcept (ofValue value)
  Trace.step ⟨.debug, .model, "Loaded " ++ toString graph.nodes.length ++ " nodes"⟩
  return graph

/-- Reads a graph from the contents of a model file. -/
def ofFile (path : String) (contents : ByteArray) : Logged Graph := do
  let some text := Text.ofBytes? contents | Trace.fail .notUtf8
  match Json.read text with
  | .error (.malformed cause offset) =>
    Trace.fail (.problem (.modelMalformed path (Json.describe text cause offset)))
  | .error .numberTooLong => Trace.fail .badValue
  | .ok value =>
    Trace.step ⟨.info, .model, "Loading model from " ++ path⟩
    ofValueLogged value

end Graph

end CloudGraph
