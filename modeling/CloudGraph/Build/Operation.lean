import CloudGraph.Build.Visit

/-!
# Operations on a project

The single steps that a compilation is made of, for a caller that takes them one by
one: visiting a node, wiring an edge into its target, and asking for a grant or for the
grants of several targets. Every operation looks up the rule of its node first.
-/

namespace CloudGraph

/-- One step on a project under construction. -/
inductive Operation where
  /-- Adds what a node itself makes. -/
  | visit (id : Value)
  /-- Wires what an edge from the source sets off into the target. -/
  | wire (target source : Value)
  /-- Asks what an edge from the source to the target allows. -/
  | grant (source target : Value)
  /-- Asks what edges from the source to several targets allow. -/
  | statements (source : Value) (targets : List Value)

/-- The plan of an operation, and its answer: null for one that only changes the
project. -/
def Graph.perform (graph : Graph) (runtimeId : Value) : Operation → Plan Value
  | .visit id => do
    let kind ← graph.kindOf id
    let node ← graph.node id
    graph.visit runtimeId kind node
    return .null
  | .wire target source => do
    let kind ← graph.kindOf source
    graph.wire kind target source
    return .null
  | .grant _ target => do
    let kind ← graph.kindOf target
    return (CloudGraph.grant kind target).getD .null
  | .statements source targets => do
    return .list (← graph.statements source targets)

end CloudGraph
