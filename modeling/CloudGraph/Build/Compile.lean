import CloudGraph.Build.Visit
import CloudGraph.Yaml.Descriptor

/-!
# Compiling a graph

Every node is visited once, in order. `Graph.plan` is the plan of the whole graph,
`Graph.compile` carries it out on an empty project, and `Graph.render` gives the files
of the result, the descriptor last.
-/

namespace CloudGraph

/-- The name of the descriptor file. -/
def descriptorFile : String := "serverless.yml"

/-- The name of a service that none is given for. -/
def defaultService : String := "serverless"

/-- The provider that is used when none is given. -/
def defaultProvider : String := "aws"

/-- What a compilation is for. -/
structure Order where
  runtime : Value
  service : Value := .text defaultService
  provider : Value := .text defaultProvider
  /-- Why the descriptor cannot hold the service or the provider. -/
  obstacle? : Option Fault := none

/-- The plan of one node, with its record. -/
def Graph.planNode (graph : Graph) (runtimeId : Value) (node : Node) : Plan Unit := do
  Plan.note .info .compiler
    ("Rendering " ++ (Value.atom node.id).plain ++ " (" ++ node.type.plain ++ ")")
  let kind ← Kind.ofValue node.type
  graph.visit runtimeId kind node

/-- The plan of some nodes of a graph, one after the other. -/
def Graph.planNodes (graph : Graph) (runtimeId : Value) : List Node → Plan Unit
  | [] => pure ()
  | node :: nodes => do
    graph.planNode runtimeId node
    graph.planNodes runtimeId nodes

/-- The plan of a graph. An unknown runtime stops it before the first node. -/
def Graph.plan (graph : Graph) (runtimeId : Value) : Plan Unit := do
  let _ ← Runtime.ofId runtimeId
  graph.planNodes runtimeId graph.nodeList

/-- The record of what a project has come to. -/
def Project.summary (project : Project) : Except Fault Record := do
  let functions ← (← project.functions).size
  let resources ← (← project.resources).size
  return ⟨.info, .compiler, "Rendered " ++ toString functions ++ " functions, " ++
    toString resources ++ " resources"⟩

/-- The project of a graph, with the records of its making. -/
def Graph.compile (graph : Graph) (order : Order) : Logged Project := do
  let outcome := (graph.plan order.runtime).carryOut
    (Project.create order.service order.runtime order.provider)
  Trace.mk outcome.records outcome.result
  Trace.step (← outcome.project.summary)
  return outcome.project

/-- The files of a project, the descriptor last. -/
def Project.render (project : Project) : Except Fault (Entries String String) := do
  let descriptor ← Yaml.descriptorText project.document
  return Entries.put Project.sameName project.files descriptorFile descriptor

/-- The files that a graph compiles to. -/
def Graph.render (graph : Graph) (order : Order) : Logged (Entries String String) := do
  let project ← graph.compile order
  match order.obstacle? with
  | some fault => Trace.fail fault
  | none => project.render

end CloudGraph
