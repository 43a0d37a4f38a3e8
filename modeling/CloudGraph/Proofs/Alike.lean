import CloudGraph.Proofs.Failure
import Mathlib.Data.List.Forall2

/-!
# Parts that are not read

Edges are kept at both ends, and each kind of node reads only some of its own: functions and
analytics applications look at both ends, and some kinds at the edges out of them. The description
is read of fewer kinds still. Nodes that agree on what their kind reads are `Node.Alike`, and two
graphs of such nodes cannot be told apart by what they compile to or by the files they render to,
nor by the fault they fail with: `Graph.Alike.compile_eq` and `Graph.render_of_alike_nodes`.

A visit gets the ids of the neighbours and asks the graph for their types alone
(`Graph.visit_of_typeOf`), so that what a neighbour says about an edge is never looked at.
-/

namespace CloudGraph

/-- The kinds whose description goes into the descriptor. -/
def Kind.described : List Kind := [.function, .analyticsStream, .topicRule]

/-- Two nodes agree on everything that is read of their kind. Their other ends of edges and
descriptions may be anything. -/
structure Node.Alike (node twin : Node) : Prop where
  id : twin.id = node.id
  type : twin.type = node.type
  sources : ∀ kind ∈ Kind.readingSources, node.IsOf kind → twin.sources = node.sources
  targets : ∀ kind ∈ Kind.readingTargets, node.IsOf kind → twin.targets = node.targets
  description : ∀ kind ∈ Kind.described, node.IsOf kind → twin.description = node.description

/-- Two graphs have the same keys in the same order, and alike nodes under them. -/
def Graph.Alike (graph twin : Graph) : Prop :=
  List.Forall₂ (fun entry other => other.1 = entry.1 ∧ entry.2.Alike other.2)
    graph.nodes twin.nodes

/-- Looking up what is there is no step. -/
theorem Trace.bind_lift_ok {σ α β : Type} (value : α) (next : α → Trace σ β) :
    (liftM (Except.ok value : Except Fault α) : Trace σ α) >>= next = next value := rfl

namespace Graph

section SameTypes

variable {graph other : Graph} (same : other.typeOf = graph.typeOf)

include same

theorem kindOf_of_typeOf : other.kindOf = graph.kindOf := by
  funext id
  simp only [Graph.kindOf, same]

theorem lastOfKind_of_typeOf : other.lastOfKind = graph.lastOfKind := by
  funext kind ids
  simp only [Graph.lastOfKind, same]

theorem statements_of_typeOf : other.statements = graph.statements := by
  funext source targets
  induction targets with
  | nil => rfl
  | cons target targets ih => simp only [Graph.statements, kindOf_of_typeOf same, ih]

theorem wire_of_typeOf : other.wire = graph.wire := by
  funext kind target source
  simp only [Graph.wire, Graph.isFunction, same]

theorem wireSources_of_typeOf : other.wireSources = graph.wireSources := by
  funext function sources
  induction sources with
  | nil => rfl
  | cons source sources ih =>
      simp only [Graph.wireSources, kindOf_of_typeOf same, wire_of_typeOf same, ih]

theorem visitActions_of_typeOf : other.visitActions = graph.visitActions := by
  funext node stored actions targets
  induction targets generalizing stored actions with
  | nil => rfl
  | cons target targets ih => simp only [Graph.visitActions, same, ih]

/-- A visit asks the graph for nothing but types. -/
theorem visit_of_typeOf : other.visit = graph.visit := by
  funext runtimeId kind node
  cases kind with
  | bucket | table | api | stream | schedule | topic | stepFunction => rfl
  | deliveryStream => simp only [visit, visitDeliveryStream, lastOfKind_of_typeOf same]
  | analyticsStream => simp only [visit, visitAnalyticsStream, lastOfKind_of_typeOf same]
  | function =>
      simp only [visit, visitFunction, visitSources, visitTargets, wireSources_of_typeOf same,
        statements_of_typeOf same]
  | identityPool => simp only [visit, visitIdentityPool, statements_of_typeOf same]
  | topicRule => simp only [visit, visitTopicRule, visitActions_of_typeOf same]

end SameTypes

/-- The edges out of a topic rule are told by its id and its description. -/
theorem visitActions_congr (graph : Graph) {node twin : Node} (id : twin.id = node.id)
    (description : twin.description = node.description) (stored : Bool)
    (actions targets : List Value) :
    graph.visitActions twin stored actions targets =
      graph.visitActions node stored actions targets := by
  induction targets generalizing stored actions with
  | nil => rfl
  | cons target targets ih => simp only [visitActions, id, description, ih]

/-- Visits of alike nodes have the same plan. -/
theorem visit_of_alike (graph : Graph) {node twin : Node} (alike : node.Alike twin) {kind : Kind}
    (isOf : node.IsOf kind) (runtimeId : Value) :
    graph.visit runtimeId kind twin = graph.visit runtimeId kind node := by
  have id := alike.id
  cases kind with
  | bucket | table | stream | topic | stepFunction => simp only [visit, id]
  | api | schedule => rfl
  | deliveryStream =>
      have targets := alike.targets _ (by decide) isOf
      simp only [visit, visitDeliveryStream, id, targets]
  | analyticsStream =>
      have sources := alike.sources _ (by decide) isOf
      have targets := alike.targets _ (by decide) isOf
      have description := alike.description _ (by decide) isOf
      simp only [visit, visitAnalyticsStream, id, sources, targets, description]
  | function =>
      have sources := alike.sources _ (by decide) isOf
      have targets := alike.targets _ (by decide) isOf
      have description := alike.description _ (by decide) isOf
      simp only [visit, visitFunction, visitSources, visitTargets, id, sources, targets,
        description]
  | identityPool =>
      have targets := alike.targets _ (by decide) isOf
      simp only [visit, visitIdentityPool, id, targets]
  | topicRule =>
      have targets := alike.targets _ (by decide) isOf
      have description := alike.description _ (by decide) isOf
      simp only [visit, visitTopicRule, id, targets, description,
        graph.visitActions_congr id description]

namespace Alike

variable {graph twin : Graph} (alike : graph.Alike twin)

include alike

/-- Alike graphs find the same types, and fail to find them in the same way. -/
theorem typeOf : twin.typeOf = graph.typeOf := by
  have found : ∀ key, (Entries.find? Atom.same twin.nodes key).map Node.type =
      (Entries.find? Atom.same graph.nodes key).map Node.type := by
    intro key
    unfold Graph.Alike at alike
    generalize graph.nodes = entries at alike
    generalize twin.nodes = others at alike
    induction alike with
    | nil => rfl
    | @cons entry other _ _ same _ ih =>
        rw [Entries.find?_cons, Entries.find?_cons, same.1]
        split
        · exact congrArg some same.2.type
        · exact ih
  funext id
  cases id with
  | atom key =>
      have same := found key
      simp only [Graph.typeOf, Graph.node]
      cases here : Entries.find? Atom.same graph.nodes key <;>
        cases there : Entries.find? Atom.same twin.nodes key <;>
        simp_all [bind, Except.bind, pure, Except.pure]
  | list | map | shared => rfl

theorem planNode {node other : Node} (nodes : node.Alike other) (runtimeId : Value) :
    twin.planNode runtimeId other = graph.planNode runtimeId node := by
  unfold Graph.planNode
  rw [visit_of_typeOf alike.typeOf, nodes.id, nodes.type]
  cases named : Kind.ofValue node.type with
  | error fault => rfl
  | ok kind =>
      have isOf : node.IsOf kind := Kind.ofValue_eq_ok_iff.1 named
      simp only [Trace.bind_lift_ok, graph.visit_of_alike nodes isOf]

/-- Alike graphs have the same plan, and so does every part of it. -/
theorem plan (runtimeId : Value) : twin.plan runtimeId = graph.plan runtimeId := by
  have each : ∀ nodes others, List.Forall₂ Node.Alike nodes others →
      twin.planNodes runtimeId others = graph.planNodes runtimeId nodes := by
    intro nodes others every
    induction every with
    | nil => rfl
    | cons first _ ih => rw [planNodes, planNodes, alike.planNode first, ih]
  have nodes : List.Forall₂ Node.Alike graph.nodeList twin.nodeList := by
    rw [nodeList, nodeList, List.forall₂_map_left_iff, List.forall₂_map_right_iff]
    exact alike.imp fun _ _ same => same.2
  rw [Graph.plan, Graph.plan, each _ _ nodes]

/-- Alike graphs compile to the same project or fail with the same fault, and leave the same
records. -/
theorem compile_eq (order : Order) : twin.compile order = graph.compile order := by
  rw [Graph.compile, Graph.compile, alike.plan]

end Alike

/-- Nodes that are alike are so under their keys too, when these are their ids. -/
theorem alike_of_nodes {graph twin : Graph} (keyed : ∀ entry ∈ graph.nodes, entry.1 = entry.2.id)
    (twinKeyed : ∀ entry ∈ twin.nodes, entry.1 = entry.2.id)
    (alike : List.Forall₂ Node.Alike graph.nodeList twin.nodeList) : graph.Alike twin := by
  rw [nodeList, nodeList, List.forall₂_map_left_iff, List.forall₂_map_right_iff] at alike
  unfold Graph.Alike
  generalize graph.nodes = entries at keyed alike
  generalize twin.nodes = others at twinKeyed alike
  induction alike with
  | nil => exact .nil
  | cons first _ ih =>
      obtain ⟨own, keyed⟩ := List.forall_mem_cons.1 keyed
      obtain ⟨twinOwn, twinKeyed⟩ := List.forall_mem_cons.1 twinKeyed
      exact .cons ⟨by rw [own, twinOwn, first.id], first⟩ (ih keyed twinKeyed)

/-- Only the end that owns an edge matters. Two graphs that were read, with the same ids and types
in the same order, render to the same files, texts and all, or fail with the same fault, when
their nodes agree on what their kinds read. Nothing is assumed about the other ends of edges, nor
about any other description. -/
theorem render_of_alike_nodes {value other : Value} {graph twin : Graph}
    (loaded : Graph.ofValue value = .ok graph) (twinLoaded : Graph.ofValue other = .ok twin)
    (ids : ∀ node ∈ graph.nodeList, ∃ id, node.id = .text id)
    (alike : List.Forall₂ Node.Alike graph.nodeList twin.nodeList) (order : Order) :
    twin.render order = graph.render order := by
  have sameIds : twin.nodeList.map (·.id) = graph.nodeList.map (·.id) := by
    rw [← List.forall₂_eq_eq_eq, List.forall₂_map_left_iff, List.forall₂_map_right_iff]
    exact alike.flip.imp fun _ _ same => same.id
  have twinIds : ∀ node ∈ twin.nodeList, ∃ id, node.id = .text id := by
    intro node member
    obtain ⟨own, ownMember, idEq⟩ := List.mem_map.1 (sameIds ▸ List.mem_map_of_mem member)
    exact idEq ▸ ids own ownMember
  have whole : graph.Alike twin :=
    alike_of_nodes (keys_of_ofValue loaded ids).1 (keys_of_ofValue twinLoaded twinIds).1 alike
  rw [Graph.render, Graph.render, whole.compile_eq]

/-- The nodes that make thumbnails, after edges and descriptions have gone stale that no kind
reads. -/
def staleNodes : List Node := [
  ⟨.text "photos", .text "bucket", .text "Holidays", [.text "gone"], [.text "resize"]⟩,
  ⟨.text "resize", .text "fn", .text "Makes thumbnails", [.text "photos"], [.text "index"]⟩,
  ⟨.text "index", .text "table", .int 3, [], [.null]⟩,
  ⟨.text "archive", .text "deliveryStream", .text "Old", [.text "gone"], [.text "photos"]⟩,
  ⟨.text "alarm", .text "iotRule", .text "", [.list []], [.text "relay"]⟩,
  ⟨.text "relay", .text "iotRule", .text "", [], [.text "resize"]⟩]

/-- The stale nodes render to what the others do. -/
theorem stale_thumbnails_render :
    List.Forall₂ Node.Alike thumbnails.nodeList (ofNodes staleNodes).nodeList ∧
      ∀ order, (ofNodes staleNodes).render order = thumbnails.render order := by
  have loaded : Graph.ofValue (.record [("nodes", .list (staleNodes.map Node.toValue))]) =
      .ok (ofNodes staleNodes) := rfl
  have alike : List.Forall₂ Node.Alike thumbnails.nodeList (ofNodes staleNodes).nodeList := by
    have nodes : (ofNodes staleNodes).nodeList = staleNodes := rfl
    rw [nodeList_thumbnails, nodes]
    unfold thumbnailNodes staleNodes
    refine .cons ?_ (.cons ?_ (.cons ?_ (.cons ?_ (.cons ?_ (.cons ?_ .nil))))) <;>
      constructor <;>
      simp [Node.IsOf, Kind.name, Kind.readingSources, Kind.readingTargets, Kind.described]
  exact ⟨alike, render_of_alike_nodes thumbnails_loaded loaded thumbnails_textual.ids alike⟩

end Graph

end CloudGraph
