import CloudGraph.Proofs.Alike

/-!
# Edges that count

A visit looks at the edges that the kind of its node owns, and at no others. `Graph.owned` leaves
the other edges out, which changes nothing about a compilation (`Graph.compile_owned`). When a
graph compiles, all edges that are left lead to nodes of it, so that they are texts when its ids
are: `Graph.Keyed.proper_owned`.
-/

namespace CloudGraph

/-- The node with only the edges that its kind looks at. -/
def Node.owned (node : Node) : Node :=
  { node with
    sources := if node.kind?.any (· ∈ Kind.readingSources) then node.sources else []
    targets := if node.kind?.any (· ∈ Kind.readingTargets) then node.targets else [] }

namespace Node

variable {node : Node}

/-- Ids that a node keeps only as one of some kinds show that it is of one of them. -/
theorem isOf_of_mem_kept {kinds : List Kind} {ids : List Value} {id : Value}
    (kept : id ∈ if node.kind?.any (· ∈ kinds) then ids else []) :
    ∃ kind ∈ kinds, node.IsOf kind := by
  split at kept
  next some =>
    obtain ⟨kind, isOf, member⟩ := (Option.any_eq_true _ _).1 some
    exact ⟨kind, by simpa using member, Node.kind?_eq_some_iff.1 isOf⟩
  next => cases kept

end Node

/-- The graph with only the edges that count. -/
def Graph.owned (graph : Graph) : Graph :=
  ⟨graph.nodes.map fun entry => (entry.1, entry.2.owned)⟩

namespace Graph

variable (graph : Graph)

theorem nodeList_owned : graph.owned.nodeList = graph.nodeList.map Node.owned := by
  simp [nodeList, owned]

theorem keys_owned : Entries.keys graph.owned.nodes = Entries.keys graph.nodes := by
  simp [owned, Entries.keys]

/-- Nothing is read of the edges that do not count. -/
theorem alike_owned : graph.Alike graph.owned := by
  have own : ∀ node : Node, node.Alike node.owned := by
    intro node
    refine ⟨rfl, rfl, fun kind reading isOf => ?_, fun kind reading isOf => ?_, fun _ _ _ => rfl⟩
    · simp [Node.owned, Node.kind?_eq_some_iff.2 isOf, reading]
    · simp [Node.owned, Node.kind?_eq_some_iff.2 isOf, reading]
  rw [Graph.Alike, owned, List.forall₂_map_right_iff, List.forall₂_same]
  exact fun entry _ => ⟨rfl, own entry.2⟩

/-- Edges that do not count change nothing about a compilation. -/
theorem compile_owned (order : Order) : graph.owned.compile order = graph.compile order :=
  graph.alike_owned.compile_eq order

/-- All of some ids are those of nodes. -/
def Knows (ids : List Value) : Prop :=
  ∀ id ∈ ids, ∃ node, graph.node id = .ok node

variable {graph}

theorem node_of_typeOf {id type : Value} (typed : graph.typeOf id = .ok type) :
    ∃ node, graph.node id = .ok node := by
  cases found : graph.node id with
  | ok node => exact ⟨node, rfl⟩
  | error fault => simp [Graph.typeOf, found, bind, Except.bind] at typed

theorem node_of_kindOf {id : Value} {kind : Kind} (named : graph.kindOf id = .ok kind) :
    ∃ node, graph.node id = .ok node := by
  cases typed : graph.typeOf id with
  | ok type => exact node_of_typeOf typed
  | error fault => simp [Graph.kindOf, typed, bind, Except.bind] at named

theorem knows_of_lastOfKind {kind : Kind} {ids : List Value} {last? : Option Value}
    (looked : graph.lastOfKind kind ids = .ok last?) : graph.Knows ids := by
  unfold Graph.lastOfKind at looked
  generalize (none : Option Value) = before at looked
  induction ids generalizing before with
  | nil => simp [Knows]
  | cons id ids ih =>
      rw [List.foldlM_cons] at looked
      cases typed : graph.typeOf id with
      | error fault => simp [typed, bind, Except.bind] at looked
      | ok type =>
          have rest := ih _ (by simpa [typed, bind, Except.bind, pure, Except.pure] using looked)
          exact List.forall_mem_cons.2 ⟨node_of_typeOf typed, rest⟩

theorem knows_of_statements {source : Value} {targets grants : List Value}
    (collected : (graph.statements source targets).result = .ok grants) :
    graph.Knows targets := by
  induction targets generalizing grants with
  | nil => simp [Knows]
  | cons target targets ih =>
      obtain ⟨_, _, collected⟩ := Trace.result_bind_eq_ok.1 collected
      obtain ⟨kind, named, collected⟩ := Trace.result_bind_eq_ok.1 collected
      refine List.forall_mem_cons.2 ⟨node_of_kindOf named, ?_⟩
      cases granted : grant kind target with
      | none =>
          rw [granted] at collected
          obtain ⟨_, _, collected⟩ := Trace.result_bind_eq_ok.1 collected
          exact ih collected
      | some statement =>
          rw [granted] at collected
          obtain ⟨_, rest, _⟩ := Trace.result_bind_eq_ok.1 collected
          exact ih rest

theorem knows_of_wireSources {function : Value} {sources : List Value}
    (wired : (graph.wireSources function sources).result = .ok ()) : graph.Knows sources := by
  induction sources with
  | nil => simp [Knows]
  | cons source sources ih =>
      obtain ⟨_, _, wired⟩ := Trace.result_bind_eq_ok.1 wired
      obtain ⟨kind, named, wired⟩ := Trace.result_bind_eq_ok.1 wired
      obtain ⟨_, _, rest⟩ := Trace.result_bind_eq_ok.1 wired
      exact List.forall_mem_cons.2 ⟨node_of_kindOf named, ih rest⟩

theorem knows_of_visitActions {node : Node} {stored : Bool} {actions targets : List Value}
    (visited : (graph.visitActions node stored actions targets).result = .ok ()) :
    graph.Knows targets := by
  induction targets generalizing stored actions with
  | nil => simp [Knows]
  | cons target targets ih =>
      obtain ⟨type, typed, visited⟩ := Trace.result_bind_eq_ok.1 visited
      obtain ⟨_, _, visited⟩ := Trace.result_bind_eq_ok.1 visited
      refine List.forall_mem_cons.2 ⟨node_of_typeOf typed, ?_⟩
      dsimp only at visited
      split at visited
      · obtain ⟨_, _, rest⟩ := Trace.result_bind_eq_ok.1 visited
        exact ih rest
      · split at visited
        · obtain ⟨_, _, visited⟩ := Trace.result_bind_eq_ok.1 visited
          obtain ⟨_, _, visited⟩ := Trace.result_bind_eq_ok.1 visited
          obtain ⟨_, _, rest⟩ := Trace.result_bind_eq_ok.1 visited
          exact ih rest
        · cases visited

theorem knows_of_visitSources {node : Node}
    (visited : (graph.visitSources node).result = .ok ()) : graph.Knows node.sources := by
  unfold visitSources at visited
  split at visited
  next empty =>
    rw [List.isEmpty_iff.1 empty]
    simp [Knows]
  next =>
    obtain ⟨_, _, wired⟩ := Trace.result_bind_eq_ok.1 visited
    exact knows_of_wireSources wired

theorem knows_of_visitTargets {node : Node}
    (visited : (graph.visitTargets node).result = .ok ()) : graph.Knows node.targets := by
  unfold visitTargets at visited
  split at visited
  next empty =>
    rw [List.isEmpty_iff.1 empty]
    simp [Knows]
  next =>
    obtain ⟨_, collected, _⟩ := Trace.result_bind_eq_ok.1 visited
    exact knows_of_statements collected

/-- A visit that ends well has found the nodes at all edges that its node owns. -/
theorem knows_of_visit {runtimeId : Value} {kind : Kind} {node : Node}
    (isOf : node.kind? = some kind)
    (visited : (graph.visit runtimeId kind node).result = .ok ()) :
    graph.Knows node.owned.sources ∧ graph.Knows node.owned.targets := by
  have none : graph.Knows [] := by simp [Knows]
  unfold Node.owned
  rw [isOf]
  cases kind with
  | bucket | table | api | stream | schedule | topic | stepFunction => exact ⟨none, none⟩
  | deliveryStream =>
      obtain ⟨_, buckets, _⟩ := Trace.result_bind_eq_ok.1 visited
      exact ⟨none, knows_of_lastOfKind buckets⟩
  | analyticsStream =>
      obtain ⟨_, sources, visited⟩ := Trace.result_bind_eq_ok.1 visited
      obtain ⟨_, _, visited⟩ := Trace.result_bind_eq_ok.1 visited
      obtain ⟨_, targets, _⟩ := Trace.result_bind_eq_ok.1 visited
      exact ⟨knows_of_lastOfKind sources, knows_of_lastOfKind targets⟩
  | identityPool =>
      obtain ⟨_, _, visited⟩ := Trace.result_bind_eq_ok.1 visited
      obtain ⟨_, _, visited⟩ := Trace.result_bind_eq_ok.1 visited
      obtain ⟨_, _, visited⟩ := Trace.result_bind_eq_ok.1 visited
      obtain ⟨_, _, visited⟩ := Trace.result_bind_eq_ok.1 visited
      obtain ⟨_, collected, _⟩ := Trace.result_bind_eq_ok.1 visited
      exact ⟨none, knows_of_statements collected⟩
  | topicRule =>
      obtain ⟨_, _, visited⟩ := Trace.result_bind_eq_ok.1 visited
      exact ⟨none, knows_of_visitActions visited⟩
  | function =>
      obtain ⟨_, _, visited⟩ := Trace.result_bind_eq_ok.1 visited
      obtain ⟨_, _, visited⟩ := Trace.result_bind_eq_ok.1 visited
      obtain ⟨_, _, visited⟩ := Trace.result_bind_eq_ok.1 visited
      obtain ⟨_, _, visited⟩ := Trace.result_bind_eq_ok.1 visited
      obtain ⟨_, sources, targets⟩ := Trace.result_bind_eq_ok.1 visited
      exact ⟨knows_of_visitSources sources, knows_of_visitTargets targets⟩

/-- Every node stands under its id, no two under the same, and the ids are texts. Types and the
ends of edges may be anything. -/
structure Keyed (graph : Graph) : Prop where
  keyed : ∀ entry ∈ graph.nodes, entry.1 = entry.2.id
  distinct : (Entries.keys graph.nodes).Nodup
  ids : ∀ node ∈ graph.nodeList, ∃ id, node.id = .text id

namespace Keyed

variable (keyed : graph.Keyed)

include keyed

/-- Only a text is found to be the id of a node. -/
theorem text_of_knows {ids : List Value} (known : graph.Knows ids) :
    ∀ id ∈ ids, ∃ name, id = .text name := by
  intro id member
  obtain ⟨node, found⟩ := known id member
  cases id with
  | atom key =>
      have some : Entries.find? Atom.same graph.nodes key ≠ none := by
        intro none
        simp [Graph.node, none] at found
      by_contra noText
      refine some (Entries.find?_eq_none_of_unlike fun entry entryMember => ?_)
      obtain ⟨name, idEq⟩ := keyed.ids entry.2 (mem_nodeList.2 ⟨entry.1, entryMember⟩)
      rw [keyed.keyed entry entryMember, idEq, Bool.eq_false_iff]
      exact fun same => noText ⟨name, congrArg Value.atom (Atom.eq_text_of_same same)⟩
  | _ => cases found

/-- When the graph compiles, the edges that count lead to texts. -/
theorem proper_owned {order : Order} {project : Project}
    (compiled : (graph.compile order).result = .ok project) : graph.owned.Proper where
  keyed := by
    intro entry member
    obtain ⟨own, ownMember, rfl⟩ := List.mem_map.1 member
    exact keyed.keyed own ownMember
  distinct := by
    rw [keys_owned]
    exact keyed.distinct
  textual := by
    have known : ∀ node ∈ graph.owned.nodeList, ∃ own ∈ graph.nodeList, node = own.owned ∧
        graph.Knows node.sources ∧ graph.Knows node.targets := by
      intro node member
      rw [nodeList_owned] at member
      obtain ⟨own, ownMember, rfl⟩ := List.mem_map.1 member
      obtain ⟨_, _, visits⟩ := visits_of_compile compiled
      obtain ⟨kind, isOf, visited⟩ := visits own ownMember
      exact ⟨own, ownMember, rfl, knows_of_visit isOf visited⟩
    constructor
    case ids =>
      intro node member
      obtain ⟨own, ownMember, rfl, _⟩ := known node member
      exact keyed.ids own ownMember
    case sources =>
      intro node member
      obtain ⟨_, _, _, sources, _⟩ := known node member
      exact keyed.text_of_knows sources
    case targets =>
      intro node member
      obtain ⟨_, _, _, _, targets⟩ := known node member
      exact keyed.text_of_knows targets

end Keyed

end Graph

end CloudGraph
