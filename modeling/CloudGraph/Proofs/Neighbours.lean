import CloudGraph.Proofs.Compiled

/-!
# The neighbours of a node

What a node contributes is told by the node and by the kinds of the nodes at the other ends of
its edges. Graphs that agree on these (`Graph.AgreeOn`) give the node the same definition and
the same resources, whatever else they hold: `Graph.stores_congr` and
`Graph.definition_congr`.
-/

namespace CloudGraph.Graph

/-- Two graphs find the same kinds for some ids, and fail to find them in the same way. -/
def AgreeOn (graph other : Graph) (ids : List Value) : Prop :=
  ∀ id ∈ ids, other.kindOf id = graph.kindOf id

variable {graph other : Graph} {ids : List Value} {node : Node}

namespace AgreeOn

theorem of_kindOf (same : other.kindOf = graph.kindOf) (ids : List Value) :
    graph.AgreeOn other ids :=
  fun id _ => congrFun same id

theorem isOfKind (agree : graph.AgreeOn other ids) {id : Value} (member : id ∈ ids)
    (kind : Kind) : other.isOfKind kind id = graph.isOfKind kind id := by
  simp only [Graph.isOfKind, agree id member]

theorem lastOf? (agree : graph.AgreeOn other ids) (kind : Kind) :
    other.lastOf? kind ids = graph.lastOf? kind ids := by
  unfold Graph.lastOf?
  rw [List.filter_congr fun id member => agree.isOfKind member kind]

theorem grants (agree : graph.AgreeOn other ids) : other.grants ids = graph.grants ids :=
  List.filterMap_congr fun id member => by simp only [agree id member]

theorem triggers (agree : graph.AgreeOn other ids) : other.triggers ids = graph.triggers ids :=
  List.filterMap_congr fun id member => by simp only [agree id member]

theorem actionResources (agree : graph.AgreeOn other ids) (node : Node) (stored : Bool)
    (actions : List Value) :
    other.actionResources node stored actions ids =
      graph.actionResources node stored actions ids := by
  induction ids generalizing stored actions with
  | nil => rfl
  | cons target targets ih =>
      have head := agree.isOfKind List.mem_cons_self
      have ih := ih fun id member => agree id (List.mem_cons_of_mem _ member)
      simp only [Graph.actionResources, head, ih]

end AgreeOn

/-- What a node stores is told by the node and the kinds of its neighbours. -/
theorem stores_congr (sources : graph.AgreeOn other node.sources)
    (targets : graph.AgreeOn other node.targets) : other.stores node = graph.stores node := by
  unfold stores
  cases node.kind? with
  | none => rfl
  | some kind =>
      cases kind <;>
        simp only [resourcesOf, deliveryResources, analyticsResources, poolPolicy,
          sources.lastOf?, targets.lastOf?, targets.grants, targets.actionResources]

theorem hasStatements_congr (targets : graph.AgreeOn other node.targets) :
    other.hasStatements node = graph.hasStatements node := by
  rw [hasStatements, hasStatements, targets.grants]

/-- So is the definition of a function. -/
theorem definition_congr (sources : graph.AgreeOn other node.sources)
    (targets : graph.AgreeOn other node.targets) (runtime : Runtime) :
    other.definition runtime node = graph.definition runtime node := by
  simp only [definition, eventFields, statementFields, sources.triggers, targets.grants]

end CloudGraph.Graph
