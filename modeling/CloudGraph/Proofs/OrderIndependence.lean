import CloudGraph.Proofs.Inventory
import CloudGraph.Proofs.Neighbours
import CloudGraph.Proofs.Writes

/-!
# Independence of the order of nodes

A compilation looks nodes up by their ids alone, so that what each node stores does not
depend on where it stands among the others. `Graph.Proper.resources_perm` puts this together
with `Graph.Proper.mem_resources_iff`: when nodes write apart, every order of them compiles to
the same project up to the order of entries.
-/

namespace CloudGraph

/-- Two projects hold the same functions, resources, plugins and files. Each is a mapping
with distinct keys, and only the order of its entries may differ. -/
structure Project.SameContents (first second : Project) : Prop where
  functions : ∃ entries others, first.functions = .ok (.map entries) ∧
    second.functions = .ok (.map others) ∧ (Entries.keys entries).Nodup ∧ others.Perm entries
  resources : ∃ entries others, first.resources = .ok (.map entries) ∧
    second.resources = .ok (.map others) ∧ (Entries.keys entries).Nodup ∧ others.Perm entries
  plugins : second.document.field? "plugins" = first.document.field? "plugins"
  distinctFiles : (Entries.keys first.files).Nodup
  files : second.files.Perm first.files

namespace Graph

variable {graph other : Graph}

section SameLookups

variable (same : other.node = graph.node)

include same

theorem kindOf_eq : other.kindOf = graph.kindOf := by
  funext id
  simp only [Graph.kindOf, Graph.typeOf, same]

theorem grants_eq : other.grants = graph.grants :=
  funext fun targets => (AgreeOn.of_kindOf (kindOf_eq same) targets).grants

theorem stores_eq : other.stores = graph.stores :=
  funext fun _ => stores_congr (.of_kindOf (kindOf_eq same) _) (.of_kindOf (kindOf_eq same) _)

theorem definition_eq (runtime : Runtime) :
    other.definition runtime = graph.definition runtime :=
  funext fun _ =>
    definition_congr (.of_kindOf (kindOf_eq same) _) (.of_kindOf (kindOf_eq same) _) runtime

end SameLookups

theorem complete_perm (permuted : other.nodes.Perm graph.nodes) :
    other.Complete ↔ graph.Complete := by
  have members : ∀ node, node ∈ other.nodeList ↔ node ∈ graph.nodeList :=
    fun node => (permuted.map _).mem_iff
  constructor
  · rintro ⟨kinds, sources, targets, actions⟩
    simp only [Has, members] at kinds sources targets actions
    exact ⟨kinds, sources, targets, actions⟩
  · rintro ⟨kinds, sources, targets, actions⟩
    simp only [Has, ← members] at kinds sources targets actions
    exact ⟨kinds, sources, targets, actions⟩

end Graph

theorem scaffoldOf_perm {runtime : Runtime} {nodes others : List Node}
    (permuted : others.Perm nodes) :
    (scaffoldOf runtime others).Perm (scaffoldOf runtime nodes) := by
  cases nodes with
  | nil => rw [permuted.eq_nil]
  | cons node nodes =>
      cases others with
      | nil => exact absurd permuted.symm.eq_nil (List.cons_ne_nil _ _)
      | cons other others => exact (permuted.map _).cons _

namespace Graph

/-- When nodes write apart, their order changes the resources by their order alone. -/
theorem Proper.resources_perm {graph : Graph} (proper : graph.Proper) (typed : graph.Typed)
    {runtimeId : Value} (clear : graph.nodeList.findSome? graph.fault? = none)
    (apart : graph.WritesApart runtimeId) {nodes : List Node}
    (permuted : nodes.Perm graph.nodeList) :
    (Entries.ofPairs Atom.same (nodes.flatMap graph.stores)).Perm
      (Entries.ofPairs Atom.same (graph.nodeList.flatMap graph.stores)) := by
  have members : ∀ node ∈ nodes, node ∈ graph.nodeList := fun node => permuted.mem_iff.1
  rw [List.perm_ext_iff_of_nodup (proper.nodup_keys_stored members).of_map
    (proper.nodup_keys_stored fun _ member => member).of_map]
  intro pair
  rw [proper.mem_resources_iff typed clear apart members,
    proper.mem_resources_iff typed clear apart fun _ member => member]
  simp only [permuted.mem_iff]

/-- The order of the nodes decides neither whether a graph compiles nor, when nodes write apart,
what it compiles to. -/
theorem compile_order_independent {value : Value} {graph other : Graph} (order : Order)
    (loaded : Graph.ofValue value = .ok graph) (textual : graph.Textual) (typed : graph.Typed)
    (permuted : other.nodes.Perm graph.nodes) :
    ((∃ project, (other.compile order).result = .ok project) ↔
      ∃ project, (graph.compile order).result = .ok project) ∧
    (graph.WritesApart order.runtime → ∀ project again,
      (graph.compile order).result = .ok project → (other.compile order).result = .ok again →
      project.SameContents again) := by
  have proper := proper_of_ofValue loaded textual
  have otherProper := proper.perm permuted
  have same := proper.node_perm permuted
  have nodesPermuted : other.nodeList.Perm graph.nodeList := permuted.map _
  constructor
  · rw [proper.compiles_iff, otherProper.compiles_iff, complete_perm permuted]
  · intro apart project again compiled compiledAgain
    obtain ⟨runtime, known, clear, rfl⟩ := proper.eq_blueprint compiled
    obtain ⟨runtimeAgain, knownAgain, _, rfl⟩ := otherProper.eq_blueprint compiledAgain
    obtain rfl : runtime = runtimeAgain := Except.ok.inj (known.symm.trans knownAgain)
    have functionsPermuted : (functionsIn other.nodeList).Perm (functionsIn graph.nodeList) :=
      nodesPermuted.filter _
    constructor
    case functions =>
      refine ⟨_, _, Draft.functions_project _, Draft.functions_project _,
        proper.nodup_keys_functions order runtime, ?_⟩
      rw [blueprint, blueprintOf, definition_eq same]
      exact functionsPermuted.map _
    case resources =>
      refine ⟨_, _, Draft.resources_project _, Draft.resources_project _,
        proper.nodup_keys_stored fun _ member => member, ?_⟩
      rw [blueprint, blueprintOf, stores_eq same]
      exact proper.resources_perm typed clear apart nodesPermuted
    case plugins =>
      have plugged : other.hasStatements = graph.hasStatements := by
        funext node
        rw [hasStatements, hasStatements, grants_eq same]
      rw [Draft.plugins_project, Draft.plugins_project, blueprint, blueprintOf, plugged,
        functionsPermuted.any_eq]
      rfl
    case distinctFiles => exact proper.nodup_keys_scaffold (Runtime.mem_all_of_ofId known)
    case files => exact scaffoldOf_perm functionsPermuted

theorem thumbnails_reversed : ∃ project again,
    (thumbnails.compile thumbnailOrder).result = .ok project ∧
      (Graph.compile ⟨thumbnails.nodes.reverse⟩ thumbnailOrder).result = .ok again ∧
      project.SameContents again := by
  have permuted : (Graph.mk thumbnails.nodes.reverse).nodes.Perm thumbnails.nodes :=
    List.reverse_perm _
  obtain ⟨compiles, same⟩ := compile_order_independent thumbnailOrder thumbnails_loaded
    thumbnails_textual thumbnails_typed permuted
  obtain ⟨project, compiled⟩ := thumbnails_compiles
  obtain ⟨again, compiledAgain⟩ := compiles.2 ⟨project, compiled⟩
  exact ⟨project, again, compiled, compiledAgain,
    same thumbnails_writesApart project again compiled compiledAgain⟩

end Graph

end CloudGraph
