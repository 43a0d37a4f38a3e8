import CloudGraph.Proofs.Neighbours
import CloudGraph.Proofs.OwnedEdges
import CloudGraph.Proofs.Overlays
import CloudGraph.Proofs.Permissions

/-!
# Graphs side by side

When two graphs that share no node both compile, so does the graph with the nodes of the one
before those of the other, and it compiles to the union of their projects:
`Graph.compile_append`. The projects may have resources in common, since the companions of a node
have made-up names, and they have the ignore file in common. There the second has the last word.

Each part compiles as if the other were not there, since the edges that count lead to nodes of
the same part (`Graph.Closed`): `Graph.Proper.blueprintOf_part`. What is left is how the
blueprint of all nodes is put together from those of the parts: `Graph.Proper.union_blueprintOf`.
-/

namespace CloudGraph

/-- A project is the union of two others. Each of its mappings is that of the second laid over
that of the first, and it has the plugin, as its only one, when either of them has. -/
structure Project.Union (first second whole : Project) : Prop where
  functions : ∃ entries others, first.functions = .ok (.map entries) ∧
    second.functions = .ok (.map others) ∧
    whole.functions = .ok (.map (Entries.overlay Atom.same entries others))
  resources : ∃ entries others, first.resources = .ok (.map entries) ∧
    second.resources = .ok (.map others) ∧
    whole.resources = .ok (.map (Entries.overlay Atom.same entries others))
  files : whole.files = Entries.overlay Project.sameName first.files second.files
  plugins : whole.document.field? "plugins" =
    (first.document.field? "plugins").or (second.document.field? "plugins")
  onePlugin : ∀ plugins, whole.document.field? "plugins" = some plugins →
    ∃ plugin, plugins = .list [plugin]

namespace Graph

/-- The nodes of one graph before those of another. -/
def append (first second : Graph) : Graph :=
  ⟨first.nodes ++ second.nodes⟩

/-- All ends of edges are ids of nodes. -/
structure Closed (graph : Graph) : Prop where
  sources : ∀ node ∈ graph.nodeList, ∀ source ∈ node.sources, graph.Has source
  targets : ∀ node ∈ graph.nodeList, ∀ target ∈ node.targets, graph.Has target

variable {first second part whole : Graph}

@[simp]
theorem nodeList_append : (first.append second).nodeList = first.nodeList ++ second.nodeList :=
  List.map_append

theorem owned_append : (first.append second).owned = first.owned.append second.owned := by
  simp [owned, append]

theorem Has.mono (inside : part.nodeList ⊆ whole.nodeList) {id : Value} (held : part.Has id) :
    whole.Has id := by
  obtain ⟨node, member, idEq⟩ := held
  exact ⟨node, inside member, idEq⟩

/-- The edges of a complete graph that count are closed. -/
theorem closed_owned (complete : part.owned.Complete) : part.owned.Closed where
  sources := by
    intro node member source leads
    obtain ⟨own, _, rfl⟩ := List.mem_map.1 (nodeList_owned part ▸ member)
    obtain ⟨kind, reading, isOf⟩ := Node.isOf_of_mem_kept leads
    exact complete.sources _ member kind reading isOf source leads
  targets := by
    intro node member target leads
    obtain ⟨own, _, rfl⟩ := List.mem_map.1 (nodeList_owned part ▸ member)
    obtain ⟨kind, reading, isOf⟩ := Node.isOf_of_mem_kept leads
    exact complete.targets _ member kind reading isOf target leads

section Parts

variable (proper : part.Proper) (wholeProper : whole.Proper)
  (inside : part.nodeList ⊆ whole.nodeList)

include proper wholeProper inside

/-- The kind of a node of a part is the same in the whole. -/
theorem Proper.agreeOn_of_part {ids : List Value} (held : ∀ id ∈ ids, part.Has id) :
    part.AgreeOn whole ids := by
  intro id member
  obtain ⟨node, nodeMember, rfl⟩ := held id member
  obtain ⟨name, idEq⟩ := proper.textual.ids node nodeMember
  have here : part.named? name = some node := proper.named?_iff.2 ⟨nodeMember, idEq⟩
  have there : whole.named? name = some node := wholeProper.named?_iff.2 ⟨inside nodeMember, idEq⟩
  rw [idEq, Graph.kindOf, Graph.kindOf, proper.typeOf_of_named here,
    wholeProper.typeOf_of_named there]

/-- Within a whole, the nodes of a closed part lead to the blueprint of the part alone. -/
theorem Proper.blueprintOf_part (closed : part.Closed) (order : Order) (runtime : Runtime) :
    whole.blueprintOf order runtime part.nodeList = part.blueprint order runtime := by
  have sources : ∀ node ∈ part.nodeList, part.AgreeOn whole node.sources := fun node member =>
    proper.agreeOn_of_part wholeProper inside (closed.sources node member)
  have targets : ∀ node ∈ part.nodeList, part.AgreeOn whole node.targets := fun node member =>
    proper.agreeOn_of_part wholeProper inside (closed.targets node member)
  have function : ∀ node ∈ functionsIn part.nodeList, node ∈ part.nodeList :=
    fun node member => (mem_functionsIn.1 member).1
  have functions : (functionsIn part.nodeList).map
        (fun node => (node.id, whole.definition runtime node)) =
      (functionsIn part.nodeList).map fun node => (node.id, part.definition runtime node) := by
    refine List.map_congr_left fun node member => ?_
    have inPart := function node member
    rw [definition_congr (sources node inPart) (targets node inPart)]
  have resources : part.nodeList.flatMap whole.stores = part.nodeList.flatMap part.stores :=
    List.flatMap_congr fun node member => stores_congr (sources node member) (targets node member)
  have plugged : (functionsIn part.nodeList).any whole.hasStatements =
      (functionsIn part.nodeList).any part.hasStatements := by
    rw [Bool.eq_iff_iff, List.any_eq_true, List.any_eq_true]
    refine exists_congr fun node => and_congr_right fun member => ?_
    rw [hasStatements_congr (targets node (function node member))]
  rw [blueprint, blueprintOf, blueprintOf, functions, resources, plugged]

end Parts

/-- The scaffold of some functions and of others after them. -/
theorem scaffoldOf_union {runtime : Runtime} {functions others : List Node}
    (distinct : (Entries.keys (scaffoldOf runtime (functions ++ others))).Nodup) :
    scaffoldOf runtime (functions ++ others) = Entries.overlay Project.sameName
      (scaffoldOf runtime functions) (scaffoldOf runtime others) := by
  cases functions with
  | nil => simp [scaffoldOf]
  | cons node functions =>
      cases others with
      | nil => simp [scaffoldOf]
      | cons other others =>
          let sources : List Node → Entries String String := fun nodes => nodes.map fun node =>
            (runtime.sourceFile (.atom node.id), runtime.startingCode)
          have whole : scaffoldOf runtime (node :: functions ++ other :: others) =
              scaffoldOf runtime (node :: functions) ++ sources (other :: others) := by
            simp [scaffoldOf, sources]
          rw [whole, Entries.keys_append, List.nodup_append'] at distinct
          obtain ⟨once, _, apart⟩ := distinct
          have exact : Entries.AllExact Project.sameName (scaffoldOf runtime (node :: functions)) :=
            fun entry _ => Entries.exact_name entry.1
          have ignored : ignoreFile ∉ Entries.keys (sources (other :: others)) :=
            apart (by simp [scaffoldOf])
          rw [whole]
          -- The ignore file is there already, and all else is new.
          exact ((Entries.overlay_cons_of_mem exact once (by simp [scaffoldOf]) ignored).trans
            (Entries.overlay_of_disjoint exact apart)).symm

section Blueprint

variable (proper : whole.Proper) {nodes others : List Node}
  (split : whole.nodeList = nodes ++ others)

include split

theorem functionsIn_of_split :
    functionsIn whole.nodeList = functionsIn nodes ++ functionsIn others := by
  rw [split]
  exact List.filter_append nodes others

include proper

/-- All functions of the later nodes are new. -/
theorem Proper.functions_of_split (order : Order) (runtime : Runtime) :
    (whole.blueprint order runtime).functions = Entries.overlay Atom.same
      (whole.blueprintOf order runtime nodes).functions
      (whole.blueprintOf order runtime others).functions := by
  have united : (whole.blueprint order runtime).functions =
      (whole.blueprintOf order runtime nodes).functions ++
        (whole.blueprintOf order runtime others).functions := by
    simp only [blueprint, blueprintOf, functionsIn_of_split split, List.map_append]
  have exact : Entries.AllExact Atom.same (whole.blueprintOf order runtime nodes).functions := by
    intro entry member
    obtain ⟨node, isFunction, rfl⟩ := List.mem_map.1 member
    have inNodes := (mem_functionsIn.1 isFunction).1
    obtain ⟨id, idEq⟩ := proper.textual.ids node (by simp [split, inNodes])
    exact idEq ▸ Entries.exact_text id
  have distinct := proper.nodup_keys_functions order runtime
  rw [united, Entries.keys_append, List.nodup_append'] at distinct
  rw [united, Entries.overlay_of_disjoint exact distinct.2.2]

/-- A resource that the later nodes store again takes their value. -/
theorem Proper.resources_of_split (order : Order) (runtime : Runtime) :
    (whole.blueprint order runtime).resources = Entries.overlay Atom.same
      (whole.blueprintOf order runtime nodes).resources
      (whole.blueprintOf order runtime others).resources := by
  have earlier : ∀ node ∈ nodes, node ∈ whole.nodeList := by
    intro node member
    simp [split, member]
  have later : ∀ node ∈ others, node ∈ whole.nodeList := by
    intro node member
    simp [split, member]
  rw [blueprint, blueprintOf, blueprintOf, blueprintOf, split, List.flatMap_append,
    Entries.ofPairs_eq_putAll, Entries.putAll_append, ← Entries.ofPairs_eq_putAll,
    Entries.putAll_eq_overlay (proper.allExact_flatMap_stores later)
      (proper.allExact_flatMap_stores earlier).ofPairs (proper.nodup_keys_stored earlier)]

/-- The blueprint of a graph is the union of those of its first nodes and of the nodes after
them. -/
theorem Proper.union_blueprintOf (order : Order) {runtime : Runtime}
    (supported : runtime ∈ Runtime.all) :
    Project.Union (whole.blueprintOf order runtime nodes).project
      (whole.blueprintOf order runtime others).project
      (whole.blueprint order runtime).project := by
  have functions := functionsIn_of_split split
  constructor
  case functions =>
    refine ⟨_, _, Draft.functions_project _, Draft.functions_project _, ?_⟩
    rw [Draft.functions_project, proper.functions_of_split split]
  case resources =>
    refine ⟨_, _, Draft.resources_project _, Draft.resources_project _, ?_⟩
    rw [Draft.resources_project, proper.resources_of_split split]
  case files =>
    have distinct := proper.nodup_keys_scaffold supported
    rw [functions] at distinct
    exact (congrArg (scaffoldOf runtime) functions).trans (scaffoldOf_union distinct)
  case plugins =>
    simp only [Draft.plugins_project, blueprint, blueprintOf, functions, List.any_append]
    cases (functionsIn nodes).any whole.hasStatements <;> simp
  case onePlugin =>
    intro plugins present
    simp only [Draft.plugins_project, blueprint, blueprintOf] at present
    split at present
    · exact ⟨_, (Option.some.inj present).symm⟩
    · cases present

end Blueprint

theorem proper_append (proper : first.Proper) (secondProper : second.Proper)
    (disjoint : (Entries.keys first.nodes).Disjoint (Entries.keys second.nodes)) :
    (first.append second).Proper where
  keyed := List.forall_mem_append.2 ⟨proper.keyed, secondProper.keyed⟩
  distinct := by
    rw [append, Entries.keys_append]
    exact List.nodup_append'.2 ⟨proper.distinct, secondProper.distinct, disjoint⟩
  textual := by
    constructor <;> rw [nodeList_append]
    case ids => exact List.forall_mem_append.2 ⟨proper.textual.ids, secondProper.textual.ids⟩
    case sources =>
      exact List.forall_mem_append.2 ⟨proper.textual.sources, secondProper.textual.sources⟩
    case targets =>
      exact List.forall_mem_append.2 ⟨proper.textual.targets, secondProper.textual.targets⟩

/-- In a whole, a topic rule of a complete part leads to functions and topic rules only. -/
theorem Proper.action_of_part (wholeProper : whole.Proper)
    (inside : part.nodeList ⊆ whole.nodeList) (complete : part.Complete) :
    ∀ node ∈ part.nodeList, node.IsOf .topicRule → ∀ found ∈ whole.nodeList,
      .atom found.id ∈ node.targets → found.IsOf .function ∨ found.IsOf .topicRule := by
  intro node member isRule found foundMember leads
  obtain ⟨other, otherMember, idEq⟩ :=
    complete.targets node member .topicRule (by decide) isRule _ leads
  have same : other = found := List.inj_on_of_nodup_map wholeProper.nodup_ids (inside otherMember)
    foundMember (Value.atom.inj idEq)
  exact complete.actions node member isRule found (same ▸ otherMember) leads

theorem complete_append (proper : (first.append second).Proper) (complete : first.Complete)
    (secondComplete : second.Complete) : (first.append second).Complete := by
  have inside : first.nodeList ⊆ (first.append second).nodeList := by simp
  have secondInside : second.nodeList ⊆ (first.append second).nodeList := by simp
  constructor
  case kinds =>
    rw [nodeList_append]
    exact List.forall_mem_append.2 ⟨complete.kinds, secondComplete.kinds⟩
  case sources =>
    rw [nodeList_append]
    exact List.forall_mem_append.2
      ⟨fun node member kind reading isOf source leads =>
        (complete.sources node member kind reading isOf source leads).mono inside,
      fun node member kind reading isOf source leads =>
        (secondComplete.sources node member kind reading isOf source leads).mono secondInside⟩
  case targets =>
    rw [nodeList_append]
    exact List.forall_mem_append.2
      ⟨fun node member kind reading isOf target leads =>
        (complete.targets node member kind reading isOf target leads).mono inside,
      fun node member kind reading isOf target leads =>
        (secondComplete.targets node member kind reading isOf target leads).mono secondInside⟩
  case actions =>
    intro node member
    rcases List.mem_append.1 (nodeList_append ▸ member) with inFirst | inSecond
    · exact proper.action_of_part inside complete node inFirst
    · exact proper.action_of_part secondInside secondComplete node inSecond

/-- Graphs that share no node compile side by side to the union of what they compile to. -/
theorem Keyed.union_of_compile {order : Order} {project other : Project} (keyed : first.Keyed)
    (secondKeyed : second.Keyed)
    (disjoint : (Entries.keys first.nodes).Disjoint (Entries.keys second.nodes))
    (compiled : (first.compile order).result = .ok project)
    (secondCompiled : (second.compile order).result = .ok other) :
    ∃ union, ((first.append second).compile order).result = .ok union ∧
      project.Union other union := by
  have proper := keyed.proper_owned compiled
  have secondProper := secondKeyed.proper_owned secondCompiled
  rw [← compile_owned] at compiled secondCompiled
  rw [← compile_owned, owned_append]
  have wholeProper := proper_append proper secondProper (by rwa [keys_owned, keys_owned])
  obtain ⟨runtime, known, clear, rfl⟩ := proper.eq_blueprint compiled
  obtain ⟨sameRuntime, sameKnown, secondClear, rfl⟩ := secondProper.eq_blueprint secondCompiled
  obtain rfl : runtime = sameRuntime := Except.ok.inj (known.symm.trans sameKnown)
  have complete := proper.complete_iff.2 clear
  have secondComplete := secondProper.complete_iff.2 secondClear
  obtain ⟨union, compiledWhole⟩ := wholeProper.compiles_iff.2
    ⟨⟨runtime, known⟩, complete_append wholeProper complete secondComplete⟩
  obtain ⟨wholeRuntime, wholeKnown, _, rfl⟩ := wholeProper.eq_blueprint compiledWhole
  obtain rfl : runtime = wholeRuntime := Except.ok.inj (known.symm.trans wholeKnown)
  refine ⟨_, compiledWhole, ?_⟩
  rw [← proper.blueprintOf_part wholeProper (by simp) (closed_owned complete),
    ← secondProper.blueprintOf_part wholeProper (by simp) (closed_owned secondComplete)]
  exact wholeProper.union_blueprintOf nodeList_append order (Runtime.mem_all_of_ofId known)

section Nodes

variable {nodes others : List Node}

theorem allExact_ids (texts : ∀ node ∈ nodes, ∃ id, node.id = .text id) :
    Entries.AllExact Atom.same (nodes.map fun node => (node.id, node)) := by
  intro pair member
  obtain ⟨node, nodeMember, rfl⟩ := List.mem_map.1 member
  obtain ⟨id, idEq⟩ := texts node nodeMember
  exact idEq ▸ Entries.exact_text id

theorem mem_keys_ofNodes (texts : ∀ node ∈ nodes, ∃ id, node.id = .text id) {key : Atom} :
    key ∈ Entries.keys (ofNodes nodes).nodes ↔ key ∈ nodes.map (·.id) := by
  rw [ofNodes, Entries.ofPairs_eq_putAll, Entries.mem_keys_putAll (allExact_ids texts)]
  simp [Entries.keys, Function.comp_def]

/-- The graph of nodes whose ids are texts has each under its id. -/
theorem keyed_ofNodes (texts : ∀ node ∈ nodes, ∃ id, node.id = .text id) :
    (ofNodes nodes).Keyed := by
  have exact := allExact_ids texts
  have own : ∀ entry ∈ (ofNodes nodes).nodes, entry.1 = entry.2.id ∧ entry.2 ∈ nodes := by
    intro entry member
    obtain ⟨node, nodeMember, rfl⟩ := List.mem_map.1 (Entries.mem_of_mem_ofPairs exact member)
    exact ⟨rfl, nodeMember⟩
  constructor
  case keyed => exact fun entry member => (own entry member).1
  case distinct => exact Entries.nodup_keys_putAll exact List.nodup_nil
  case ids =>
    intro node member
    obtain ⟨key, entry⟩ := mem_nodeList.1 member
    exact texts node (own _ entry).2

/-- The graph of nodes and of others with other ids is that of the nodes before that of the
others. -/
theorem ofNodes_append (texts : ∀ node ∈ nodes, ∃ id, node.id = .text id)
    (otherTexts : ∀ node ∈ others, ∃ id, node.id = .text id)
    (disjoint : (Entries.keys (ofNodes nodes).nodes).Disjoint
      (Entries.keys (ofNodes others).nodes)) :
    ofNodes (nodes ++ others) = (ofNodes nodes).append (ofNodes others) := by
  have exact : Entries.AllExact Atom.same (ofNodes nodes).nodes := (allExact_ids texts).ofPairs
  have distinct := (keyed_ofNodes texts).distinct
  refine congrArg Graph.mk ?_
  calc Entries.ofPairs Atom.same ((nodes ++ others).map fun node => (node.id, node))
      = Entries.putAll Atom.same (ofNodes nodes).nodes
          (others.map fun node => (node.id, node)) := by
        rw [List.map_append, Entries.ofPairs_eq_putAll, Entries.putAll_append]
        rfl
    _ = Entries.overlay Atom.same (ofNodes nodes).nodes (ofNodes others).nodes :=
        Entries.putAll_eq_overlay (allExact_ids otherTexts) exact distinct
    _ = (ofNodes nodes).nodes ++ (ofNodes others).nodes :=
        Entries.overlay_of_disjoint exact disjoint

/-- Compilation is compositional. When two graphs whose ids are texts and differ both compile,
the graph of the nodes of the first and then those of the second compiles to the union of what
they compile to. Types and the ends of edges may be anything. -/
theorem compile_append (order : Order) {project other : Project}
    (texts : ∀ node ∈ nodes, ∃ id, node.id = .text id)
    (otherTexts : ∀ node ∈ others, ∃ id, node.id = .text id)
    (disjoint : ∀ node ∈ nodes, ∀ later ∈ others, node.id ≠ later.id)
    (compiled : ((ofNodes nodes).compile order).result = .ok project)
    (otherCompiled : ((ofNodes others).compile order).result = .ok other) :
    ∃ union, ((ofNodes (nodes ++ others)).compile order).result = .ok union ∧
      project.Union other union := by
  have keys : (Entries.keys (ofNodes nodes).nodes).Disjoint
      (Entries.keys (ofNodes others).nodes) := by
    intro key inFirst inSecond
    rw [mem_keys_ofNodes texts] at inFirst
    rw [mem_keys_ofNodes otherTexts] at inSecond
    obtain ⟨node, member, rfl⟩ := List.mem_map.1 inFirst
    obtain ⟨later, laterMember, idEq⟩ := List.mem_map.1 inSecond
    exact disjoint node member later laterMember idEq.symm
  rw [ofNodes_append texts otherTexts keys]
  exact (keyed_ofNodes texts).union_of_compile (keyed_ofNodes otherTexts) keys compiled
    otherCompiled

end Nodes

/-- The architecture that makes thumbnails and the shop share the ignore file, and both have the
plugin. -/
theorem thumbnails_append_shop : ∃ project other union,
    (thumbnails.compile thumbnailOrder).result = .ok project ∧
      (shop.compile thumbnailOrder).result = .ok other ∧
      ((ofNodes (thumbnailNodes ++ shopNodes)).compile thumbnailOrder).result = .ok union ∧
      project.Union other union := by
  obtain ⟨project, compiled⟩ := thumbnails_compiles
  obtain ⟨other, otherCompiled⟩ := shop_compiles
  obtain ⟨union, compiledUnion, isUnion⟩ := compile_append thumbnailOrder thumbnails_textual.ids
    shop_textual.ids (by decide) compiled otherCompiled
  exact ⟨project, other, union, compiled, otherCompiled, compiledUnion, isUnion⟩

end Graph

end CloudGraph
