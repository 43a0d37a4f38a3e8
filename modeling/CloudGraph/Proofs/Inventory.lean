import CloudGraph.Proofs.Writable

/-!
# What a compilation generates

`Graph.Makes` says which resources a node makes, by their names alone. The names in the
blueprint are exactly those that some node makes: `Graph.Proper.makes_of_mem_keys` and
`Graph.Proper.mem_keys_of_makes` are the account for one node, and nothing is lost when two
nodes make resources of one name, since setting a key again keeps it.
-/

namespace CloudGraph

open Fragment

/-- The kinds that make a resource of their own id in any case. -/
def Kind.makingOwn : List Kind :=
  [.bucket, .table, .stream, .topic, .stepFunction, .analyticsStream, .identityPool, .topicRule]

namespace Graph

variable (graph : Graph)

/-- A node makes a resource of the name. -/
inductive Makes (node : Node) : String → Prop where
  | own {id kind} (idEq : node.id = .text id) (isOf : node.IsOf kind)
      (making : kind ∈ Kind.makingOwn) : Makes node id
  /-- A delivery stream makes its resources when an edge leads to a bucket. -/
  | delivery {id ending bucket} (idEq : node.id = .text id) (isOf : node.IsOf .deliveryStream)
      (member : bucket ∈ graph.nodeList) (isBucket : bucket.IsOf .bucket)
      (leads : .atom bucket.id ∈ node.targets)
      (part : ending ∈ ["", "DeliveryRole", "DeliveryPolicy"]) : Makes node (id ++ ending)
  | analytics {id ending} (idEq : node.id = .text id) (isOf : node.IsOf .analyticsStream)
      (part : ending ∈ ["Role", "Outputs"]) : Makes node (id ++ ending)
  | identity {id ending} (idEq : node.id = .text id) (isOf : node.IsOf .identityPool)
      (part : ending ∈ ["CognitoUnauthRole", "CognitoUnauthPolicy"]) : Makes node (id ++ ending)
  /-- A topic rule makes the role for each topic rule that it leads to. -/
  | publish {target id} (isOf : node.IsOf .topicRule) (member : target ∈ graph.nodeList)
      (idEq : target.id = .text id) (isRule : target.IsOf .topicRule)
      (leads : .text id ∈ node.targets) : Makes node (id ++ "PublishRole")

end Graph

namespace Graph.Proper

variable {graph : Graph} (proper : graph.Proper) {node : Node}

include proper

/-- A node makes whatever it stores. -/
theorem makes_of_mem_keys (member : node ∈ graph.nodeList) {name : String}
    (stored : .text name ∈ Entries.keys (graph.stores node)) : graph.Makes node name := by
  obtain ⟨id, idEq⟩ := proper.textual.ids node member
  obtain ⟨resource, pairMember⟩ := Entries.mem_keys_iff.1 stored
  have delivery : ∀ {bucket ending}, node.IsOf .deliveryStream →
      graph.lastOf? .bucket node.targets = some (.text bucket) →
      ending ∈ ["", "DeliveryRole", "DeliveryPolicy"] → graph.Makes node (id ++ ending) := by
    intro bucket ending isOf last part
    obtain ⟨leads, isBucket⟩ := of_lastOf? last
    obtain ⟨found, foundMember, foundId, foundOf⟩ := proper.isOfKind_iff_isOf.1 isBucket
    exact .delivery idEq isOf foundMember foundOf (foundId ▸ leads) part
  cases proper.contributes_of_mem member idEq pairMember with
  | @fixed kind _ isOf isFixed =>
      refine .own idEq isOf ?_
      cases kind with
      | bucket | table | stream | topic | stepFunction => decide
      | api | deliveryStream | analyticsStream | schedule | function | identityPool | topicRule =>
          cases isFixed
  | deliveryStream isOf last =>
      simpa using delivery isOf last List.mem_cons_self
  | deliveryRole isOf last | deliveryPolicy isOf last => exact delivery isOf last (by decide)
  | application isOf | identityPool isOf | topicRule isOf => exact .own idEq isOf (by decide)
  | analyticsRole isOf | outputs isOf => exact .analytics idEq isOf (by decide)
  | identityRole isOf | identityPolicy isOf => exact .identity idEq isOf (by decide)
  | publishRole isOf leads isRule =>
      obtain ⟨found, foundMember, foundId, foundOf⟩ := proper.isOfKind_iff_isOf.1 isRule
      exact .publish isOf foundMember foundId foundOf leads

/-- A node stores whatever it makes. -/
theorem mem_keys_of_makes (member : node ∈ graph.nodeList) (clear : graph.fault? node = none)
    {name : String} (makes : graph.Makes node name) :
    .text name ∈ Entries.keys (graph.stores node) := by
  cases makes with
  | @own id kind nameEq isOf making =>
      rw [stores_of_isOf isOf, ← nameEq]
      cases kind with
      | function | api | schedule | deliveryStream => simp [Kind.makingOwn] at making
      | bucket | table | stream | topic | stepFunction | analyticsStream | identityPool
      | topicRule => simp [resourcesOf, analyticsResources, poolResources]
  | @delivery id ending bucket nameEq isOf foundMember foundOf leads part =>
      obtain ⟨bucketId, bucketEq⟩ := proper.textual.ids _ foundMember
      rw [bucketEq] at leads
      have isBucket := proper.isOfKind_iff_isOf.2 ⟨_, foundMember, bucketEq, foundOf⟩
      rw [stores_of_isOf isOf, resourcesOf, deliveryResources]
      cases last : graph.lastOf? .bucket node.targets with
      | none => exact absurd isBucket (lastOf?_eq_none_iff.1 last _ leads)
      | some bucket =>
          simp only [List.mem_cons, List.not_mem_nil, or_false] at part
          rcases part with rfl | rfl | rfl <;> simp [nameEq, Atom.plain]
  | analytics nameEq isOf part =>
      rw [stores_of_isOf isOf]
      simp only [List.mem_cons, List.not_mem_nil, or_false] at part
      rcases part with rfl | rfl <;> simp [resourcesOf, analyticsResources, nameEq, Atom.plain]
  | identity nameEq isOf part =>
      rw [stores_of_isOf isOf]
      simp only [List.mem_cons, List.not_mem_nil, or_false] at part
      rcases part with rfl | rfl <;>
        simp [resourcesOf, poolResources, poolPolicy, nameEq, Atom.plain]
  | publish isOf foundMember foundId foundOf leads =>
      rw [stores_of_isOf isOf, resourcesOf, Entries.keys_cons, List.mem_cons]
      have isRule := proper.isOfKind_iff_isOf.2 ⟨_, foundMember, foundId, foundOf⟩
      obtain ⟨earlier, later, split, _⟩ := actionResources_split node true []
        (proper.target_kinds member isOf clear) leads isRule
      rw [split]
      exact .inr (Entries.mem_keys_iff.2 ⟨_, List.mem_append_right _ List.mem_cons_self⟩)

/-- The names of the resources are those that some node makes. -/
theorem mem_keys_resources (clear : graph.nodeList.findSome? graph.fault? = none) (order : Order)
    (runtime : Runtime) {key : Atom} :
    key ∈ Entries.keys (graph.blueprint order runtime).resources ↔
      ∃ name, key = .text name ∧ ∃ node ∈ graph.nodeList, graph.Makes node name := by
  have stored : key ∈ Entries.keys (graph.blueprint order runtime).resources ↔
      ∃ node ∈ graph.nodeList, key ∈ Entries.keys (graph.stores node) := by
    rw [blueprint, blueprintOf, Entries.ofPairs_eq_putAll,
      Entries.mem_keys_putAll (proper.allExact_flatMap_stores fun _ member => member)]
    simp [Entries.keys, List.map_flatMap]
  rw [List.findSome?_eq_none_iff] at clear
  rw [stored]
  constructor
  · rintro ⟨node, member, own⟩
    obtain ⟨resource, pairMember⟩ := Entries.mem_keys_iff.1 own
    obtain ⟨name, rfl⟩ := proper.stores_text member pairMember
    exact ⟨name, rfl, node, member, proper.makes_of_mem_keys member own⟩
  · rintro ⟨name, rfl, node, member, makes⟩
    exact ⟨node, member, proper.mem_keys_of_makes member (clear node member) makes⟩

theorem nodup_ids_functions : ((functionsIn graph.nodeList).map (·.id)).Nodup :=
  (List.filter_sublist.map _).nodup proper.nodup_ids

theorem nodup_keys_functions (order : Order) (runtime : Runtime) :
    (Entries.keys (graph.blueprint order runtime).functions).Nodup := by
  have keys : Entries.keys (graph.blueprint order runtime).functions =
      (functionsIn graph.nodeList).map (·.id) := by simp [blueprint, blueprintOf, Entries.keys]
  rw [keys]
  exact proper.nodup_ids_functions

/-- Every file of a scaffold is there once. -/
theorem nodup_keys_scaffold {runtime : Runtime} (supported : runtime ∈ Runtime.all) :
    (Entries.keys (scaffoldOf runtime (functionsIn graph.nodeList))).Nodup := by
  have distinct : ((functionsIn graph.nodeList).map fun node =>
      runtime.sourceFile (.atom node.id)).Nodup := by
    refine List.Nodup.map_on ?_ proper.nodup_ids_functions.of_map
    intro first firstMember second secondMember equal
    have firstIn := (mem_functionsIn.1 firstMember).1
    have secondIn := (mem_functionsIn.1 secondMember).1
    obtain ⟨firstName, firstEq⟩ := proper.textual.ids first firstIn
    obtain ⟨secondName, secondEq⟩ := proper.textual.ids second secondIn
    rw [firstEq, secondEq] at equal
    have same := Runtime.sourceFile_injective equal
    exact List.inj_on_of_nodup_map proper.nodup_ids firstIn secondIn
      (firstEq.trans (same ▸ secondEq.symm))
  cases functions : functionsIn graph.nodeList with
  | nil => exact List.nodup_nil
  | cons node nodes =>
      rw [functions] at distinct
      rw [keys_scaffoldOf_cons, List.nodup_cons]
      refine ⟨?_, distinct⟩
      intro member
      obtain ⟨other, _, equal⟩ := List.mem_map.1 member
      exact (Runtime.sourceFile_ne supported _).1 equal

end Graph.Proper

/-- A file of the scaffold of a graph: the ignore file if there is a function, and a source
file for each function. -/
inductive Graph.ScaffoldFile (graph : Graph) (runtime : Runtime) : String → String → Prop where
  | ignored {node} (member : node ∈ graph.nodeList) (isOf : node.IsOf .function) :
      ScaffoldFile graph runtime ignoreFile runtime.ignored
  | source {node id} (member : node ∈ graph.nodeList) (isOf : node.IsOf .function)
      (idEq : node.id = .text id) :
      ScaffoldFile graph runtime (id ++ "." ++ runtime.ending) runtime.startingCode

theorem Graph.Proper.mem_scaffold {graph : Graph} (proper : graph.Proper) {runtime : Runtime}
    {name contents : String} :
    (name, contents) ∈ scaffoldOf runtime (functionsIn graph.nodeList) ↔
      graph.ScaffoldFile runtime name contents := by
  have isFunction : ∀ {node}, node ∈ functionsIn graph.nodeList ↔
      node ∈ graph.nodeList ∧ node.IsOf .function := by
    intro node
    rw [mem_functionsIn, Node.kind?_eq_some_iff]
  rw [mem_scaffoldOf]
  constructor
  · rintro (⟨some, equal⟩ | ⟨node, member, equal⟩)
    · obtain ⟨node, member⟩ := List.exists_mem_of_ne_nil _ some
      cases equal
      exact .ignored (isFunction.1 member).1 (isFunction.1 member).2
    · obtain ⟨member, isOf⟩ := isFunction.1 member
      obtain ⟨id, idEq⟩ := proper.textual.ids node member
      cases equal
      rw [idEq]
      exact .source member isOf idEq
  · intro file
    cases file with
    | ignored member isOf =>
        exact .inl ⟨List.ne_nil_of_mem (isFunction.2 ⟨member, isOf⟩), rfl⟩
    | source member isOf idEq => exact .inr ⟨_, isFunction.2 ⟨member, isOf⟩, by rw [idEq]; rfl⟩

/-- The place of the outputs in the document. -/
def Project.outputsPath : List Atom := [.text "resources", .text "Outputs"]

namespace Graph

/-- What a project holds when it is what a graph compiles to, and nothing else. -/
structure Inventory (graph : Graph) (order : Order) (project : Project) : Prop where
  /-- The functions are the function nodes, in order. -/
  functions : ∃ functions, project.functions = .ok (.map functions) ∧
    Entries.keys functions = (functionsIn graph.nodeList).map (·.id)
  /-- The resources are those that some node makes, each once. -/
  resources : ∃ resources, project.resources = .ok (.map resources) ∧
    (Entries.keys resources).Nodup ∧
    ∀ key, key ∈ Entries.keys resources ↔
      ∃ name, key = .text name ∧ ∃ node ∈ graph.nodeList, graph.Makes node name
  outputs : project.document.itemAt Project.outputsPath = .ok (.map [])
  /-- The files are those of the scaffold, each once, and none is called as the descriptor. -/
  files : ∃ runtime, Runtime.ofId order.runtime = .ok runtime ∧
    ∀ name contents, (name, contents) ∈ project.files ↔ graph.ScaffoldFile runtime name contents
  distinct : (Entries.keys project.files ++ [descriptorFile]).Nodup
  /-- What is rendered is the files as they are, and then the descriptor. -/
  rendered : ∀ files, (graph.render order).result = .ok files →
    ∃ text, Yaml.descriptorText project.document = .ok text ∧
      files = project.files ++ [(descriptorFile, text)]
  /-- Rendering fails on nothing but values from outside that have no form. -/
  renders : order.obstacle? = none → Yaml.writable order.service = true →
    Yaml.writable order.provider = true →
    (∀ node ∈ graph.nodeList, Yaml.writable node.description = true) →
    ∃ files, (graph.render order).result = .ok files

theorem render_result {graph : Graph} {order : Order} {project : Project}
    (compiled : (graph.compile order).result = .ok project) :
    (graph.render order).result =
      match order.obstacle? with
      | some fault => .error fault
      | none => project.render := by
  unfold Graph.render
  rw [Trace.result_bind, compiled]
  cases order.obstacle? <;> rfl

/-- Rendering adds the descriptor after files of other names. -/
theorem render_of_separate {project : Project}
    (separate : descriptorFile ∉ Entries.keys project.files) :
    project.render = (Yaml.descriptorText project.document).map fun text =>
      project.files ++ [(descriptorFile, text)] := by
  unfold Project.render
  cases Yaml.descriptorText project.document with
  | error fault => rfl
  | ok text =>
      exact congrArg Except.ok (Entries.put_of_not_mem (Entries.exact_name descriptorFile) separate)

/-- What a graph compiles to is exactly its inventory. -/
theorem compile_generates_inventory {graph : Graph} {order : Order} {project : Project}
    (proper : graph.Proper) (compiled : (graph.compile order).result = .ok project) :
    graph.Inventory order project := by
  obtain ⟨runtime, known, clear, rfl⟩ := proper.eq_blueprint compiled
  have supported := Runtime.mem_all_of_ofId known
  have separate : descriptorFile ∉ Entries.keys (graph.blueprint order runtime).project.files := by
    intro member
    rcases mem_keys_scaffoldOf.1 member with ⟨equal, _⟩ | ⟨node, _, equal⟩
    · revert equal
      decide
    · exact (Runtime.sourceFile_ne supported _).2 equal.symm
  have rendered := render_result compiled
  rw [render_of_separate separate] at rendered
  constructor
  case functions =>
    exact ⟨_, Draft.functions_project _, by simp [blueprint, blueprintOf, Entries.keys]⟩
  case resources =>
    exact ⟨_, Draft.resources_project _, proper.nodup_keys_stored fun _ member => member,
      fun key => proper.mem_keys_resources clear order runtime⟩
  case outputs => rfl
  case files => exact ⟨runtime, known, fun name contents => proper.mem_scaffold⟩
  case distinct =>
    refine List.nodup_append.2 ⟨proper.nodup_keys_scaffold supported, List.nodup_singleton _, ?_⟩
    intro name member other otherMember equal
    rw [List.mem_singleton] at otherMember
    exact separate (otherMember ▸ equal ▸ member)
  case rendered =>
    intro files result
    rw [rendered] at result
    cases free : order.obstacle? with
    | some fault => simp [free] at result
    | none =>
        cases written : Yaml.descriptorText (graph.blueprint order runtime).project.document with
        | error fault => simp [free, written, Except.map] at result
        | ok text => exact ⟨text, rfl, by simpa [free, written, Except.map] using result.symm⟩
  case renders =>
    intro free service provider described
    have written := proper.writable_blueprint known service provider described
    rw [rendered, free]
    simp [Yaml.descriptorText, written, Except.map]

theorem thumbnails_generates_inventory : ∃ project,
    (thumbnails.compile thumbnailOrder).result = .ok project ∧
      thumbnails.Inventory thumbnailOrder project := by
  obtain ⟨project, compiled⟩ := thumbnails_compiles
  exact ⟨project, compiled, compile_generates_inventory
    (proper_of_ofValue thumbnails_loaded thumbnails_textual) compiled⟩

end Graph

end CloudGraph
