import CloudGraph.Proofs.Defined

/-!
# What a compilation makes

`Graph.blueprint` is the whole outcome of a compilation, written down without the edits
that lead to it: the definitions of the functions, the resources of all nodes set in
turn, the plugin when some function has statements, and the files.
`Graph.Proper.compile_result` says that a compilation ends with the fault of the first
node that has one, and otherwise with the blueprint.
-/

namespace CloudGraph

open Plan (Ends)

/-- The functions among some nodes. -/
def functionsIn (nodes : List Node) : List Node :=
  nodes.filter fun node => node.kind? = some .function

/-- The files of some functions: the ignore file first, if there is a function at all. -/
def scaffoldOf (runtime : Runtime) : List Node → Entries String String
  | [] => []
  | node :: nodes => (ignoreFile, runtime.ignored) :: (node :: nodes).map fun node =>
      (runtime.sourceFile (.atom node.id), runtime.startingCode)

namespace Graph

variable (graph : Graph)

/-- The resources that a node stores, in order. -/
def stores (node : Node) : List (Atom × Value) :=
  match node.kind? with
  | some kind => graph.resourcesOf node kind
  | none => []

/-- Whether a function has statements. -/
def hasStatements (node : Node) : Bool :=
  !(graph.grants node.targets).isEmpty

/-- The draft after a visit of a node that has no fault. -/
def visited (runtime : Runtime) (node : Node) (draft : Draft) : Draft :=
  if node.kind? = some .function then graph.defining runtime node draft
  else draft.storing (graph.stores node)

/-- The draft that visits of some nodes lead to. -/
def blueprintOf (order : Order) (runtime : Runtime) (nodes : List Node) : Draft where
  service := order.service
  runtime := order.runtime
  provider := order.provider
  functions := (functionsIn nodes).map fun node => (node.id, graph.definition runtime node)
  resources := Entries.ofPairs Atom.same (nodes.flatMap graph.stores)
  plugins? := if (functionsIn nodes).any graph.hasStatements then some [.text rolesPlugin] else none
  files := scaffoldOf runtime (functionsIn nodes)

/-- The draft that a compilation of the whole graph leads to. -/
def blueprint (order : Order) (runtime : Runtime) : Draft :=
  graph.blueprintOf order runtime graph.nodeList

end Graph

namespace Runtime

variable {runtime : Runtime} {runtimeId : Value}

/-- An id is that of a supported runtime only as its name. -/
theorem of_ofId (known : ofId runtimeId = .ok runtime) :
    runtime ∈ all ∧ runtimeId = .text runtime.name := by
  unfold ofId at known
  split at known
  next scalar =>
    split at known
    · cases known
    · cases found : all.find? fun runtime => Atom.same (.text runtime.name) scalar with
      | none => simp [found] at known
      | some other =>
          simp only [found, Except.ok.injEq] at known
          subst known
          have same : Atom.same (.text other.name) scalar = true := by
            simpa using List.find?_some found
          exact ⟨List.mem_of_find?_eq_some found, congrArg Value.atom (Atom.eq_text_of_same same)⟩
  next => cases known

theorem mem_all_of_ofId (known : ofId runtimeId = .ok runtime) : runtime ∈ all :=
  (of_ofId known).1

/-- The last letter of a source file's name is that of the ending of its runtime. -/
theorem getLast?_sourceFile (supported : runtime ∈ all) (function : Value) :
    (runtime.sourceFile function).toList.getLast? = some 's' ∨
      (runtime.sourceFile function).toList.getLast? = some 'y' := by
  unfold sourceFile
  simp only [all, List.mem_cons, List.not_mem_nil, or_false] at supported
  rcases supported with rfl | rfl
  · left
    simp [String.toList_append]
  · right
    simp [String.toList_append]

/-- No source file has the name of the ignore file or of the descriptor. -/
theorem sourceFile_ne (supported : runtime ∈ all) (function : Value) :
    runtime.sourceFile function ≠ ignoreFile ∧ runtime.sourceFile function ≠ descriptorFile := by
  have last := getLast?_sourceFile supported function
  constructor
  · intro equal
    rw [equal] at last
    revert last
    decide
  · intro equal
    rw [equal] at last
    revert last
    decide

/-- Different functions have different source files. -/
theorem sourceFile_injective {first second : String}
    (equal : runtime.sourceFile (.text first) = runtime.sourceFile (.text second)) :
    first = second := by
  have lists := congrArg String.toList equal
  simp only [sourceFile, Value.plain, Atom.plain, String.toList_append, List.append_assoc] at lists
  exact String.toList_injective (List.append_cancel_right lists)

end Runtime

section Scaffold

variable {runtime : Runtime} {functions : List Node}

theorem keys_scaffoldOf_cons (node : Node) (nodes : List Node) :
    Entries.keys (scaffoldOf runtime (node :: nodes)) =
      ignoreFile :: (node :: nodes).map fun node => runtime.sourceFile (.atom node.id) := by
  simp [scaffoldOf, Entries.keys]

theorem mem_keys_scaffoldOf {name : String} : name ∈ Entries.keys (scaffoldOf runtime functions) ↔
    (name = ignoreFile ∧ functions ≠ []) ∨
      ∃ node ∈ functions, name = runtime.sourceFile (.atom node.id) := by
  cases functions with
  | nil => simp [scaffoldOf]
  | cons node rest =>
      rw [keys_scaffoldOf_cons]
      simp [eq_comm]

theorem mem_scaffoldOf {name text : String} :
    (name, text) ∈ scaffoldOf runtime functions ↔
      (functions ≠ [] ∧ (name, text) = (ignoreFile, runtime.ignored)) ∨
        ∃ node ∈ functions,
          (name, text) = (runtime.sourceFile (.atom node.id), runtime.startingCode) := by
  cases functions <;> simp [scaffoldOf, eq_comm]

/-- One more function adds its source file, and the ignore file if it is the first. -/
theorem scaffoldOf_append (supported : runtime ∈ Runtime.all) (node : Node) (draft : Draft)
    (files : draft.files = scaffoldOf runtime functions)
    (fresh : ∀ other ∈ functions,
      runtime.sourceFile (.atom node.id) ≠ runtime.sourceFile (.atom other.id)) :
    ((draft.providing ignoreFile runtime.ignored).withFile (runtime.sourceFile (.atom node.id))
      runtime.startingCode).files = scaffoldOf runtime (functions ++ [node]) := by
  have exact := Entries.exact_name (runtime.sourceFile (.atom node.id))
  have different := (Runtime.sourceFile_ne supported (.atom node.id)).1
  have absent : runtime.sourceFile (.atom node.id) ∉
      Entries.keys (scaffoldOf runtime functions) := by
    rw [mem_keys_scaffoldOf]
    rintro (⟨equal, _⟩ | ⟨other, member, equal⟩)
    · exact different equal
    · exact fresh other member equal
  cases functions with
  | nil =>
      have missing : Entries.find? Project.sameName draft.files ignoreFile = none := by
        rw [files]
        rfl
      have ignoreOnly : runtime.sourceFile (.atom node.id) ∉
          Entries.keys [(ignoreFile, runtime.ignored)] := by
        simpa using different
      rw [Draft.providing_of_missing missing]
      simp only [Draft.withFile, files, scaffoldOf, Entries.put]
      exact Entries.put_of_not_mem exact ignoreOnly
  | cons first rest =>
      have present : Entries.find? Project.sameName draft.files ignoreFile =
          some runtime.ignored := by
        rw [files, scaffoldOf, Entries.find?_cons, if_pos (Entries.exact_name ignoreFile).same_self]
      rw [Draft.providing_of_present present]
      simp only [Draft.withFile, files]
      rw [Entries.put_of_not_mem exact absent]
      simp [scaffoldOf]

end Scaffold

theorem functionsIn_append (nodes : List Node) (node : Node) :
    functionsIn (nodes ++ [node]) =
      functionsIn nodes ++ if node.kind? = some .function then [node] else [] := by
  unfold functionsIn
  rw [List.filter_append]
  by_cases isFunction : node.kind? = some .function <;> simp [isFunction]

theorem mem_functionsIn {nodes : List Node} {node : Node} :
    node ∈ functionsIn nodes ↔ node ∈ nodes ∧ node.kind? = some .function := by
  simp [functionsIn]

namespace Graph

variable (graph : Graph)

/-- The plugin is there once after a visit of a function with statements. -/
theorem pluginsWithRoles_again (before : Bool) :
    Draft.pluginsWithRoles ((if before then some [.text rolesPlugin] else none).getD []) =
      [.text rolesPlugin] := by
  cases before <;> simp [Draft.pluginsWithRoles, Draft.isRoles]

/-- What a visit of a function changes, field by field. -/
theorem defining_eq (runtime : Runtime) (node : Node) (draft : Draft) :
    graph.defining runtime node draft =
      { draft with
        functions := Entries.put Atom.same draft.functions node.id (graph.definition runtime node)
        plugins? := if graph.hasStatements node then
            some (Draft.pluginsWithRoles (draft.plugins?.getD []))
          else draft.plugins?
        files := ((draft.providing ignoreFile runtime.ignored).withFile
          (runtime.sourceFile (.atom node.id)) runtime.startingCode).files } := by
  unfold defining hasStatements
  rw [Draft.providing_eq]
  cases (graph.grants node.targets).isEmpty <;> rfl

variable {graph}

/-- A visit of one more node takes the draft of the nodes before it to that of them all. -/
theorem visited_blueprintOf {runtime : Runtime} (supported : runtime ∈ Runtime.all) (order : Order)
    (nodes : List Node) {node : Node} {id : String} (idEq : node.id = .text id)
    (texts : ∀ other ∈ nodes, ∃ name, other.id = .text name)
    (fresh : ∀ other ∈ nodes, other.id ≠ node.id) :
    graph.visited runtime node (graph.blueprintOf order runtime nodes) =
      graph.blueprintOf order runtime (nodes ++ [node]) := by
  by_cases isFunction : node.kind? = some .function
  · have functions : functionsIn (nodes ++ [node]) = functionsIn nodes ++ [node] := by
      rw [functionsIn_append, if_pos isFunction]
    have stores : graph.stores node = [] := by simp [stores, isFunction, resourcesOf]
    have newFunction : node.id ∉
        Entries.keys (graph.blueprintOf order runtime nodes).functions := by
      intro member
      obtain ⟨other, otherMember, equal⟩ : ∃ other ∈ functionsIn nodes, other.id = node.id := by
        simpa [blueprintOf, Entries.keys] using member
      exact fresh other (mem_functionsIn.1 otherMember).1 equal
    have defined : Entries.put Atom.same (graph.blueprintOf order runtime nodes).functions node.id
        (graph.definition runtime node) =
        (graph.blueprintOf order runtime (nodes ++ [node])).functions := by
      rw [Entries.put_of_not_mem (idEq ▸ Entries.exact_text id) newFunction]
      simp [blueprintOf, functions]
    have newFile : ∀ other ∈ functionsIn nodes,
        runtime.sourceFile (.atom node.id) ≠ runtime.sourceFile (.atom other.id) := by
      intro other member equal
      obtain ⟨name, nameEq⟩ := texts other (mem_functionsIn.1 member).1
      rw [idEq, nameEq] at equal
      exact fresh other (mem_functionsIn.1 member).1
        (nameEq.trans (idEq.trans (congrArg Atom.text (Runtime.sourceFile_injective equal))).symm)
    have filed :=
      scaffoldOf_append supported node (graph.blueprintOf order runtime nodes) rfl newFile
    have plugins : (if graph.hasStatements node then
          some (Draft.pluginsWithRoles ((graph.blueprintOf order runtime nodes).plugins?.getD []))
        else (graph.blueprintOf order runtime nodes).plugins?) =
        (graph.blueprintOf order runtime (nodes ++ [node])).plugins? := by
      simp only [blueprintOf, functions, pluginsWithRoles_again, List.any_append, List.any_cons,
        List.any_nil, Bool.or_false]
      cases graph.hasStatements node <;> simp
    rw [visited, if_pos isFunction, defining_eq, defined, filed, plugins]
    simp [blueprintOf, functions, stores]
  · have functions : functionsIn (nodes ++ [node]) = functionsIn nodes := by
      rw [functionsIn_append, if_neg isFunction, List.append_nil]
    rw [visited, if_neg isFunction]
    simp only [blueprintOf, Draft.storing, functions, List.flatMap_append, List.flatMap_singleton,
      Entries.ofPairs_eq_putAll, Entries.putAll_append]

end Graph

theorem Draft.summary_project (draft : Draft) :
    ∃ record, draft.project.summary = .ok record := by
  unfold Project.summary
  rw [Draft.functions_project, Draft.resources_project]
  exact ⟨_, rfl⟩

namespace Graph

variable {graph : Graph}

theorem stores_of_isOf {node : Node} {kind : Kind} (isOf : node.IsOf kind) :
    graph.stores node = graph.resourcesOf node kind := by
  rw [stores, Node.kind?_eq_some_iff.2 isOf]

/-- A compilation ends as its plan does: its summary never fails. -/
theorem compile_of_ends {order : Order} {result : Except Fault Unit} (draft : Draft)
    (ends : Ends (graph.plan order.runtime)
      (Project.create order.service order.runtime order.provider) result draft.project) :
    (graph.compile order).result = result >>= fun _ => .ok draft.project := by
  obtain ⟨record, summary⟩ := draft.summary_project
  obtain ⟨ended, left⟩ := ends.carryOut_eq
  unfold Graph.compile
  simp only [Trace.result_bind, ended, left, summary, Trace.result_lift]
  cases result <;> rfl

/-- When a graph compiles, its runtime is known and every visit has ended well. -/
theorem visits_of_compile {order : Order} {project : Project}
    (compiled : (graph.compile order).result = .ok project) :
    ∃ runtime, Runtime.ofId order.runtime = .ok runtime ∧
      ∀ node ∈ graph.nodeList, ∃ kind, node.kind? = some kind ∧
        (graph.visit order.runtime kind node).result = .ok () := by
  unfold Graph.compile at compiled
  obtain ⟨_, ended, _⟩ := Trace.result_bind_eq_ok.1 compiled
  obtain ⟨runtime, known, visits⟩ := Trace.result_bind_eq_ok.1 (Plan.result_of_carryOut ended)
  refine ⟨runtime, known, ?_⟩
  generalize graph.nodeList = nodes at visits
  induction nodes with
  | nil => simp
  | cons node nodes ih =>
      obtain ⟨_, first, rest⟩ := Trace.result_bind_eq_ok.1 visits
      obtain ⟨_, _, first⟩ := Trace.result_bind_eq_ok.1 first
      obtain ⟨kind, named, visit⟩ := Trace.result_bind_eq_ok.1 first
      have isOf := Node.kind?_eq_some_iff.2 (Kind.ofValue_eq_ok_iff.1 named)
      exact List.forall_mem_cons.2 ⟨⟨kind, isOf, visit⟩, ih rest⟩

/-- The plan of an unknown runtime looks at no node. -/
theorem plan_of_unknown {runtimeId : Value} {fault : Fault}
    (unknown : Runtime.ofId runtimeId = .error fault) (project : Project) :
    Ends (graph.plan runtimeId) project (.error fault) project := by
  unfold Graph.plan
  rw [unknown]
  exact Ends.bind_fault Ends.lift

end Graph

namespace Graph.Proper

variable {graph : Graph} (proper : graph.Proper) (typed : graph.Typed) {runtimeId : Value}
  {runtime : Runtime} (known : Runtime.ofId runtimeId = .ok runtime)

include proper typed known

/-- A visit ends with the fault of its node, and otherwise it takes the draft one step on. -/
theorem planNode_ends {node : Node} (member : node ∈ graph.nodeList) (draft : Draft) :
    ∃ after : Draft, Ends (graph.planNode runtimeId node) draft.project
        (unlessFault (graph.fault? node) ()) after.project ∧
      (graph.fault? node = none → after = graph.visited runtime node draft) := by
  unfold Graph.planNode fault?
  cases kindEq : node.kind? with
  | none =>
      obtain ⟨type, typeEq⟩ := typed node member
      rw [Node.ofValue_of_no_kind typeEq kindEq]
      exact ⟨draft, Ends.after_note (Ends.bind_fault Ends.lift), by simp⟩
  | some kind =>
      rw [Kind.ofValue_eq_ok_iff.2 (Node.kind?_eq_some_iff.1 kindEq)]
      by_cases isFunction : kind = .function
      · subst isFunction
        obtain ⟨after, ends, whole⟩ := proper.visitFunction_ends typed draft known member kindEq
        refine ⟨after, Ends.after_note (Ends.after_lift ends), fun clear => ?_⟩
        rw [whole clear, visited, if_pos kindEq]
      · obtain ⟨resources, adds, whole⟩ := proper.visit_adds typed runtimeId member isFunction
        refine ⟨draft.storing resources, Ends.after_note (Ends.after_lift (adds.ends draft)), ?_⟩
        intro clear
        have noFunction : node.kind? ≠ some .function := by simpa [kindEq] using isFunction
        rw [whole clear, visited, if_neg noFunction, stores, kindEq]

/-- Visits of some nodes end with the fault of the first node that has one, and otherwise
they take the draft one step on for each node. -/
theorem planNodes_ends (nodes : List Node) (members : ∀ node ∈ nodes, node ∈ graph.nodeList)
    (draft : Draft) :
    ∃ after : Draft, Ends (graph.planNodes runtimeId nodes) draft.project
        (unlessFault (nodes.findSome? graph.fault?) ()) after.project ∧
      (nodes.findSome? graph.fault? = none →
        after = nodes.foldl (fun draft node => graph.visited runtime node draft) draft) := by
  induction nodes generalizing draft with
  | nil => exact ⟨draft, Ends.pure, fun _ => rfl⟩
  | cons node nodes ih =>
      obtain ⟨next, ends, whole⟩ :=
        proper.planNode_ends typed known (members node List.mem_cons_self) draft
      unfold Graph.planNodes
      rw [List.findSome?_cons]
      cases failed : graph.fault? node with
      | some fault =>
          rw [failed] at ends
          exact ⟨next, Ends.bind_fault ends, by simp⟩
      | none =>
          rw [failed] at ends
          obtain rfl := whole failed
          obtain ⟨after, restEnd, restWhole⟩ :=
            ih (fun node member => members node (List.mem_cons_of_mem _ member)) _
          exact ⟨after, Ends.bind ends restEnd, restWhole⟩

end Graph.Proper

namespace Graph.Proper

variable {graph : Graph} (proper : graph.Proper) {order : Order}

include proper

/-- Visits of the nodes in order lead from an empty draft to the blueprint. -/
theorem foldl_visited {runtime : Runtime} (supported : runtime ∈ Runtime.all) :
    graph.nodeList.foldl (fun draft node => graph.visited runtime node draft)
        (Draft.empty order.service order.runtime order.provider) =
      graph.blueprint order runtime := by
  have step : ∀ (later earlier : List Node), graph.nodeList = earlier ++ later →
      later.foldl (fun draft node => graph.visited runtime node draft)
          (graph.blueprintOf order runtime earlier) =
        graph.blueprintOf order runtime (earlier ++ later) := by
    intro later
    induction later with
    | nil =>
        intro earlier _
        rw [List.append_nil]
        rfl
    | cons node later ih =>
        intro earlier split
        have member : node ∈ graph.nodeList := by simp [split]
        have before : ∀ other ∈ earlier, other ∈ graph.nodeList := by
          intro other otherMember
          simp [split, otherMember]
        obtain ⟨id, idEq⟩ := proper.textual.ids node member
        have distinct := proper.nodup_ids
        rw [split, List.map_append, List.map_cons] at distinct
        have fresh : ∀ other ∈ earlier, other.id ≠ node.id := by
          intro other otherMember
          exact (List.nodup_append.1 distinct).2.2 _ (List.mem_map_of_mem otherMember) _
            List.mem_cons_self
        rw [List.foldl_cons, visited_blueprintOf supported order earlier idEq
          (fun other otherMember => proper.textual.ids other (before other otherMember)) fresh]
        simpa using ih (earlier ++ [node]) (by simp [split])
  exact step graph.nodeList [] rfl

/-- The plan of a graph: no edit fails, and without a fault of a node the edits lead to the
blueprint. -/
theorem plan_ends (typed : graph.Typed) {runtime : Runtime}
    (known : Runtime.ofId order.runtime = .ok runtime) :
    ∃ after : Draft, Ends (graph.plan order.runtime)
        (Project.create order.service order.runtime order.provider)
        (unlessFault (graph.nodeList.findSome? graph.fault?) ()) after.project ∧
      (graph.nodeList.findSome? graph.fault? = none → after = graph.blueprint order runtime) := by
  obtain ⟨after, ends, whole⟩ := proper.planNodes_ends typed known graph.nodeList
    (fun _ member => member) (Draft.empty order.service order.runtime order.provider)
  rw [proper.foldl_visited (Runtime.mem_all_of_ofId known)] at whole
  unfold Graph.plan
  rw [known]
  exact ⟨after, Ends.after_lift ends, whole⟩

/-- A compilation ends with the fault of the first node that has one, and otherwise with the
blueprint. -/
theorem compile_result (typed : graph.Typed) {runtime : Runtime}
    (known : Runtime.ofId order.runtime = .ok runtime) :
    (graph.compile order).result =
      unlessFault (graph.nodeList.findSome? graph.fault?)
        (graph.blueprint order runtime).project := by
  obtain ⟨after, ends, whole⟩ := proper.plan_ends typed known
  rw [compile_of_ends after ends]
  cases failed : graph.nodeList.findSome? graph.fault? with
  | some fault => rfl
  | none =>
      rw [whole failed]
      rfl

omit proper in
/-- Only a graph whose types are all texts compiles, and only for a known runtime. -/
theorem typed_of_compile {project : Project}
    (compiled : (graph.compile order).result = .ok project) :
    graph.Typed ∧ ∃ runtime, Runtime.ofId order.runtime = .ok runtime := by
  obtain ⟨runtime, known, visits⟩ := visits_of_compile compiled
  refine ⟨fun node member => ?_, runtime, known⟩
  obtain ⟨kind, isOf, _⟩ := visits node member
  exact ⟨kind.name, Node.kind?_eq_some_iff.1 isOf⟩

/-- What a graph compiles to, if it compiles, is its blueprint. -/
theorem eq_blueprint {project : Project} (compiled : (graph.compile order).result = .ok project) :
    ∃ runtime, Runtime.ofId order.runtime = .ok runtime ∧
      graph.nodeList.findSome? graph.fault? = none ∧
      project = (graph.blueprint order runtime).project := by
  obtain ⟨typed, runtime, known⟩ := typed_of_compile compiled
  refine ⟨runtime, known, ?_⟩
  rw [proper.compile_result typed known] at compiled
  cases failed : graph.nodeList.findSome? graph.fault? with
  | some fault => simp [failed, unlessFault] at compiled
  | none =>
      rw [failed] at compiled
      exact ⟨rfl, (Except.ok.inj compiled).symm⟩

end Graph.Proper

/-- The nodes of an architecture that makes thumbnails: a function reads from a bucket and
writes to a table, a delivery stream fills the bucket, and one topic rule publishes to another
that calls the function. -/
def thumbnailNodes : List Node := [
  ⟨.text "photos", .text "bucket", .text "", [], []⟩,
  ⟨.text "resize", .text "fn", .text "Makes thumbnails", [.text "photos"], [.text "index"]⟩,
  ⟨.text "index", .text "table", .text "", [], []⟩,
  ⟨.text "archive", .text "deliveryStream", .text "", [], [.text "photos"]⟩,
  ⟨.text "alarm", .text "iotRule", .text "", [], [.text "relay"]⟩,
  ⟨.text "relay", .text "iotRule", .text "", [.text "alarm"], [.text "resize"]⟩]

/-- The architecture that makes thumbnails. -/
def thumbnails : Graph :=
  .ofNodes thumbnailNodes

theorem nodeList_thumbnails : thumbnails.nodeList = thumbnailNodes := rfl

theorem thumbnails_loaded :
    Graph.ofValue (.record [("nodes", .list (thumbnailNodes.map Node.toValue))]) = .ok thumbnails :=
  rfl

theorem thumbnails_textual : thumbnails.Textual := by
  constructor <;> simp [nodeList_thumbnails, thumbnailNodes]

theorem thumbnails_typed : thumbnails.Typed := by
  simp [Graph.Typed, nodeList_thumbnails, thumbnailNodes]

/-- An order of the architecture for one of the runtimes. -/
def thumbnailOrder : Order := { runtime := .text "python3.7" }

theorem thumbnails_clear : thumbnails.nodeList.findSome? thumbnails.fault? = none := by
  decide +kernel

theorem thumbnails_compiles :
    ∃ project, (thumbnails.compile thumbnailOrder).result = .ok project := by
  have proper := Graph.proper_of_ofValue thumbnails_loaded thumbnails_textual
  obtain ⟨runtime, known⟩ : ∃ runtime, Runtime.ofId thumbnailOrder.runtime = .ok runtime := ⟨_, rfl⟩
  rw [proper.compile_result thumbnails_typed known, thumbnails_clear]
  exact ⟨_, rfl⟩

end CloudGraph
