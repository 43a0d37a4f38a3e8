import CloudGraph.Proofs.Contribution

/-!
# What visits write

`Graph.writes` reads the resources that a visit writes off its edits; those inside functions are
none of them (`Edit.IsInner`). Without a fault these are the resources that the node stores.
`Graph.WritesApart` says that no two nodes write the same key, but for the role that topic rules
share; then every node finds its own resources in the blueprint, as `Graph.Proper.find?_resources`
says.
-/

namespace CloudGraph

open Fragment

/-- Whether an edit is one of files. -/
def Edit.isFile : Edit → Bool
  | .write .. | .provide .. => true
  | .note _ | .assign .. | .default .. | .append .. | .include .. => false

/-- An edit that stores neither a resource nor a file. -/
def Edit.IsInner (edit : Edit) : Prop :=
  edit.resource? = none ∧ edit.isFile = false

namespace Plan

variable {α β : Type}

theorem stored_bind_ok {first : Plan α} {next : α → Plan β} {value : α}
    (ended : first.result = .ok value) :
    stored (first >>= next) = stored first ++ stored (next value) := by
  unfold stored
  rw [Trace.steps_bind_ok ended, List.filterMap_append]

theorem stored_bind_nil {first : Plan α} {next : α → Plan β} (firstNone : stored first = [])
    (nextNone : ∀ value, stored (next value) = []) : stored (first >>= next) = [] := by
  cases ended : first.result with
  | ok value => rw [stored_bind_ok ended, firstNone, nextNone value, List.append_nil]
  | error fault => rw [stored, Trace.steps_bind_error ended, ← stored, firstNone]

/-- A plan of inner edits stores no resource. -/
theorem stored_of_inner {plan : Plan α} (inner : Every Edit.IsInner plan) : stored plan = [] :=
  List.filterMap_eq_nil_iff.2 fun edit member => (inner edit member).1

theorem inner_note (level : Level) (source : Source) (message : String) :
    Every Edit.IsInner (note level source message) :=
  Every.step ⟨rfl, rfl⟩

theorem inner_setFunctionField (id : Atom) (name : String) (value : Value) :
    Every Edit.IsInner (setFunctionField id name value) := by
  refine Every.step ⟨?_, rfl⟩
  simp [Edit.resource?, Project.functionsPath, Project.resourcesPath]

theorem inner_addInlineEvent (target : Atom) (start : String) (source event : Value) :
    Every Edit.IsInner (addInlineEvent target start source event) := by
  refine Every.bind (Every.step ⟨rfl, rfl⟩) fun _ => Every.bind (Every.step ⟨rfl, rfl⟩) fun _ =>
    Every.bind Every.lift fun name => Every.step ⟨?_, rfl⟩
  simp [Edit.resource?, Project.resourcesPath]

theorem inner_attachStatements (function : Atom) (statements : List Value) :
    Every Edit.IsInner (attachStatements function statements) := by
  unfold attachStatements
  split
  · exact Every.pure
  · exact Every.bind (inner_setFunctionField _ _ _) fun _ =>
      Every.bind (Every.step ⟨rfl, rfl⟩) fun _ => Every.step ⟨rfl, rfl⟩

end Plan

namespace Graph

open Plan

variable (graph : Graph)

theorem inner_statements (source : Value) (targets : List Value) :
    Every Edit.IsInner (graph.statements source targets) := by
  induction targets with
  | nil => exact Every.pure
  | cons target targets ih =>
      refine Every.bind (inner_note _ _ _) fun _ => Every.bind Every.lift fun kind => ?_
      cases grant kind target with
      | none => exact Every.bind (inner_note _ _ _) fun _ => ih
      | some statement => exact Every.bind ih fun _ => Every.pure

theorem inner_wire (kind : Kind) (target source : Value) :
    Every Edit.IsInner (graph.wire kind target source) := by
  refine Every.bind Every.lift fun isFunction => Every.bind Every.lift fun targetId => ?_
  cases isFunction with
  | true =>
      cases trigger kind source with
      | none => exact inner_note _ _ _
      | some event => exact Every.bind (Every.step ⟨rfl, rfl⟩) fun _ => Every.step ⟨rfl, rfl⟩
  | false =>
      cases inlineEvent kind source with
      | none => exact inner_note _ _ _
      | some event =>
          refine Every.bind (inner_addInlineEvent _ _ _ _) fun _ => ?_
          by_cases isBucket : kind = .bucket
          · rw [if_pos isBucket]
            exact Every.bind (Every.step ⟨rfl, rfl⟩) fun _ => Every.step ⟨rfl, rfl⟩
          · rw [if_neg isBucket]
            exact Every.pure

theorem inner_wireSources (function : Value) (sources : List Value) :
    Every Edit.IsInner (graph.wireSources function sources) := by
  induction sources with
  | nil => exact Every.pure
  | cons source sources ih =>
      exact Every.bind (inner_note _ _ _) fun _ => Every.bind Every.lift fun kind =>
        Every.bind (graph.inner_wire kind function source) fun _ => ih

theorem inner_visitSources (node : Node) : Every Edit.IsInner (graph.visitSources node) := by
  unfold Graph.visitSources
  split
  · exact Every.pure
  · exact Every.bind (inner_setFunctionField _ _ _) fun _ => graph.inner_wireSources _ _

theorem inner_visitTargets (node : Node) : Every Edit.IsInner (graph.visitTargets node) := by
  unfold Graph.visitTargets
  split
  · exact Every.pure
  · exact Every.bind (graph.inner_statements _ _) fun _ => inner_attachStatements _ _

/-- A visit of a function writes no resource. -/
theorem stored_visitFunction (runtimeId : Value) (node : Node) :
    stored (graph.visitFunction runtimeId node) = [] := by
  refine stored_bind_nil rfl fun runtime => stored_bind_nil rfl fun _ => stored_bind_nil rfl fun _ =>
    stored_bind_nil rfl fun _ => ?_
  exact stored_bind_nil (stored_of_inner (graph.inner_visitSources node)) fun _ =>
    stored_of_inner (graph.inner_visitTargets node)

/-- The resources that a visit of a node writes, in order. -/
def writes (runtimeId : Value) (node : Node) : List (Atom × Value) :=
  stored (graph.planNode runtimeId node)

/-- A topic rule leads to the topic rule of an id, and makes the role for it. -/
structure Republishes (node : Node) (id : String) : Prop where
  isOf : node.IsOf .topicRule
  leads : .text id ∈ node.targets
  isRule : ∃ target ∈ graph.nodeList, target.id = .text id ∧ target.IsOf .topicRule

/-- No two nodes write a resource of the same key, except the role that both make for one
topic rule. -/
def WritesApart (runtimeId : Value) : Prop :=
  ∀ first ∈ graph.nodeList, ∀ second ∈ graph.nodeList, first ≠ second →
    ∀ key ∈ Entries.keys (graph.writes runtimeId first),
      key ∈ Entries.keys (graph.writes runtimeId second) →
      ∃ id, key = .text (id ++ "PublishRole") ∧
        graph.Republishes first id ∧ graph.Republishes second id

end Graph

namespace Entries

variable {κ α : Type} {same : κ → κ → Bool} {key : κ} {value : α}

/-- The last value under a key is the one that all later pairs of the key repeat. -/
theorem lastOf_of_split [DecidableEq κ] {pairs later : List (κ × α)} (earlier : List (κ × α))
    (exactKey : Exact same key) (exact : AllExact same pairs)
    (split : pairs = earlier ++ (key, value) :: later)
    (repeated : ∀ pair ∈ later, pair.1 = key → pair.2 = value) :
    lastOf same pairs key = some value := by
  have exactLater : AllExact same later := by
    intro pair member
    exact exact pair (split ▸ List.mem_append_right _ (List.mem_cons_of_mem _ member))
  rw [lastOf, ofPairs_eq_putAll, split, putAll_append, putAll_cons,
    find?_putAll exactKey exactLater]
  cases last : find? same (putAll same [] later) key with
  | none => rw [Option.none_or, find?_put_self exactKey]
  | some other =>
      have member := mem_of_mem_ofPairs exactLater (mem_of_find? exactKey last)
      rw [Option.some_or]
      exact congrArg some (repeated _ member rfl)

end Entries

namespace Graph.Proper

variable {graph : Graph} (proper : graph.Proper) {node : Node}

include proper

/-- Without a fault, a visit writes what its node stores. -/
theorem writes_eq_stores (typed : graph.Typed) (runtimeId : Value) (member : node ∈ graph.nodeList)
    (clear : graph.fault? node = none) : graph.writes runtimeId node = graph.stores node := by
  cases kindEq : node.kind? with
  | none => simp [fault?, kindEq] at clear
  | some kind =>
      have isOf := Node.kind?_eq_some_iff.1 kindEq
      have visited : graph.writes runtimeId node =
          Plan.stored (graph.visit runtimeId kind node) := by
        unfold writes planNode
        rw [Kind.ofValue_eq_ok_iff.2 isOf, Plan.stored_bind_ok rfl, Plan.stored_bind_ok rfl]
        rfl
      rw [visited, stores_of_isOf isOf]
      by_cases isFunction : kind = .function
      · subst isFunction
        exact graph.stored_visitFunction runtimeId node
      · obtain ⟨resources, adds, whole⟩ := proper.visit_adds typed runtimeId member isFunction
        rw [fault?, kindEq] at clear
        rw [adds.stored, whole clear]

/-- A topic rule leaves the role for every topic rule that it leads to. -/
theorem lastOf_stores_role (member : node ∈ graph.nodeList) (clear : graph.fault? node = none)
    {id : String} (republishes : graph.Republishes node id) :
    Entries.lastOf Atom.same (graph.stores node) (.text (id ++ "PublishRole")) =
      some (republishRole outputTopics) := by
  obtain ⟨target, targetMember, targetId, isRule⟩ := republishes.isRule
  obtain ⟨earlier, later, split, repeated⟩ := actionResources_split node true []
    (proper.target_kinds member republishes.isOf clear) republishes.leads
    (proper.isOfKind_iff_isOf.2 ⟨target, targetMember, targetId, isRule⟩)
  have whole : graph.stores node =
      ((node.id, topicRuleResource node.description []) :: earlier) ++
        (.text (id ++ "PublishRole"), republishRole outputTopics) :: later := by
    rw [stores_of_isOf republishes.isOf, resourcesOf, split]
    rfl
  exact Entries.lastOf_of_split _ (Entries.exact_text _) (proper.allExact_stores member)
    whole repeated

/-- Two nodes that write apart leave the same under a key that both write. -/
theorem agree_of_writesApart {runtimeId : Value} (typed : graph.Typed)
    (clear : graph.nodeList.findSome? graph.fault? = none) (apart : graph.WritesApart runtimeId)
    {name : String} {first second : Node} (firstMember : first ∈ graph.nodeList)
    (secondMember : second ∈ graph.nodeList) {a b : Value}
    (firstLeaves : Entries.lastOf Atom.same (graph.stores first) (.text name) = some a)
    (secondLeaves : Entries.lastOf Atom.same (graph.stores second) (.text name) = some b) :
    a = b := by
  by_cases same : first = second
  · rw [same, secondLeaves] at firstLeaves
    exact (Option.some.inj firstLeaves).symm
  · have written : ∀ node ∈ graph.nodeList, ∀ value,
        Entries.lastOf Atom.same (graph.stores node) (.text name) = some value →
        .text name ∈ Entries.keys (graph.writes runtimeId node) := by
      intro node member value leaves
      rw [proper.writes_eq_stores typed runtimeId member
          (List.findSome?_eq_none_iff.1 clear node member),
        Entries.mem_keys_iff_lastOf (Entries.exact_text name) (proper.allExact_stores member)]
      exact ⟨value, leaves⟩
    obtain ⟨id, nameEq, firstMakes, secondMakes⟩ := apart first firstMember second secondMember same
      (.text name) (written first firstMember a firstLeaves)
      (written second secondMember b secondLeaves)
    rw [nameEq, proper.lastOf_stores_role firstMember
      (List.findSome?_eq_none_iff.1 clear first firstMember) firstMakes] at firstLeaves
    rw [nameEq, proper.lastOf_stores_role secondMember
      (List.findSome?_eq_none_iff.1 clear second secondMember) secondMakes] at secondLeaves
    exact Option.some.inj (firstLeaves.symm.trans secondLeaves)

/-- When nodes write apart, each finds its own resources in the blueprint. -/
theorem find?_resources {runtimeId : Value} (typed : graph.Typed)
    (clear : graph.nodeList.findSome? graph.fault? = none) (apart : graph.WritesApart runtimeId)
    {nodes : List Node} (members : ∀ node ∈ nodes, node ∈ graph.nodeList) {name : String}
    {value : Value} :
    Entries.find? Atom.same (Entries.ofPairs Atom.same (nodes.flatMap graph.stores)) (.text name) =
        some value ↔
      ∃ node ∈ nodes, Entries.lastOf Atom.same (graph.stores node) (.text name) = some value :=
  Entries.find?_putAll_of_agreeing (Entries.exact_text name)
    (fun node member => proper.allExact_stores (members node member))
    fun _ firstMember _ secondMember _ _ => proper.agree_of_writesApart typed clear apart
      (members _ firstMember) (members _ secondMember)

/-- When nodes write apart, what they leave by themselves is what is there in the end. -/
theorem mem_resources_iff {runtimeId : Value} (typed : graph.Typed)
    (clear : graph.nodeList.findSome? graph.fault? = none) (apart : graph.WritesApart runtimeId)
    {nodes : List Node} (members : ∀ node ∈ nodes, node ∈ graph.nodeList) {pair : Atom × Value} :
    pair ∈ Entries.ofPairs Atom.same (nodes.flatMap graph.stores) ↔
      ∃ name, pair.1 = .text name ∧ ∃ node ∈ nodes,
        Entries.lastOf Atom.same (graph.stores node) (.text name) = some pair.2 := by
  obtain ⟨key, value⟩ := pair
  have distinct := proper.nodup_keys_stored members
  constructor
  · intro member
    obtain ⟨node, nodeMember, stored⟩ := proper.stored_of_mem_ofPairs members member
    obtain ⟨name, rfl⟩ := proper.stores_text (members node nodeMember) stored
    exact ⟨name, rfl, (proper.find?_resources typed clear apart members).1
      (Entries.find?_of_mem (Entries.exact_text name) distinct member)⟩
  · rintro ⟨name, rfl, leaves⟩
    exact Entries.mem_of_find? (Entries.exact_text name)
      ((proper.find?_resources typed clear apart members).2 leaves)

end Graph.Proper

namespace Graph

theorem thumbnails_writesApart : thumbnails.WritesApart thumbnailOrder.runtime := by
  have apart : ∀ first ∈ thumbnailNodes, ∀ second ∈ thumbnailNodes, first.id = second.id ∨
      ∀ key ∈ Entries.keys (thumbnails.writes thumbnailOrder.runtime first),
        key ∉ Entries.keys (thumbnails.writes thumbnailOrder.runtime second) := by
    decide +kernel
  have distinct : (thumbnailNodes.map (·.id)).Nodup := by decide
  intro first firstMember second secondMember different key written again
  rw [nodeList_thumbnails] at firstMember secondMember
  rcases apart first firstMember second secondMember with equal | disjoint
  · exact absurd (List.inj_on_of_nodup_map distinct firstMember secondMember equal) different
  · exact absurd again (disjoint key written)

end Graph

end CloudGraph
