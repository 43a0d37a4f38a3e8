import CloudGraph.Proofs.Actions

/-!
# What nodes contribute

`Graph.Contributes` lists the resources that a node can store, one constructor for each, with
the reason for it. Every property of what is stored follows by cases from
`Graph.Proper.contributes_of_mem`; the lists of `Graph.resourcesOf` are taken apart there and
nowhere else.
-/

namespace CloudGraph

open Fragment

/-- The resource of a kind that has one in any case, whatever the node. -/
def fixedResource? : Kind → Option Value
  | .bucket => some (plainResource "AWS::S3::Bucket")
  | .table => some tableResource
  | .stream => some streamResource
  | .topic => some (plainResource "AWS::SNS::Topic")
  | .stepFunction => some stateMachineResource
  | .api | .deliveryStream | .analyticsStream | .schedule | .function | .identityPool
  | .topicRule => none

namespace Graph

variable (graph : Graph)

/-- What a node of an id contributes to the resources. -/
inductive Contributes (node : Node) (id : String) : Atom × Value → Prop where
  | fixed {kind resource} (isOf : node.IsOf kind) (isFixed : fixedResource? kind = some resource) :
      Contributes node id (.text id, resource)
  | deliveryStream {bucket} (isOf : node.IsOf .deliveryStream)
      (last : graph.lastOf? .bucket node.targets = some (.text bucket)) :
      Contributes node id (.text id,
        deliveryStreamResource (.text bucket) (id ++ "DeliveryRole") (id ++ "DeliveryPolicy")
          (graph.lastOf? .function node.targets))
  | deliveryRole {bucket} (isOf : node.IsOf .deliveryStream)
      (last : graph.lastOf? .bucket node.targets = some (.text bucket)) :
      Contributes node id (.text (id ++ "DeliveryRole"), CloudGraph.deliveryRole)
  | deliveryPolicy {bucket} (isOf : node.IsOf .deliveryStream)
      (last : graph.lastOf? .bucket node.targets = some (.text bucket)) :
      Contributes node id (.text (id ++ "DeliveryPolicy"),
        CloudGraph.deliveryPolicy (.text bucket) (id ++ "DeliveryRole"))
  | application (isOf : node.IsOf .analyticsStream) :
      Contributes node id (.text id, analyticsResource (.text id) node.description
        (analyticsEnds "KinesisStreamsInput" "KinesisFirehoseInput" (id ++ "Role")
          (graph.lastOf? .stream node.sources) (graph.lastOf? .deliveryStream node.sources)))
  | analyticsRole (isOf : node.IsOf .analyticsStream) :
      Contributes node id (.text (id ++ "Role"), CloudGraph.analyticsRole)
  | outputs (isOf : node.IsOf .analyticsStream) :
      Contributes node id (.text (id ++ "Outputs"), analyticsOutputs (.text id)
        (analyticsEnds "KinesisStreamsOutput" "KinesisFirehoseOutput" (id ++ "Role")
          (graph.lastOf? .stream node.targets) (graph.lastOf? .deliveryStream node.targets)))
  | identityPool (isOf : node.IsOf .identityPool) :
      Contributes node id (.text id, identityPoolResource)
  | identityRole (isOf : node.IsOf .identityPool) :
      Contributes node id (.text (id ++ "CognitoUnauthRole"), CloudGraph.identityRole (.text id))
  | identityPolicy (isOf : node.IsOf .identityPool) :
      Contributes node id (.text (id ++ "CognitoUnauthPolicy"),
        CloudGraph.identityPolicy (id ++ "CognitoUnauthRole") (graph.grants node.targets))
  | topicRule {actions} (isOf : node.IsOf .topicRule)
      (each : ∀ action ∈ actions, ∃ target ∈ node.targets, graph.ActionOf target action) :
      Contributes node id (.text id, topicRuleResource node.description actions)
  | publishRole {target} (isOf : node.IsOf .topicRule) (leads : .text target ∈ node.targets)
      (isRule : graph.isOfKind .topicRule (.text target) = true) :
      Contributes node id (.text (target ++ "PublishRole"), republishRole outputTopics)

end Graph

namespace Graph.Proper

variable {graph : Graph} (proper : graph.Proper) {node : Node} (member : node ∈ graph.nodeList)

include proper member

theorem contributes_of_mem_deliveryResources (isOf : node.IsOf .deliveryStream) {id : String}
    (idEq : node.id = .text id) {pair : Atom × Value}
    (stored : pair ∈ graph.deliveryResources node) :
    graph.Contributes node id pair := by
  unfold deliveryResources at stored
  cases last : graph.lastOf? .bucket node.targets with
  | none => simp [last] at stored
  | some bucket =>
      obtain ⟨bucketId, rfl⟩ := exists_text_of_lastOf? (proper.targets_text member) last
      simp only [last, idEq, List.mem_cons, List.not_mem_nil, or_false] at stored
      rcases stored with rfl | rfl | rfl
      exacts [.deliveryStream isOf last, .deliveryRole isOf last, .deliveryPolicy isOf last]

theorem contributes_of_mem_actionResources (isOf : node.IsOf .topicRule) {id : String}
    (idEq : node.id = .text id) {pair : Atom × Value}
    (stored : pair ∈ graph.resourcesOf node .topicRule) : graph.Contributes node id pair := by
  have kept : graph.ActionStores node node.targets pair := by
    rcases List.mem_cons.1 stored with rfl | later
    · exact .rule (by simp)
    · exact actionStores_of_mem (fun _ part => part) (by simp) later
  cases kept with
  | rule each => exact idEq ▸ .topicRule isOf each
  | role leads isRule =>
      obtain ⟨target, rfl⟩ := proper.targets_text member _ leads
      exact .publishRole isOf leads isRule

/-- Everything that a node stores is something that it contributes. -/
theorem contributes_of_mem {id : String} (idEq : node.id = .text id) {pair : Atom × Value}
    (stored : pair ∈ graph.stores node) : graph.Contributes node id pair := by
  cases kindEq : node.kind? with
  | none => simp [stores, kindEq] at stored
  | some kind =>
      have isOf := Node.kind?_eq_some_iff.1 kindEq
      rw [stores_of_isOf isOf] at stored
      cases kind with
      | function | api | schedule => cases stored
      | bucket | table | stream | topic | stepFunction =>
          obtain rfl := List.mem_singleton.1 stored
          exact idEq ▸ .fixed isOf rfl
      | deliveryStream => exact proper.contributes_of_mem_deliveryResources member isOf idEq stored
      | analyticsStream =>
          simp only [resourcesOf, analyticsResources, idEq, List.mem_cons, List.not_mem_nil,
            or_false] at stored
          rcases stored with rfl | rfl | rfl
          exacts [.application isOf, .analyticsRole isOf, .outputs isOf]
      | identityPool =>
          simp only [resourcesOf, poolResources, poolPolicy, idEq, List.cons_append,
            List.nil_append, List.mem_cons, List.not_mem_nil, or_false] at stored
          rcases stored with rfl | rfl | rfl
          exacts [.identityPool isOf, .identityRole isOf, .identityPolicy isOf]
      | topicRule => exact proper.contributes_of_mem_actionResources member isOf idEq stored

/-- Everything that a node stores stands under a text. -/
theorem stores_text {pair : Atom × Value} (stored : pair ∈ graph.stores node) :
    ∃ name, pair.1 = .text name := by
  obtain ⟨id, idEq⟩ := proper.textual.ids node member
  cases proper.contributes_of_mem member idEq stored <;> exact ⟨_, rfl⟩

theorem allExact_stores : Entries.AllExact Atom.same (graph.stores node) := by
  intro pair stored
  obtain ⟨name, nameEq⟩ := proper.stores_text member stored
  exact nameEq ▸ Entries.exact_text name

end Graph.Proper

namespace Graph.Proper

variable {graph : Graph} (proper : graph.Proper) {nodes : List Node}
  (members : ∀ node ∈ nodes, node ∈ graph.nodeList)

include proper members

theorem allExact_flatMap_stores : Entries.AllExact Atom.same (nodes.flatMap graph.stores) := by
  intro pair pairMember
  obtain ⟨node, member, stored⟩ := List.mem_flatMap.1 pairMember
  exact proper.allExact_stores (members node member) pair stored

/-- Every resource in the end is one that some node stores. -/
theorem stored_of_mem_ofPairs {pair : Atom × Value}
    (member : pair ∈ Entries.ofPairs Atom.same (nodes.flatMap graph.stores)) :
    ∃ node ∈ nodes, pair ∈ graph.stores node :=
  List.mem_flatMap.1 (Entries.mem_of_mem_ofPairs (proper.allExact_flatMap_stores members) member)

/-- Whatever is stored in turn, no key is there twice in the end. -/
theorem nodup_keys_stored :
    (Entries.keys (Entries.ofPairs Atom.same (nodes.flatMap graph.stores))).Nodup :=
  Entries.nodup_keys_putAll (proper.allExact_flatMap_stores members) List.nodup_nil

end Graph.Proper

end CloudGraph
