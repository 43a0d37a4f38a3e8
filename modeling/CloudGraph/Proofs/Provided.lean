import CloudGraph.Proofs.Inventory
import CloudGraph.Proofs.References

/-!
# What nodes name is provided

Nodes refer to resources of other nodes, and may do so before those nodes are visited.
`Graph.Provides` says what may be referred to in the end, and does not depend on any order: the
region and the account by a reference alone, everything else in any way.
`Graph.Proper.provides_stores` and `Graph.Proper.provides_definition` say that a node refers to
nothing else, with a lemma for each kind that refers to anything.
-/

namespace CloudGraph

open Fragment Value

namespace Graph

variable (graph : Graph)

/-- What a descriptor may refer to. -/
inductive Provides : Reference → Prop where
  | region : Provides (.ref "AWS::Region")
  | account : Provides (.ref "AWS::AccountId")
  | resource {node reference} (member : node ∈ graph.nodeList)
      (makes : graph.Makes node reference.name) : Provides reference
  /-- A function is deployed as a resource that the descriptor does not list. -/
  | function {node id reference} (member : node ∈ graph.nodeList) (isOf : node.IsOf .function)
      (idEq : node.id = .text id) (deployed : reference.name = id ++ "LambdaFunction") :
      Provides reference

/-- Everything that the definition of a function refers to is in its triggers and its statements. -/
theorem collect_definition {α : Type} {foundIn : Atom × Value → List α} {node : Node}
    {description : String} (described : node.description = .text description)
    (selective : Selective foundIn) (runtime : Runtime) :
    collect foundIn (graph.definition runtime node) =
      (graph.triggers node.sources).flatMap (collect foundIn) ++
        (graph.grants node.targets).flatMap (collect foundIn) := by
  have own : collectFields foundIn (ownFields runtime node) = [] := by
    unfold ownFields describedAs
    split <;> simp [selective.plain, referringKeys, described]
  have events : collectFields foundIn (graph.eventFields node) =
      (graph.triggers node.sources).flatMap (collect foundIn) := by
    unfold eventFields
    split
    next empty => simp [List.isEmpty_iff.1 empty, triggers]
    next => simp [selective.plain, referringKeys]
  have statements : collectFields foundIn (graph.statementFields node) =
      (graph.grants node.targets).flatMap (collect foundIn) := by
    unfold statementFields
    split
    next empty => simp [List.isEmpty_iff.1 empty]
    next => simp [selective.plain, referringKeys, statementsField]
  rw [definition, collect_record, collectFields_append, collectFields_append, own, events,
    statements, List.nil_append]

end Graph

namespace Graph.Proper

variable {graph : Graph} (proper : graph.Proper)

include proper

theorem provides_of_isOfKind {kind : Kind} {reference : Reference} (making : kind ∈ Kind.makingOwn)
    (isKind : graph.isOfKind kind (.text reference.name) = true) : graph.Provides reference := by
  obtain ⟨node, member, idEq, isOf⟩ := proper.isOfKind_iff_isOf.1 isKind
  exact .resource member (.own idEq isOf making)

theorem provides_function {id : String} (isFunction : graph.isOfKind .function (.text id) = true)
    {reference : Reference} (deployed : reference.name = id ++ "LambdaFunction") :
    graph.Provides reference := by
  obtain ⟨node, member, idEq, isOf⟩ := proper.isOfKind_iff_isOf.1 isFunction
  exact .function member isOf idEq deployed

/-- What a grant names is provided by the node that it is on. -/
theorem provides_grant {kind : Kind} {id : String} {statement : Value}
    (isKind : graph.isOfKind kind (.text id) = true)
    (granted : grant kind (.text id) = some statement) :
    ∀ reference ∈ collect referencesOf statement, graph.Provides reference := by
  cases kind with
  | bucket | table | stream | topic | stepFunction =>
      cases granted
      exact List.forall_mem_singleton.2 (proper.provides_of_isOfKind (by decide) isKind)
  | function =>
      cases granted
      exact List.forall_mem_singleton.2 (proper.provides_function isKind rfl)
  | api | deliveryStream =>
      cases granted
      exact List.forall_mem_cons.2 ⟨.region, List.forall_mem_singleton.2 .account⟩
  | analyticsStream | schedule | identityPool | topicRule => cases granted

/-- What a trigger names is provided by the node that sets it off. -/
theorem provides_trigger {kind : Kind} {id : String} {event : Value}
    (isKind : graph.isOfKind kind (.text id) = true)
    (triggered : trigger kind (.text id) = some event) :
    ∀ reference ∈ collect referencesOf event, graph.Provides reference := by
  cases kind with
  | table | stream =>
      cases triggered
      exact List.forall_mem_singleton.2 (proper.provides_of_isOfKind (by decide) isKind)
  | bucket | api | schedule | topic =>
      cases triggered
      exact fun _ member => (List.not_mem_nil member).elim
  | deliveryStream | analyticsStream | function | stepFunction | identityPool | topicRule =>
      cases triggered

theorem provides_grants {targets : List Value}
    (texts : ∀ target ∈ targets, ∃ id, target = .text id) :
    ∀ reference ∈ (graph.grants targets).flatMap (collect referencesOf),
      graph.Provides reference := by
  intro reference member
  obtain ⟨statement, statementMember, named⟩ := List.mem_flatMap.1 member
  obtain ⟨target, targetMember, kind, isKind, granted⟩ := mem_grants.1 statementMember
  obtain ⟨id, rfl⟩ := texts target targetMember
  exact proper.provides_grant isKind granted reference named

theorem provides_triggers {sources : List Value}
    (texts : ∀ source ∈ sources, ∃ id, source = .text id) :
    ∀ reference ∈ (graph.triggers sources).flatMap (collect referencesOf),
      graph.Provides reference := by
  intro reference member
  obtain ⟨event, eventMember, named⟩ := List.mem_flatMap.1 member
  obtain ⟨source, sourceMember, kind, isKind, triggered⟩ := mem_triggers.1 eventMember
  obtain ⟨id, rfl⟩ := texts source sourceMember
  exact proper.provides_trigger isKind triggered reference named

/-- The last bucket of some ids is provided. -/
theorem provides_bucket {ids : List Value} {bucket : String}
    (last : graph.lastOf? .bucket ids = some (.text bucket)) :
    graph.Provides (.attribute bucket) :=
  proper.provides_of_isOfKind (by decide) (of_lastOf? last).2

variable {node : Node} (member : node ∈ graph.nodeList) {description : String}
  (described : node.description = .text description)

include member

include described in
/-- What the definition of a function refers to is provided. -/
theorem provides_definition (runtime : Runtime) :
    ∀ reference ∈ collect referencesOf (graph.definition runtime node),
      graph.Provides reference := by
  intro reference named
  rw [graph.collect_definition described selective_referencesOf] at named
  rcases List.mem_append.1 named with triggered | granted
  · exact proper.provides_triggers (proper.sources_text member) reference triggered
  · exact proper.provides_grants (proper.targets_text member) reference granted

include described in
/-- What a topic rule refers to is provided. -/
theorem provides_actions (isOf : node.IsOf .topicRule) {actions : List Value}
    (each : ∀ action ∈ actions, ∃ target ∈ node.targets, graph.ActionOf target action) :
    ∀ reference ∈ collect referencesOf (topicRuleResource node.description actions),
      graph.Provides reference := by
  intro reference named
  rw [described, collect_topicRuleResource selective_referencesOf] at named
  obtain ⟨action, actionMember, inAction⟩ := List.mem_flatMap.1 named
  obtain ⟨target, leads, own⟩ := each action actionMember
  obtain ⟨targetId, rfl⟩ := proper.targets_text member target leads
  cases own with
  | invoke isFunction =>
      obtain rfl : reference = .attribute (targetId ++ "LambdaFunction") :=
        List.mem_singleton.1 inAction
      exact proper.provides_function isFunction rfl
  | republish isRule =>
      obtain rfl : reference = .attribute (targetId ++ "PublishRole") :=
        List.mem_singleton.1 inAction
      obtain ⟨target, targetMember, targetEq, targetOf⟩ := proper.isOfKind_iff_isOf.1 isRule
      exact .resource member (.publish isOf targetMember targetEq targetOf leads)

section Companions

variable {id : String} (idEq : node.id = .text id)

include idEq

/-- What the ends of an analytics application refer to is provided. -/
theorem provides_analyticsEnds (isOf : node.IsOf .analyticsStream)
    {streamField deliveryField : String} {ids : List Value}
    (texts : ∀ id ∈ ids, ∃ name, id = .text name) :
    ∀ reference ∈ collectFields referencesOf (analyticsEnds streamField deliveryField (id ++ "Role")
      (graph.lastOf? .stream ids) (graph.lastOf? .deliveryStream ids)),
        graph.Provides reference := by
  intro reference named
  rcases references_analyticsEnds (fun _ => exists_text_of_lastOf? texts) named with
    rfl | rfl | rfl | ⟨name, rfl, last⟩
  · exact .resource member (.analytics idEq isOf (by decide))
  · exact .region
  · exact .account
  · exact proper.provides_of_isOfKind (by decide) (of_lastOf? last).2

/-- What a delivery stream makes is provided. -/
theorem provides_delivery (isOf : node.IsOf .deliveryStream) {bucket : String}
    (last : graph.lastOf? .bucket node.targets = some (.text bucket)) {ending : String}
    (part : ending ∈ ["", "DeliveryRole", "DeliveryPolicy"]) {reference : Reference}
    (named : reference.name = id ++ ending) : graph.Provides reference := by
  obtain ⟨leads, isBucket⟩ := of_lastOf? last
  obtain ⟨found, foundMember, foundId, foundOf⟩ := proper.isOfKind_iff_isOf.1 isBucket
  exact .resource member
    (named ▸ .delivery idEq isOf foundMember foundOf (foundId ▸ leads) part)

/-- What the resource of a delivery stream refers to is provided. -/
theorem provides_deliveryStream (isOf : node.IsOf .deliveryStream) {bucket : String}
    (last : graph.lastOf? .bucket node.targets = some (.text bucket)) :
    ∀ reference ∈ collect referencesOf (deliveryStreamResource (.text bucket)
      (id ++ "DeliveryRole") (id ++ "DeliveryPolicy") (graph.lastOf? .function node.targets)),
        graph.Provides reference := by
  intro reference named
  rw [references_deliveryStreamResource, List.mem_append] at named
  rcases named with known | transformer
  · simp only [List.mem_cons, List.not_mem_nil, or_false] at known
    rcases known with rfl | rfl | rfl
    · exact proper.provides_delivery member idEq isOf last (by decide) rfl
    · exact proper.provides_bucket last
    · exact proper.provides_delivery member idEq isOf last (by decide) rfl
  · simp only [Option.mem_toList, Option.map_eq_some_iff] at transformer
    obtain ⟨function, lastFunction, rfl⟩ := transformer
    obtain ⟨leads, isFunction⟩ := of_lastOf? lastFunction
    obtain ⟨functionId, rfl⟩ := proper.targets_text member function leads
    exact proper.provides_function isFunction rfl

end Companions

include described in
/-- Everything that a node stores refers only to what is provided. -/
theorem provides_stores {pair : Atom × Value} (stored : pair ∈ graph.stores node) :
    ∀ reference ∈ referencesOf pair ++ collect referencesOf pair.2, graph.Provides reference := by
  have sources := proper.sources_text member
  have targets := proper.targets_text member
  obtain ⟨id, idEq⟩ := proper.textual.ids node member
  have own : ∀ {kind reference}, node.IsOf kind → kind ∈ Kind.makingOwn → reference.name = id →
      graph.Provides reference :=
    fun isOf making named => .resource member (named ▸ .own idEq isOf making)
  intro reference named
  cases proper.contributes_of_mem member idEq stored with
  | @fixed kind resource isOf isFixed =>
      cases kind with
      | stepFunction =>
          cases isFixed
          revert reference
          exact List.forall_mem_cons.2 ⟨.account, List.forall_mem_singleton.2 .region⟩
      | bucket | table | stream | topic =>
          cases isFixed
          exact (List.not_mem_nil named).elim
      | api | deliveryStream | analyticsStream | schedule | function | identityPool | topicRule =>
          cases isFixed
  | deliveryStream isOf last =>
      exact proper.provides_deliveryStream member idEq isOf last reference named
  | deliveryRole =>
      revert reference
      exact List.forall_mem_singleton.2 .account
  | deliveryPolicy isOf last =>
      revert reference
      exact List.forall_mem_cons.2 ⟨proper.provides_bucket last, List.forall_mem_singleton.2
        (proper.provides_delivery member idEq isOf last (by decide) rfl)⟩
  | application isOf =>
      have listed : reference ∈
          collect referencesOf (analyticsResource (.text id) node.description _) := named
      rw [described, collect_analyticsResource selective_referencesOf] at listed
      exact proper.provides_analyticsEnds member idEq isOf sources reference listed
  | analyticsRole | identityPool => exact (List.not_mem_nil named).elim
  | outputs isOf =>
      have listed : reference ∈ collect referencesOf (analyticsOutputs (.text id) _) := named
      rw [references_analyticsOutputs, List.mem_append] at listed
      rcases listed with known | connected
      · simp only [List.mem_cons, List.not_mem_nil, or_false] at known
        rcases known with rfl | rfl <;> exact own isOf (by decide) rfl
      · exact proper.provides_analyticsEnds member idEq isOf targets reference connected
  | identityRole isOf =>
      revert reference
      exact List.forall_mem_singleton.2 (own isOf (by decide) rfl)
  | identityPolicy isOf =>
      have listed : reference ∈ collect referencesOf (identityPolicy (id ++ "CognitoUnauthRole")
          (graph.grants node.targets)) := named
      rw [references_identityPolicy, List.mem_append, List.mem_singleton] at listed
      rcases listed with granted | rfl
      · exact proper.provides_grants targets reference granted
      · exact .resource member (.identity idEq isOf (by decide))
  | topicRule isOf each => exact proper.provides_actions member described isOf each reference named
  | publishRole =>
      revert reference
      exact List.forall_mem_cons.2 ⟨.region, List.forall_mem_singleton.2 .account⟩

end Graph.Proper

end CloudGraph
