import CloudGraph.Proofs.Provided
import CloudGraph.Proofs.Writes

/-!
# References are resolved

A descriptor refers only to resources that it holds and to functions. When nodes write apart,
what is used as a role is a role, and what a delivery stream waits for is a policy:
`Graph.Proper.leaves_role` and `Graph.Proper.leaves_policy` find them among the resources
that a node leaves by itself, and nothing else writes in their place.
-/

namespace CloudGraph

open Fragment Value

/-- A resource is of a type. -/
def Value.IsOfType (resource : Value) (type : String) : Prop :=
  resource.field? "Type" = some (.text type)

theorem Value.IsOfType.unique {resource : Value} {first second : String}
    (isFirst : resource.IsOfType first) (isSecond : resource.IsOfType second) : first = second := by
  unfold IsOfType at isFirst isSecond
  rw [isFirst] at isSecond
  simpa using isSecond

/-- The type of a role. -/
def roleType : String := "AWS::IAM::Role"

/-- The type of a policy. -/
def policyType : String := "AWS::IAM::Policy"

/-- The type of a delivery stream. -/
def deliveryStreamType : String := "AWS::KinesisFirehose::DeliveryStream"

namespace Graph

/-- A node leaves a resource of a type under a name. -/
def Leaves (graph : Graph) (node : Node) (name type : String) : Prop :=
  ∃ made, Entries.lastOf Atom.same (graph.stores node) (.text name) = some made ∧ made.IsOfType type

end Graph

namespace Graph

variable {graph : Graph}

/-- Statements use no roles. -/
theorem roles_grants {targets : List Value} (texts : ∀ target ∈ targets, ∃ id, target = .text id) :
    (graph.grants targets).flatMap (collect rolesOf) = [] := by
  rw [List.flatMap_eq_nil_iff]
  intro statement member
  obtain ⟨target, targetMember, kind, _, granted⟩ := mem_grants.1 member
  obtain ⟨id, rfl⟩ := texts target targetMember
  cases kind with
  | bucket | table | api | stream | deliveryStream | topic | function | stepFunction =>
      cases granted
      rfl
  | analyticsStream | schedule | identityPool | topicRule => cases granted

/-- Triggers use no roles. -/
theorem roles_triggers {sources : List Value}
    (texts : ∀ source ∈ sources, ∃ id, source = .text id) :
    (graph.triggers sources).flatMap (collect rolesOf) = [] := by
  rw [List.flatMap_eq_nil_iff]
  intro event member
  obtain ⟨source, sourceMember, kind, _, triggered⟩ := mem_triggers.1 member
  obtain ⟨id, rfl⟩ := texts source sourceMember
  cases kind with
  | bucket | table | stream | api | schedule | topic =>
      cases triggered
      rfl
  | deliveryStream | analyticsStream | function | stepFunction | identityPool | topicRule =>
      cases triggered

end Graph

namespace Graph.Proper

variable {graph : Graph} (proper : graph.Proper) {node : Node} (member : node ∈ graph.nodeList)
  {id : String} (idEq : node.id = .text id)

include proper member idEq

/-- A delivery stream leaves its role and its policy, which have different names. -/
theorem leaves_delivery (isOf : node.IsOf .deliveryStream) {bucket : Value}
    (last : graph.lastOf? .bucket node.targets = some bucket) :
    graph.Leaves node (id ++ "DeliveryRole") roleType ∧
      graph.Leaves node (id ++ "DeliveryPolicy") policyType := by
  have whole : graph.stores node = graph.deliveryResources node := stores_of_isOf isOf
  simp only [deliveryResources, last, idEq] at whole
  have exact := proper.allExact_stores member
  constructor
  · exact ⟨_, Entries.lastOf_of_split [_] (Entries.exact_text _) exact whole
      (by simp [Atom.plain]), rfl⟩
  · exact ⟨_, Entries.lastOf_of_split [_, _] (Entries.exact_text _) exact whole (by simp), rfl⟩

/-- An analytics application leaves its role. -/
theorem leaves_analyticsRole (isOf : node.IsOf .analyticsStream) :
    graph.Leaves node (id ++ "Role") roleType := by
  have whole : graph.stores node = graph.analyticsResources node := stores_of_isOf isOf
  simp only [analyticsResources, idEq] at whole
  exact ⟨_, Entries.lastOf_of_split [_] (Entries.exact_text _) (proper.allExact_stores member) whole
    (by simp [Atom.plain]), rfl⟩

/-- An identity pool leaves the role of its users. -/
theorem leaves_identityRole (isOf : node.IsOf .identityPool) :
    graph.Leaves node (id ++ "CognitoUnauthRole") roleType := by
  have whole : graph.stores node = poolResources node ++ [graph.poolPolicy node] :=
    stores_of_isOf isOf
  simp only [poolResources, poolPolicy, idEq] at whole
  exact ⟨_, Entries.lastOf_of_split [_] (Entries.exact_text _) (proper.allExact_stores member) whole
    (by simp [Atom.plain]), rfl⟩

omit idEq

/-- The roles of the actions of a topic rule are left by the rule. -/
theorem leaves_actionRoles (clear : graph.fault? node = none) (isOf : node.IsOf .topicRule)
    {actions : List Value}
    (each : ∀ action ∈ actions, ∃ target ∈ node.targets, graph.ActionOf target action) :
    ∀ role ∈ actions.flatMap (collect rolesOf), graph.Leaves node role roleType := by
  intro role used
  obtain ⟨action, actionMember, inAction⟩ := List.mem_flatMap.1 used
  obtain ⟨target, leads, own⟩ := each action actionMember
  obtain ⟨id, rfl⟩ := proper.targets_text member target leads
  cases own with
  | invoke => exact (List.not_mem_nil inAction).elim
  | republish isRule =>
      obtain rfl : role = id ++ "PublishRole" := List.mem_singleton.1 inAction
      exact ⟨_, proper.lastOf_stores_role member clear
        ⟨isOf, leads, proper.isOfKind_iff_isOf.1 isRule⟩, rfl⟩

/-- What a node stores uses only roles that the node leaves. -/
theorem leaves_role (clear : graph.fault? node = none) {description : String}
    (described : node.description = .text description) {pair : Atom × Value}
    (stored : pair ∈ graph.stores node) :
    ∀ role ∈ collect rolesOf pair.2, graph.Leaves node role roleType := by
  have sources := proper.sources_text member
  have targets := proper.targets_text member
  obtain ⟨id, idEq⟩ := proper.textual.ids node member
  intro role used
  cases proper.contributes_of_mem member idEq stored with
  | @fixed kind resource isOf isFixed =>
      cases kind <;> cases isFixed <;> exact (List.not_mem_nil used).elim
  | deliveryStream isOf last =>
      rw [roles_deliveryStreamResource, List.mem_singleton] at used
      exact used ▸ (proper.leaves_delivery member idEq isOf last).1
  | deliveryPolicy isOf last =>
      obtain rfl : role = _ := List.mem_singleton.1 used
      exact (proper.leaves_delivery member idEq isOf last).1
  | application isOf =>
      rw [described, collect_analyticsResource selective_rolesOf] at used
      have roleEq := roles_analyticsEnds (fun _ => exists_text_of_lastOf? sources) (by decide)
        (by decide) role used
      exact roleEq ▸ proper.leaves_analyticsRole member idEq isOf
  | outputs isOf =>
      rw [roles_analyticsOutputs] at used
      have roleEq := roles_analyticsEnds (fun _ => exists_text_of_lastOf? targets) (by decide)
        (by decide) role used
      exact roleEq ▸ proper.leaves_analyticsRole member idEq isOf
  | identityPolicy isOf =>
      rw [roles_identityPolicy, roles_grants targets, List.nil_append, List.mem_singleton] at used
      exact used ▸ proper.leaves_identityRole member idEq isOf
  | topicRule isOf each =>
      rw [described, collect_topicRuleResource selective_rolesOf] at used
      exact proper.leaves_actionRoles member clear isOf each role used
  | deliveryRole | analyticsRole | identityPool | identityRole | publishRole =>
      exact (List.not_mem_nil used).elim

/-- What is stored as a delivery stream depends only on a policy that the node leaves. -/
theorem leaves_policy {pair : Atom × Value} (stored : pair ∈ graph.stores node)
    (isStream : pair.2.IsOfType deliveryStreamType) :
    ∀ name ∈ collect dependenciesOf pair.2, graph.Leaves node name policyType := by
  obtain ⟨id, idEq⟩ := proper.textual.ids node member
  intro name needed
  cases proper.contributes_of_mem member idEq stored with
  | @fixed kind resource isOf isFixed =>
      cases kind <;> cases isFixed <;> exact (List.not_mem_nil needed).elim
  | deliveryStream isOf last =>
      rw [dependencies_deliveryStreamResource, List.mem_singleton] at needed
      exact needed ▸ (proper.leaves_delivery member idEq isOf last).2
  | deliveryRole | deliveryPolicy | application | analyticsRole | outputs | identityPool
  | identityRole | identityPolicy | topicRule | publishRole =>
      exact absurd (isStream.unique rfl) (by decide)

end Graph.Proper

namespace Graph.Proper

variable {graph : Graph} (proper : graph.Proper) {order : Order} {runtime : Runtime}
  (described : ∀ node ∈ graph.nodeList, ∃ text, node.description = .text text)

include proper described

theorem provides_functions :
    ∀ reference ∈ collect referencesOf (.map (graph.blueprint order runtime).functions),
      graph.Provides reference := by
  intro reference named
  rw [collect_map] at named
  obtain ⟨entry, entryMember, inEntry⟩ := List.mem_flatMap.1 named
  obtain ⟨node, nodeMember, rfl⟩ := List.mem_map.1 entryMember
  have member := (mem_functionsIn.1 nodeMember).1
  obtain ⟨text, isText⟩ := described node member
  exact proper.provides_definition member isText runtime reference inEntry

theorem provides_resources :
    ∀ reference ∈ collect referencesOf (.map (graph.blueprint order runtime).resources),
      graph.Provides reference := by
  intro reference named
  rw [collect_map] at named
  obtain ⟨entry, entryMember, inEntry⟩ := List.mem_flatMap.1 named
  obtain ⟨node, member, stored⟩ := proper.stored_of_mem_ofPairs (fun _ member => member) entryMember
  obtain ⟨text, isText⟩ := described node member
  exact proper.provides_stores member isText stored reference inEntry

/-- What a document refers to is provided, except where the order itself refers to something. -/
theorem provides_document (known : Runtime.ofId order.runtime = .ok runtime) {reference : Reference}
    (named : reference ∈ collect referencesOf (graph.blueprint order runtime).project.document) :
    graph.Provides reference ∨ reference ∈ collect referencesOf order.service ∨
      reference ∈ collect referencesOf order.provider := by
  have runtimeNames : collect referencesOf order.runtime = [] := by
    rw [(Runtime.of_ofId known).2, collect_atom]
  have pluginNames : collectFields referencesOf
      ((graph.blueprint order runtime).plugins?.map fun plugins =>
        ("plugins", Value.list plugins)).toList = [] := by
    simp only [blueprint, blueprintOf]
    split <;> rfl
  have whole : collect referencesOf (graph.blueprint order runtime).project.document =
      collect referencesOf order.service ++ collect referencesOf order.provider ++
        collect referencesOf (.map (graph.blueprint order runtime).functions) ++
        collect referencesOf (.map (graph.blueprint order runtime).resources) := by
    have service : (graph.blueprint order runtime).service = order.service := rfl
    have provider : (graph.blueprint order runtime).provider = order.provider := rfl
    have runtimeField : (graph.blueprint order runtime).runtime = order.runtime := rfl
    simp only [Draft.project, Draft.fields, collect_record, collectFields_append, pluginNames]
    simp [selective_referencesOf.plain, referringKeys, service, provider, runtimeField,
      runtimeNames]
  rw [whole] at named
  rcases List.mem_append.1 named with inFront | inResources
  · rcases List.mem_append.1 inFront with inOrder | inFunctions
    · exact .inr (List.mem_append.1 inOrder)
    · exact .inl (proper.provides_functions described reference inFunctions)
  · exact .inl (proper.provides_resources described reference inResources)

end Graph.Proper

/-- An order refers to something by itself: its service and its provider stand in the descriptor
as they are given. -/
def Order.Refers (order : Order) (reference : Reference) : Prop :=
  order.service.Refers reference ∨ order.provider.Refers reference

/-- An order of two texts refers to nothing. -/
theorem Order.not_refers {order : Order} {service provider : String} {reference : Reference}
    (serviceText : order.service = .text service) (providerText : order.provider = .text provider) :
    ¬order.Refers reference := by
  rintro (inService | inProvider)
  · rw [refers_iff, serviceText] at inService
    exact List.not_mem_nil inService
  · rw [refers_iff, providerText] at inProvider
    exact List.not_mem_nil inProvider

/-- A name is that of a resource, or of the resource that a function is deployed as. -/
def Declares (functions resources : Entries Atom Value) (name : String) : Prop :=
  .text name ∈ Entries.keys resources ∨
    ∃ function, .text function ∈ Entries.keys functions ∧ name = function ++ "LambdaFunction"

/-- Whatever a document refers to is declared, unless its order refers to it in the same way. The
region and the account need not be, but only in references: an attribute or a dependency of one
would dangle. -/
structure Resolved (order : Order) (document : Value) (functions resources : Entries Atom Value) :
    Prop where
  refs : ∀ name, document.Refers (.ref name) → name ≠ "AWS::Region" → name ≠ "AWS::AccountId" →
    Declares functions resources name ∨ order.Refers (.ref name)
  attributes : ∀ name, document.Refers (.attribute name) →
    Declares functions resources name ∨ order.Refers (.attribute name)
  dependencies : ∀ name, document.Refers (.dependency name) →
    Declares functions resources name ∨ order.Refers (.dependency name)

/-- Some resources hold one of a name and a type. -/
def Holds (resources : Entries Atom Value) (name type : String) : Prop :=
  ∃ made, (.text name, made) ∈ resources ∧ made.IsOfType type

/-- What is used as a role is a role, and what a delivery stream depends on is a policy. -/
structure WellTyped (functions resources : Entries Atom Value) : Prop where
  roles : ∀ entry ∈ functions ++ resources, ∀ role, entry.2.UsesRole role →
    Holds resources role roleType
  policies : ∀ entry ∈ resources, entry.2.IsOfType deliveryStreamType →
    ∀ name, entry.2.DependsOn name → Holds resources name policyType

namespace Graph

variable {graph : Graph}

theorem Proper.declares_of_provides (proper : graph.Proper)
    (clear : graph.nodeList.findSome? graph.fault? = none) (order : Order) (runtime : Runtime)
    {reference : Reference} (provides : graph.Provides reference)
    (notRegion : reference ≠ .ref "AWS::Region") (notAccount : reference ≠ .ref "AWS::AccountId") :
    Declares (graph.blueprint order runtime).functions (graph.blueprint order runtime).resources
      reference.name := by
  cases provides with
  | region => exact absurd rfl notRegion
  | account => exact absurd rfl notAccount
  | resource member makes =>
      exact .inl ((proper.mem_keys_resources clear order runtime).2 ⟨_, rfl, _, member, makes⟩)
  | @function node id _ member isOf idEq deployed =>
      refine .inr ⟨id, ?_, deployed⟩
      have isFunction : node ∈ functionsIn graph.nodeList :=
        mem_functionsIn.2 ⟨member, Node.kind?_eq_some_iff.2 isOf⟩
      rw [← idEq]
      simpa [blueprint, blueprintOf, Entries.keys] using ⟨node, isFunction, rfl⟩

/-- Every reference in a document is to what is declared, in its own way. -/
theorem Proper.resolved_blueprint (proper : graph.Proper)
    (clear : graph.nodeList.findSome? graph.fault? = none)
    (described : ∀ node ∈ graph.nodeList, ∃ text, node.description = .text text) {order : Order}
    {runtime : Runtime} (known : Runtime.ofId order.runtime = .ok runtime) :
    Resolved order (graph.blueprint order runtime).project.document
      (graph.blueprint order runtime).functions (graph.blueprint order runtime).resources := by
  have declared : ∀ reference, (graph.blueprint order runtime).project.document.Refers reference →
      reference ≠ .ref "AWS::Region" → reference ≠ .ref "AWS::AccountId" →
        Declares (graph.blueprint order runtime).functions
            (graph.blueprint order runtime).resources reference.name ∨
          order.Refers reference := by
    intro reference refers notRegion notAccount
    rcases proper.provides_document described known (refers_iff.1 refers) with
      provides | inService | inProvider
    · exact .inl (proper.declares_of_provides clear order runtime provides notRegion notAccount)
    · exact .inr (.inl (refers_iff.2 inService))
    · exact .inr (.inr (refers_iff.2 inProvider))
  exact {
    refs := fun name refers notRegion notAccount =>
      declared (.ref name) refers (by simpa using notRegion) (by simpa using notAccount)
    attributes := fun name refers => declared (.attribute name) refers (by simp) (by simp)
    dependencies := fun name refers => declared (.dependency name) refers (by simp) (by simp) }

/-- When nodes write apart, what they leave is there in the end, so that types are right. -/
theorem Proper.wellTyped_blueprint (proper : graph.Proper) (typed : graph.Typed)
    (clear : graph.nodeList.findSome? graph.fault? = none)
    (described : ∀ node ∈ graph.nodeList, ∃ text, node.description = .text text) (order : Order)
    (runtime : Runtime) (apart : graph.WritesApart order.runtime) :
    WellTyped (graph.blueprint order runtime).functions
      (graph.blueprint order runtime).resources := by
  have members : ∀ node ∈ graph.nodeList, node ∈ graph.nodeList := fun _ member => member
  have clear' := List.findSome?_eq_none_iff.1 clear
  have holds : ∀ {node name type}, node ∈ graph.nodeList → graph.Leaves node name type →
      Holds (graph.blueprint order runtime).resources name type := by
    rintro node name type member ⟨made, leaves, ofType⟩
    exact ⟨made, (proper.mem_resources_iff typed clear apart members).2
      ⟨name, rfl, node, member, leaves⟩, ofType⟩
  constructor
  case roles =>
    intro entry entryMember role used
    rw [usesRole_iff] at used
    rcases List.mem_append.1 entryMember with isFunction | isResource
    · obtain ⟨node, nodeMember, rfl⟩ := List.mem_map.1 isFunction
      have member := (mem_functionsIn.1 nodeMember).1
      obtain ⟨text, isText⟩ := described node member
      rw [graph.collect_definition isText selective_rolesOf,
        roles_triggers (proper.sources_text member),
        roles_grants (proper.targets_text member)] at used
      exact (List.not_mem_nil used).elim
    · obtain ⟨node, member, stored⟩ := proper.stored_of_mem_ofPairs members isResource
      obtain ⟨text, isText⟩ := described node member
      exact holds member (proper.leaves_role member (clear' node member) isText stored role used)
  case policies =>
    intro entry entryMember isStream name needed
    obtain ⟨node, member, stored⟩ := proper.stored_of_mem_ofPairs members entryMember
    exact holds member (proper.leaves_policy member stored isStream name (dependsOn_iff.1 needed))

/-- No name in what a graph compiles to is dangling, and when nodes write apart, roles and
policies are what they are used as. -/
theorem compile_resolves_references {order : Order} {project : Project} (proper : graph.Proper)
    (described : ∀ node ∈ graph.nodeList, ∃ text, node.description = .text text)
    (compiled : (graph.compile order).result = .ok project) :
    ∃ functions resources, project.functions = .ok (.map functions) ∧
      project.resources = .ok (.map resources) ∧ (Entries.keys resources).Nodup ∧
      Resolved order project.document functions resources ∧
      (graph.WritesApart order.runtime → WellTyped functions resources) := by
  obtain ⟨typed, _⟩ := Proper.typed_of_compile compiled
  obtain ⟨runtime, known, clear, rfl⟩ := proper.eq_blueprint compiled
  exact ⟨_, _, Draft.functions_project _, Draft.resources_project _,
    proper.nodup_keys_stored fun _ member => member,
    proper.resolved_blueprint clear described known,
    proper.wellTyped_blueprint typed clear described order runtime⟩

/-- The archive of the thumbnails waits for its policy and takes the attribute of its role. -/
theorem thumbnails_resolves_references : ∃ project functions resources,
    (thumbnails.compile thumbnailOrder).result = .ok project ∧
      project.functions = .ok (.map functions) ∧ project.resources = .ok (.map resources) ∧
      project.document.Refers (.dependency "archiveDeliveryPolicy") ∧
      project.document.Refers (.attribute "archiveDeliveryRole") ∧
      project.document.Refers (.ref "AWS::AccountId") ∧
      Resolved thumbnailOrder project.document functions resources ∧
      (∀ reference, ¬thumbnailOrder.Refers reference) ∧
      WellTyped functions resources := by
  have proper := proper_of_ofValue thumbnails_loaded thumbnails_textual
  have described : ∀ node ∈ thumbnails.nodeList, ∃ text, node.description = .text text := by
    simp [nodeList_thumbnails, thumbnailNodes]
  obtain ⟨project, compiled⟩ := thumbnails_compiles
  obtain ⟨functions, resources, functionsEq, resourcesEq, _, resolved, wellTyped⟩ :=
    compile_resolves_references proper described compiled
  have refers : ∀ reference ∈ [Reference.dependency "archiveDeliveryPolicy",
      .attribute "archiveDeliveryRole", .ref "AWS::AccountId"],
        project.document.Refers reference := by
    obtain ⟨runtime, known, _, rfl⟩ := proper.eq_blueprint compiled
    cases known
    simp only [refers_iff]
    decide +kernel
  exact ⟨project, functions, resources, compiled, functionsEq, resourcesEq,
    refers _ (by simp), refers _ (by simp), refers _ (by simp), resolved,
    fun _ => Order.not_refers rfl rfl, wellTyped thumbnails_writesApart⟩

end Graph

end CloudGraph
