import CloudGraph.Proofs.Resolution
import CloudGraph.Proofs.Templates

/-!
# Permissions

What the edges out of a function and out of an identity pool allow. Both collect the same
grants: one for each target that has one, in the order of the edges, fixed by the kind and the
id of the target alone (`Kind.Allows`). `Graph.FanOut` says where the grants stand in a document,
what they are and what their resources name, and `Graph.compile_grants_targets` says that every
compiled document is so.

A name stands for a target when it is the target's id, or the name of the resource that a target
function is deployed as. The name of a delivery stream is put together from parts, so that it is
compared as a whole, and so is the one name of all interfaces, in which no node is named.
-/

namespace CloudGraph

/-- The kinds that have a grant. -/
def Kind.granting : List Kind :=
  [.bucket, .table, .api, .stream, .deliveryStream, .topic, .function, .stepFunction]

theorem Kind.exists_allows_iff {kind : Kind} {id : String} :
    (∃ statement, kind.Allows id statement) ↔ kind ∈ Kind.granting := by
  constructor
  · rintro ⟨statement, allowed⟩
    cases allowed <;> decide
  · intro granting
    cases kind with
    | bucket | table | api | stream | deliveryStream | topic | function | stepFunction =>
        exact ⟨_, by constructor⟩
    | analyticsStream | schedule | identityPool | topicRule => simp [Kind.granting] at granting

/-- The place of the statements in the policy of the users of an identity pool. -/
def poolStatementsPath (pool : String) : List Atom :=
  [.text "resources", .text "Resources", .text (pool ++ "CognitoUnauthPolicy"),
    .text "Properties", .text "PolicyDocument", .text "Statement"]

namespace Graph

variable (graph : Graph)

/-- The grant on a target, fixed by its kind and its id. -/
def grantOn (target : Value) : Option Value :=
  match graph.kindOf target with
  | .ok kind => grant kind target
  | .error _ => none

theorem grants_eq_filterMap (targets : List Value) :
    graph.grants targets = targets.filterMap graph.grantOn := rfl

/-- A name stands for one of some targets. -/
inductive NamesTarget (targets : List Value) : String → Prop where
  | own {id} (leads : .text id ∈ targets) : NamesTarget targets id
  | deployed {id} (leads : .text id ∈ targets)
      (isFunction : graph.isOfKind .function (.text id) = true) :
      NamesTarget targets (id ++ "LambdaFunction")

/-- The resource of a statement names one of some targets and nothing else. -/
inductive Scoped (targets : List Value) (resource : Value) : Prop where
  | named (reference : Reference) (target : graph.NamesTarget targets reference.name)
      (only : ∀ other, resource.Refers other ↔ other = reference)
  | deliveryStream {id} (leads : .text id ∈ targets)
      (isStream : graph.isOfKind .deliveryStream (.text id) = true)
      (whole : resource = Template.localName "arn:aws:firehose:" (":deliverystream/" ++ id))
  /-- A target interface is not named: all interfaces are one resource. -/
  | interface {id} (leads : .text id ∈ targets)
      (isInterface : graph.isOfKind .api (.text id) = true)
      (whole : resource = Template.localName "arn:aws:execute-api:" ":*/*/*/*")

/-- No other node writes a resource of the name. -/
def WritesAlone (runtimeId : Value) (node : Node) (name : String) : Prop :=
  ∀ other ∈ graph.nodeList, other ≠ node →
    .text name ∉ Entries.keys (graph.writes runtimeId other)

/-- What edges out of functions and identity pools allow in a document. -/
structure FanOut (order : Order) (document : Value) : Prop where
  granting : ∀ kind id, (∃ statement, Kind.Allows kind id statement) ↔ kind ∈ Kind.granting
  /-- Every target of a function or of an identity pool is a node of some kind, and the grant on it
  is the statement for this kind and for its id; there is none if the kind has none. -/
  written : ∀ node ∈ graph.nodeList, node.IsOf .function ∨ node.IsOf .identityPool →
    ∀ target ∈ node.targets, ∃ found ∈ graph.nodeList, ∃ id kind, target = .text id ∧
      found.id = .text id ∧ found.IsOf kind ∧
      ∀ statement, (graph.grantOn target).map Value.expand = some statement ↔
        kind.Allows id statement
  /-- A function has its grants as statements, if there are any. -/
  functions : ∀ node ∈ graph.nodeList, node.IsOf .function → ∃ definition,
    document.itemAt [.text "functions", node.id] = .ok definition ∧
      definition.field? "iamRoleStatements" =
        if ∃ target ∈ node.targets, (graph.grantOn target).isSome = true then
          some (.list (node.targets.filterMap graph.grantOn))
        else none
  /-- The policy of an identity pool has its grants as statements in any case. -/
  pools : ∀ node ∈ graph.nodeList, node.IsOf .identityPool → ∀ pool, node.id = .text pool →
    graph.WritesAlone order.runtime node (pool ++ "CognitoUnauthPolicy") →
    document.itemAt (poolStatementsPath pool) =
      .ok (.list (node.targets.filterMap graph.grantOn))
  /-- A statement names nothing but a target of its own node. -/
  confined : ∀ node ∈ graph.nodeList, ∀ statement ∈ node.targets.filterMap graph.grantOn,
    ∃ resource, statement.expand.field? "Resource" = some resource ∧
      graph.Scoped node.targets resource

variable {graph}

theorem grants_eq_nil_iff {targets : List Value} :
    graph.grants targets = [] ↔ ¬∃ target ∈ targets, (graph.grantOn target).isSome = true := by
  rw [grants_eq_filterMap, List.filterMap_eq_nil_iff]
  simp

/-- The grant on a target is what is written out for its kind and its id. -/
theorem expand_grantOn_iff {kind : Kind} {id : String} (kindOf : graph.kindOf (.text id) = .ok kind)
    {statement : Value} :
    (graph.grantOn (.text id)).map Value.expand = some statement ↔ kind.Allows id statement := by
  rw [grantOn, kindOf]
  exact expand_grant_iff

/-- What is allowed on a target names the target and nothing else. -/
theorem scoped_of_allows {kind : Kind} {targets : List Value} {id : String} {statement : Value}
    (leads : .text id ∈ targets) (isOf : graph.isOfKind kind (.text id) = true)
    (allowed : kind.Allows id statement) :
    ∃ resource, statement.field? "Resource" = some resource ∧ graph.Scoped targets resource := by
  have single : ∀ {resource reference},
      Value.collect Value.referencesOf resource = [reference] →
        ∀ other, resource.Refers other ↔ other = reference := by
    intro resource reference found other
    rw [Value.refers_iff, found, List.mem_singleton]
  cases allowed with
  | bucket | table | stream => exact ⟨_, rfl, .named (.attribute id) (.own leads) (single rfl)⟩
  | topic | stepFunction => exact ⟨_, rfl, .named (.ref id) (.own leads) (single rfl)⟩
  | function => exact ⟨_, rfl, .named (.attribute _) (.deployed leads isOf) (single rfl)⟩
  | deliveryStream => exact ⟨_, rfl, .deliveryStream leads isOf rfl⟩
  | api => exact ⟨_, rfl, .interface leads isOf rfl⟩

/-- The statements of a function are its grants, if there are any. -/
theorem statements_of_definition (runtime : Runtime) (node : Node) :
    (graph.definition runtime node).field? "iamRoleStatements" =
      if ∃ target ∈ node.targets, (graph.grantOn target).isSome = true then
        some (.list (graph.grants node.targets))
      else none := by
  have absent : .text "iamRoleStatements" ∉
      Entries.keys (recordEntries (ownFields runtime node ++ graph.eventFields node)) :=
    statements_not_mem_fields graph runtime node
  rw [← Entries.find?_eq_none_iff (Entries.exact_text "iamRoleStatements")] at absent
  rw [definition, record_eq, recordEntries_append]
  simp only [Value.field?, Entries.find?_append, absent, Option.none_or]
  unfold statementFields
  by_cases granted : ∃ target ∈ node.targets, (graph.grantOn target).isSome = true
  · have present : graph.grants node.targets ≠ [] :=
      fun empty => grants_eq_nil_iff.1 empty granted
    rw [if_pos granted, if_neg (by simpa using present)]
    rfl
  · have empty : graph.grants node.targets = [] := grants_eq_nil_iff.2 granted
    rw [if_neg granted, if_pos (by simpa using empty)]
    rfl

end Graph

namespace Graph.Proper

variable {graph : Graph} (proper : graph.Proper) {node : Node}

include proper

/-- Without a fault, the targets of a function and of an identity pool have kinds. -/
theorem kindOf_target (member : node ∈ graph.nodeList)
    (clear : graph.fault? node = none) {kind : Kind} (isOf : node.IsOf kind)
    (granting : kind = .function ∨ kind = .identityPool) {target : Value}
    (leads : target ∈ node.targets) : ∃ kind, graph.kindOf target = .ok kind := by
  obtain ⟨id, rfl⟩ := proper.targets_text member target leads
  have looked : Lookup.rule id ∈ node.lookups kind := by
    have listed : id ∈ textsIn node.targets := mem_textsIn.2 leads
    rcases granting with rfl | rfl
    · exact List.mem_map_of_mem (List.mem_append_right _ listed)
    · exact List.mem_map_of_mem listed
  exact proper.kindOf_of_clear (lookupFault?_of_clear clear isOf looked)

theorem scoped_grants (member : node ∈ graph.nodeList) {statement : Value}
    (collected : statement ∈ graph.grants node.targets) :
    ∃ resource, statement.expand.field? "Resource" = some resource ∧
      graph.Scoped node.targets resource := by
  obtain ⟨target, leads, kind, isOf, granted⟩ := mem_grants.1 collected
  obtain ⟨id, rfl⟩ := proper.targets_text member target leads
  exact scoped_of_allows leads isOf (expand_grant_iff.1 (congrArg (Option.map Value.expand) granted))

/-- Each function is found under its id in the blueprint. -/
theorem find?_functions (order : Order) (runtime : Runtime) (member : node ∈ graph.nodeList)
    (isFunction : node.IsOf .function) :
    Entries.find? Atom.same (graph.blueprint order runtime).functions node.id =
      some (graph.definition runtime node) := by
  obtain ⟨id, idEq⟩ := proper.textual.ids node member
  rw [idEq, Entries.find?_iff_mem (Entries.exact_text id)
    (proper.nodup_keys_functions order runtime), ← idEq]
  exact List.mem_map_of_mem (mem_functionsIn.2 ⟨member, Node.kind?_eq_some_iff.2 isFunction⟩)

/-- The document holds the definition of each function under its id. -/
theorem itemAt_function (order : Order) (runtime : Runtime) (member : node ∈ graph.nodeList)
    (isFunction : node.IsOf .function) :
    (graph.blueprint order runtime).project.document.itemAt [.text "functions", node.id] =
      .ok (graph.definition runtime node) := by
  have found := proper.find?_functions order runtime member isFunction
  have item : (Value.map (graph.blueprint order runtime).functions).item node.id =
      .ok (graph.definition runtime node) := by
    simp [Value.item, Value.content, found]
  have whole : (graph.blueprint order runtime).project.document.item (.text "functions") =
      .ok (.map (graph.blueprint order runtime).functions) := rfl
  simp only [Value.itemAt, whole, item, bind, Except.bind]

/-- A resource that one node alone writes is the one which that node leaves. -/
theorem find?_of_writesAlone {runtimeId : Value} (typed : graph.Typed)
    (clear : graph.nodeList.findSome? graph.fault? = none) (order : Order) (runtime : Runtime)
    (member : node ∈ graph.nodeList) {name : String} {made : Value}
    (alone : graph.WritesAlone runtimeId node name)
    (leaves : Entries.lastOf Atom.same (graph.stores node) (.text name) = some made) :
    Entries.find? Atom.same (graph.blueprint order runtime).resources (.text name) =
      some made := by
  have exact := Entries.exact_text name
  -- Whoever leaves something under the name is the node itself.
  have own : ∀ other ∈ graph.nodeList, ∀ value,
      Entries.lastOf Atom.same (graph.stores other) (.text name) = some value → other = node := by
    intro other otherMember value left
    by_contra different
    refine alone other otherMember different ?_
    rw [proper.writes_eq_stores typed runtimeId otherMember
        (List.findSome?_eq_none_iff.1 clear other otherMember),
      Entries.mem_keys_iff_lastOf exact (proper.allExact_stores otherMember)]
    exact ⟨value, left⟩
  refine (Entries.find?_putAll_of_agreeing exact
    (fun other otherMember => proper.allExact_stores otherMember) ?_).2 ⟨node, member, leaves⟩
  intro first firstMember second secondMember a b firstLeaves secondLeaves
  rw [own first firstMember a firstLeaves] at firstLeaves
  rw [own second secondMember b secondLeaves] at secondLeaves
  exact Option.some.inj (firstLeaves.symm.trans secondLeaves)

/-- An identity pool leaves the policy of its users, with its grants. -/
theorem lastOf_identityPolicy (member : node ∈ graph.nodeList) {pool : String}
    (idEq : node.id = .text pool) (isOf : node.IsOf .identityPool) :
    Entries.lastOf Atom.same (graph.stores node) (.text (pool ++ "CognitoUnauthPolicy")) =
      some (identityPolicy (pool ++ "CognitoUnauthRole") (graph.grants node.targets)) := by
  have whole : graph.stores node = poolResources node ++ [graph.poolPolicy node] :=
    stores_of_isOf isOf
  simp only [poolResources, poolPolicy, idEq] at whole
  exact Entries.lastOf_of_split [_, _] (Entries.exact_text _) (proper.allExact_stores member)
    whole (by simp)

end Graph.Proper

namespace Graph

/-- In what a graph compiles to, the edges out of functions and identity pools allow exactly
what the kinds of their targets grant. -/
theorem compile_grants_targets {graph : Graph} {order : Order} {project : Project}
    (proper : graph.Proper) (compiled : (graph.compile order).result = .ok project) :
    graph.FanOut order project.document := by
  obtain ⟨typed, _⟩ := Proper.typed_of_compile compiled
  obtain ⟨runtime, known, clear, rfl⟩ := proper.eq_blueprint compiled
  have clear' := List.findSome?_eq_none_iff.1 clear
  constructor
  case granting => exact fun kind id => Kind.exists_allows_iff
  case written =>
    intro node member isOf target leads
    have kinds : ∃ kind, graph.kindOf target = .ok kind := by
      rcases isOf with isFunction | isPool
      · exact proper.kindOf_target member (clear' node member) isFunction (.inl rfl) leads
      · exact proper.kindOf_target member (clear' node member) isPool (.inr rfl) leads
    obtain ⟨kind, kindOf⟩ := kinds
    obtain ⟨id, rfl⟩ := proper.targets_text member target leads
    have isKind : graph.isOfKind kind (.text id) = true := by simp [isOfKind, kindOf]
    obtain ⟨found, foundMember, foundId, foundOf⟩ := proper.isOfKind_iff_isOf.1 isKind
    exact ⟨found, foundMember, id, kind, rfl, foundId, foundOf,
      fun statement => expand_grantOn_iff kindOf⟩
  case functions =>
    intro node member isFunction
    exact ⟨graph.definition runtime node, proper.itemAt_function order runtime member isFunction,
      statements_of_definition runtime node⟩
  case pools =>
    intro node member isPool pool idEq alone
    have found := proper.find?_of_writesAlone typed clear order runtime member alone
      (proper.lastOf_identityPolicy member idEq isPool)
    have item : (Value.map (graph.blueprint order runtime).resources).item
        (.text (pool ++ "CognitoUnauthPolicy")) =
        .ok (identityPolicy (pool ++ "CognitoUnauthRole") (graph.grants node.targets)) := by
      simp [Value.item, Value.content, found]
    have whole : (graph.blueprint order runtime).project.document.item (.text "resources") =
        .ok (.record [("Resources", .map (graph.blueprint order runtime).resources),
          ("Outputs", .map [])]) := rfl
    have inner : (Value.record [("Resources", .map (graph.blueprint order runtime).resources),
        ("Outputs", .map [])]).item (.text "Resources") =
        .ok (.map (graph.blueprint order runtime).resources) := rfl
    simp only [poolStatementsPath, Value.itemAt, whole, inner, item, bind, Except.bind]
    rfl
  case confined =>
    intro node member statement collected
    exact proper.scoped_grants member collected

end Graph

/-- The nodes of a shop: a function and an identity pool have the same edges, to a table twice,
to a bucket, to a schedule that grants nothing, to a function and to an interface. -/
def shopNodes : List Node := [
  ⟨.text "sell", .text "fn", .text "", [], [.text "orders", .text "pictures", .text "nightly",
    .text "orders", .text "sell", .text "counter"]⟩,
  ⟨.text "orders", .text "table", .text "", [], []⟩,
  ⟨.text "pictures", .text "bucket", .text "", [], []⟩,
  ⟨.text "nightly", .text "schedule", .text "", [], []⟩,
  ⟨.text "guests", .text "cognitoIdentity", .text "", [], [.text "orders", .text "pictures",
    .text "nightly", .text "orders", .text "sell", .text "counter"]⟩,
  ⟨.text "counter", .text "api", .text "", [], []⟩]

/-- The architecture of a shop. -/
def shop : Graph :=
  .ofNodes shopNodes

theorem nodeList_shop : shop.nodeList = shopNodes := rfl

theorem shop_loaded :
    Graph.ofValue (.record [("nodes", .list (shopNodes.map Node.toValue))]) = .ok shop :=
  rfl

theorem shop_textual : shop.Textual := by
  constructor <;> simp [nodeList_shop, shopNodes]

theorem shop_compiles : ∃ project, (shop.compile thumbnailOrder).result = .ok project := by
  have proper := Graph.proper_of_ofValue shop_loaded shop_textual
  have typed : shop.Typed := by simp [Graph.Typed, nodeList_shop, shopNodes]
  have clear : shop.nodeList.findSome? shop.fault? = none := by decide +kernel
  obtain ⟨runtime, known⟩ : ∃ runtime, Runtime.ofId thumbnailOrder.runtime = .ok runtime := ⟨_, rfl⟩
  rw [proper.compile_result typed known, clear]
  exact ⟨_, rfl⟩

namespace Graph

/-- The function and the identity pool of the shop have the same statements. -/
theorem shop_grants_targets : ∃ project definition statements,
    (shop.compile thumbnailOrder).result = .ok project ∧
      shop.FanOut thumbnailOrder project.document ∧
      project.document.itemAt [.text "functions", .text "sell"] = .ok definition ∧
      definition.field? "iamRoleStatements" = some (.list statements) ∧
      project.document.itemAt (poolStatementsPath "guests") = .ok (.list statements) ∧
      let orders : Value := .record [
        ("Effect", .text "Allow"),
        ("Action", .texts ["dynamodb:GetItem", "dynamodb:PutItem"]),
        ("Resource", .record [("Fn::GetAtt", .texts ["orders", "Arn"])])]
      statements.map Value.expand = [
        orders,
        .record [
          ("Effect", .text "Allow"),
          ("Action", .texts ["s3:GetObject", "s3:PutObject"]),
          ("Resource", .record [("Fn::Join", .list [.text "", .list [
            .record [("Fn::GetAtt", .texts ["pictures", "Arn"])], .text "/*"]])])],
        orders,
        .record [
          ("Effect", .text "Allow"),
          ("Action", .texts ["lambda:InvokeFunction", "lambda:InvokeAsync"]),
          ("Resource", .record [("Fn::GetAtt", .texts ["sellLambdaFunction", "Arn"])])],
        .record [
          ("Effect", .text "Allow"),
          ("Action", .text "execute-api:Invoke"),
          ("Resource", .record [("Fn::Join", .list [.text "", .list [
            .text "arn:aws:execute-api:", .record [("Ref", .text "AWS::Region")], .text ":",
            .record [("Ref", .text "AWS::AccountId")], .text ":*/*/*/*"]])])]] := by
  obtain ⟨project, compiled⟩ := shop_compiles
  have proper := proper_of_ofValue shop_loaded shop_textual
  have fanOut := compile_grants_targets proper compiled
  obtain ⟨definition, defined, statements⟩ :=
    fanOut.functions shopNodes[0] (by simp [nodeList_shop, shopNodes]) rfl
  have alone :
      shop.WritesAlone thumbnailOrder.runtime shopNodes[4] "guestsCognitoUnauthPolicy" := by
    have others : ∀ other ∈ shopNodes, other.id = .text "guests" ∨
        .text "guestsCognitoUnauthPolicy" ∉
          Entries.keys (shop.writes thumbnailOrder.runtime other) := by
      decide +kernel
    have distinct : (shopNodes.map (·.id)).Nodup := by decide
    intro other member different
    refine (others other member).resolve_left fun same => different ?_
    exact List.inj_on_of_nodup_map distinct member (by simp [shopNodes]) same
  have policy := fanOut.pools shopNodes[4] (by simp [nodeList_shop, shopNodes]) rfl "guests" rfl
    alone
  have granted : ∃ target ∈ shopNodes[0].targets, (shop.grantOn target).isSome = true :=
    ⟨.text "orders", by simp [shopNodes], by decide +kernel⟩
  rw [if_pos granted] at statements
  exact ⟨project, definition, _, compiled, fanOut, defined, statements, policy, rfl⟩

end Graph

end CloudGraph
