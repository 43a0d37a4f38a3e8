import CloudGraph.Proofs.Draft
import CloudGraph.Proofs.Lookup

/-!
# What visits store

Every kind of node but a function only stores resources when it is visited.
`Graph.resourcesOf` lists them in order, and `Graph.Proper.visit_adds` says that a visit
stores these and ends with the first lookup that fails, if one does.
-/

namespace CloudGraph

open Fragment

namespace Graph

variable (graph : Graph)

/-- The grants on some targets, in order. -/
def grants (targets : List Value) : List Value :=
  targets.filterMap fun target =>
    match graph.kindOf target with
    | .ok kind => grant kind target
    | .error _ => none

/-- The resources of a delivery stream; none without a bucket. -/
def deliveryResources (node : Node) : List (Atom × Value) :=
  match graph.lastOf? .bucket node.targets with
  | none => []
  | some bucket =>
    let roleId := node.id.plain ++ "DeliveryRole"
    let policyId := node.id.plain ++ "DeliveryPolicy"
    [(node.id, deliveryStreamResource bucket roleId policyId
      (graph.lastOf? .function node.targets)),
      (.text roleId, deliveryRole),
      (.text policyId, deliveryPolicy bucket roleId)]

/-- The resources of an analytics application. -/
def analyticsResources (node : Node) : List (Atom × Value) :=
  let roleId := node.id.plain ++ "Role"
  let inputEnds := analyticsEnds "KinesisStreamsInput" "KinesisFirehoseInput" roleId
    (graph.lastOf? .stream node.sources) (graph.lastOf? .deliveryStream node.sources)
  let outputEnds := analyticsEnds "KinesisStreamsOutput" "KinesisFirehoseOutput" roleId
    (graph.lastOf? .stream node.targets) (graph.lastOf? .deliveryStream node.targets)
  [(node.id, analyticsResource (.atom node.id) node.description inputEnds),
    (.text roleId, analyticsRole),
    (.text (node.id.plain ++ "Outputs"), analyticsOutputs (.atom node.id) outputEnds)]

/-- The resources of an identity pool that are stored before its targets are looked up. -/
def poolResources (node : Node) : List (Atom × Value) :=
  [(node.id, identityPoolResource),
    (.text (node.id.plain ++ "CognitoUnauthRole"), identityRole (.atom node.id))]

/-- The resource of an identity pool that is stored after its targets are looked up. -/
def poolPolicy (node : Node) : Atom × Value :=
  (.text (node.id.plain ++ "CognitoUnauthPolicy"),
    identityPolicy (node.id.plain ++ "CognitoUnauthRole") (graph.grants node.targets))

/-- A topic rule with its actions, as long as it is stored again. -/
def ruleStored (node : Node) (stored : Bool) (actions : List Value) : List (Atom × Value) :=
  if stored then [(node.id, topicRuleResource node.description actions)] else []

/-- The resources that the edges out of a topic rule store, up to the first one whose target
is neither a function nor a topic rule. -/
def actionResources (node : Node) (stored : Bool) (actions : List Value) :
    List Value → List (Atom × Value)
  | [] => []
  | target :: targets =>
    if graph.isOfKind .function target then
      let actions := actions ++ [invokeAction target]
      ruleStored node stored actions ++ actionResources node stored actions targets
    else if graph.isOfKind .topicRule target then
      let roleId := target.plain ++ "PublishRole"
      let actions := actions ++ [republishAction roleId]
      ruleStored node stored actions ++ (.text roleId, republishRole outputTopics) ::
        actionResources node (stored && !Atom.same node.id (.text roleId)) actions targets
    else []

/-- The resources that a node of a kind stores, in order. -/
def resourcesOf (node : Node) : Kind → List (Atom × Value)
  | .bucket => [(node.id, plainResource "AWS::S3::Bucket")]
  | .table => [(node.id, tableResource)]
  | .stream => [(node.id, streamResource)]
  | .topic => [(node.id, plainResource "AWS::SNS::Topic")]
  | .stepFunction => [(node.id, stateMachineResource)]
  | .deliveryStream => graph.deliveryResources node
  | .analyticsStream => graph.analyticsResources node
  | .identityPool => poolResources node ++ [graph.poolPolicy node]
  | .topicRule =>
    (node.id, topicRuleResource node.description []) ::
      graph.actionResources node true [] node.targets
  | .api | .schedule | .function => []

variable {graph}

theorem actionResources_of_function {node : Node} {stored : Bool} {actions targets : List Value}
    {target : Value} (isFunction : graph.isOfKind .function target = true) :
    graph.actionResources node stored actions (target :: targets) =
      ruleStored node stored (actions ++ [invokeAction target]) ++
        graph.actionResources node stored (actions ++ [invokeAction target]) targets := by
  simp [actionResources, isFunction]

theorem actionResources_of_rule {node : Node} {stored : Bool} {actions targets : List Value}
    {target : Value} (isRule : graph.isOfKind .topicRule target = true) :
    graph.actionResources node stored actions (target :: targets) =
      ruleStored node stored (actions ++ [republishAction (target.plain ++ "PublishRole")]) ++
        (.text (target.plain ++ "PublishRole"), republishRole outputTopics) ::
          graph.actionResources node
            (stored && !Atom.same node.id (.text (target.plain ++ "PublishRole")))
            (actions ++ [republishAction (target.plain ++ "PublishRole")]) targets := by
  have noFunction : ¬graph.isOfKind .function target = true := by
    intro isFunction
    cases isOfKind_unique isFunction isRule
  simp [actionResources, noFunction, isRule]

theorem actionResources_of_neither {node : Node} {stored : Bool} {actions targets : List Value}
    {target : Value} (noFunction : ¬graph.isOfKind .function target = true)
    (noRule : ¬graph.isOfKind .topicRule target = true) :
    graph.actionResources node stored actions (target :: targets) = [] := by
  simp [actionResources, noFunction, noRule]

/-- What is granted is what the kind of some target grants. -/
theorem mem_grants {targets : List Value} {statement : Value} :
    statement ∈ graph.grants targets ↔ ∃ target ∈ targets, ∃ kind,
      graph.isOfKind kind target = true ∧ grant kind target = some statement := by
  unfold grants
  rw [List.mem_filterMap]
  refine exists_congr fun target => and_congr_right fun _ => ?_
  cases kindOf : graph.kindOf target with
  | error fault => simp [isOfKind, kindOf]
  | ok kind => simp [isOfKind, kindOf]

/-- Collecting grants only leaves records. -/
theorem statements_notes (graph : Graph) (source : Value) (targets : List Value) :
    Plan.Every Edit.IsNote (graph.statements source targets) := by
  induction targets with
  | nil => exact Plan.Every.pure
  | cons target targets ih =>
      have note : ∀ message, Plan.Every Edit.IsNote (Plan.note .debug .wiring message) :=
        fun _ => Plan.Every.step trivial
      refine .bind (note _) fun _ => .bind .lift fun kind => ?_
      cases grant kind target with
      | none => exact .bind (note _) fun _ => ih
      | some statement => exact .bind ih fun _ => .pure

end Graph

namespace Graph.Proper

open Plan (Adds)

variable {graph : Graph} (proper : graph.Proper) (typed : graph.Typed)

include proper typed

/-- Collecting the grants on some targets stores nothing. -/
theorem statements_adds (node : Node) (source : Value) (targets : List Value)
    (texts : ∀ target ∈ targets, ∃ id, target = .text id) :
    Adds (graph.statements source targets) []
      (unlessFault (graph.firstFault? node ((textsIn targets).map .rule))
        (graph.grants targets)) := by
  induction targets with
  | nil => exact Adds.pure
  | cons target targets ih =>
      obtain ⟨id, rfl⟩ := texts target List.mem_cons_self
      have ih := ih fun target member => texts target (List.mem_cons_of_mem _ member)
      rw [textsIn_cons_text, List.map_cons, firstFault?_cons]
      unfold Graph.statements
      refine Adds.after_note ?_
      cases failed : graph.lookupFault? node (.rule id) with
      | some fault =>
          have kindOf := proper.kindOf_of_fault typed failed
          rw [kindOf]
          exact Adds.bind_fault Adds.lift
      | none =>
          obtain ⟨kind, kindOf⟩ := proper.kindOf_of_clear failed
          rw [kindOf, Option.none_or]
          refine Adds.after_lift ?_
          cases granted : grant kind (.text id) with
          | none =>
              have skipped : graph.grants (.text id :: targets) = graph.grants targets := by
                simp [grants, kindOf, granted]
              rw [skipped]
              exact Adds.after_note ih
          | some statement =>
              have kept : graph.grants (.text id :: targets) =
                  statement :: graph.grants targets := by
                simp [grants, kindOf, granted]
              rw [kept]
              cases later : graph.firstFault? node ((textsIn targets).map .rule) with
              | some fault =>
                  rw [later] at ih
                  exact Adds.bind_fault ih
              | none =>
                  rw [later] at ih
                  exact Adds.bind ih Adds.pure

variable {node : Node}

omit typed in
theorem sources_text (member : node ∈ graph.nodeList) :
    ∀ source ∈ node.sources, ∃ id, source = .text id :=
  proper.textual.sources node member

omit typed in
theorem targets_text (member : node ∈ graph.nodeList) :
    ∀ target ∈ node.targets, ∃ id, target = .text id :=
  proper.textual.targets node member

omit typed in
/-- A delivery stream stores its resources unless one of its targets is missing. -/
theorem visitDeliveryStream_adds (member : node ∈ graph.nodeList) :
    ∃ resources, Adds (graph.visitDeliveryStream node) resources
        (unlessFault (graph.firstFault? node (node.lookups .deliveryStream)) ()) ∧
      (graph.firstFault? node (node.lookups .deliveryStream) = none →
        resources = graph.deliveryResources node) := by
  have last : ∀ kind, graph.lastOfKind kind node.targets =
      unlessFault (graph.firstFault? node (node.lookups .deliveryStream))
        (graph.lastOf? kind node.targets) :=
    fun kind => proper.lastOfKind_eq kind node.targets (proper.targets_text member)
  unfold Graph.visitDeliveryStream
  rw [last, last]
  cases failed : graph.firstFault? node (node.lookups .deliveryStream) with
  | some fault => exact ⟨[], Adds.bind_fault Adds.lift, by simp⟩
  | none =>
      refine ⟨graph.deliveryResources node, ?_, fun _ => rfl⟩
      refine Adds.after_lift (Adds.after_lift ?_)
      obtain ⟨id, idEq⟩ := proper.textual.ids node member
      unfold deliveryResources
      rw [idEq]
      cases graph.lastOf? .bucket node.targets with
      | none => exact Adds.note
      | some bucket =>
          exact Adds.after_lift (Adds.after_lift
            (Adds.after_put (Adds.after_put Adds.put)))

omit typed in
/-- An analytics application stores its resources unless an end of its edges is missing. -/
theorem visitAnalyticsStream_adds (member : node ∈ graph.nodeList) :
    ∃ resources, Adds (graph.visitAnalyticsStream node) resources
        (unlessFault (graph.firstFault? node (node.lookups .analyticsStream)) ()) ∧
      (graph.firstFault? node (node.lookups .analyticsStream) = none →
        resources = graph.analyticsResources node) := by
  have lastSource : ∀ kind, graph.lastOfKind kind node.sources =
      unlessFault (graph.firstFault? node ((textsIn node.sources).map .type))
        (graph.lastOf? kind node.sources) :=
    fun kind => proper.lastOfKind_eq kind node.sources (proper.sources_text member)
  have lastTarget : ∀ kind, graph.lastOfKind kind node.targets =
      unlessFault (graph.firstFault? node ((textsIn node.targets).map .type))
        (graph.lastOf? kind node.targets) :=
    fun kind => proper.lastOfKind_eq kind node.targets (proper.targets_text member)
  have both : graph.firstFault? node (node.lookups .analyticsStream) =
      (graph.firstFault? node ((textsIn node.sources).map .type)).or
        (graph.firstFault? node ((textsIn node.targets).map .type)) := by
    simp only [Node.lookups, List.map_append, firstFault?_append]
  unfold Graph.visitAnalyticsStream
  rw [lastSource, lastSource, lastTarget, lastTarget, both]
  cases graph.firstFault? node ((textsIn node.sources).map .type) with
  | some fault => exact ⟨[], Adds.bind_fault Adds.lift, by simp⟩
  | none =>
      cases graph.firstFault? node ((textsIn node.targets).map .type) with
      | some fault =>
          exact ⟨[], Adds.after_lift (Adds.after_lift (Adds.bind_fault Adds.lift)), by simp⟩
      | none =>
          refine ⟨graph.analyticsResources node, ?_, fun _ => rfl⟩
          refine Adds.after_lift (Adds.after_lift (Adds.after_lift
            (Adds.after_lift ?_)))
          obtain ⟨id, idEq⟩ := proper.textual.ids node member
          unfold analyticsResources
          rw [idEq]
          exact Adds.after_lift (Adds.after_lift
            (Adds.after_put (Adds.after_put Adds.put)))

/-- An identity pool stores its resources, the last of them unless a target has no rule. -/
theorem visitIdentityPool_adds (member : node ∈ graph.nodeList) :
    ∃ resources, Adds (graph.visitIdentityPool node) resources
        (unlessFault (graph.firstFault? node (node.lookups .identityPool)) ()) ∧
      (graph.firstFault? node (node.lookups .identityPool) = none →
        resources = poolResources node ++ [graph.poolPolicy node]) := by
  obtain ⟨id, idEq⟩ := proper.textual.ids node member
  have collected := proper.statements_adds typed node (.text id) node.targets
    (proper.targets_text member)
  unfold Graph.visitIdentityPool poolResources poolPolicy Node.lookups
  rw [idEq]
  cases failed : graph.firstFault? node ((textsIn node.targets).map .rule) with
  | some fault =>
      rw [failed] at collected
      exact ⟨_, Adds.after_lift (Adds.after_lift (Adds.after_put
        (Adds.after_put (Adds.bind_fault collected)))), by simp⟩
  | none =>
      rw [failed] at collected
      exact ⟨_, Adds.after_lift (Adds.after_lift (Adds.after_put
        (Adds.after_put (Adds.bind collected Adds.put)))), fun _ => rfl⟩

omit typed in
/-- A lookup for a target fails unless the target is a function or a topic rule. -/
theorem targetFault?_of_named {found : Node} {id : String} (named : graph.named? id = some found) :
    graph.lookupFault? node (.target id) =
      if graph.isOfKind .function (.text id) ∨ graph.isOfKind .topicRule (.text id) then none
      else some (.problem (.unsupportedTarget (.atom node.id) (.text id) found.type)) := by
  simp [lookupFault?, named, proper.isOfKind_iff]

omit proper typed in
/-- A topic rule is stored again as long as no role has taken its place. -/
theorem ruleStored_adds (node : Node) (stored : Bool) (actions : List Value) :
    Adds (if stored then Plan.putResource node.id (topicRuleResource node.description actions)
      else pure ()) (ruleStored node stored actions) (.ok ()) := by
  cases stored with
  | true => exact Adds.put
  | false => exact Adds.pure

omit typed in
/-- The edges out of a topic rule store their resources up to the first that fails. -/
theorem visitActions_adds (stored : Bool) (actions targets : List Value)
    (texts : ∀ target ∈ targets, ∃ id, target = .text id) :
    Adds (graph.visitActions node stored actions targets)
      (graph.actionResources node stored actions targets)
      (unlessFault (graph.firstFault? node ((textsIn targets).map .target)) ()) := by
  induction targets generalizing stored actions with
  | nil => exact Adds.pure
  | cons target targets ih =>
      obtain ⟨id, rfl⟩ := texts target List.mem_cons_self
      have ih := fun stored actions =>
        ih stored actions fun target member => texts target (List.mem_cons_of_mem _ member)
      rw [textsIn_cons_text, List.map_cons, firstFault?_cons]
      unfold Graph.visitActions
      cases named : graph.named? id with
      | none =>
          have missing : graph.lookupFault? node (.target id) = some (.missingKey (.text id)) := by
            simp [lookupFault?, named]
          have unkind : ∀ kind, ¬graph.isOfKind kind (.text id) = true := by
            intro kind isKind
            obtain ⟨found, other, _⟩ := proper.isOfKind_iff.1 isKind
            rw [named] at other
            cases other
          rw [proper.typeOf_of_missing named, missing,
            actionResources_of_neither (unkind _) (unkind _)]
          exact Adds.bind_fault Adds.lift
      | some found =>
          rw [proper.typeOf_of_named named, proper.targetFault?_of_named named]
          by_cases isFunction : graph.isOfKind .function (.text id) = true
          · rw [actionResources_of_function isFunction, if_pos (Or.inl isFunction), Option.none_or]
            refine Adds.after_lift (Adds.after_note ?_)
            rw [proper.isNamedBy_type named, if_pos isFunction]
            exact Adds.bind (ruleStored_adds _ _ _) (ih _ _)
          · by_cases isRule : graph.isOfKind .topicRule (.text id) = true
            · rw [actionResources_of_rule isRule, if_pos (Or.inr isRule), Option.none_or]
              refine Adds.after_lift (Adds.after_note ?_)
              rw [proper.isNamedBy_type named, if_neg isFunction, proper.isNamedBy_type named,
                if_pos isRule]
              exact Adds.after_lift (Adds.bind (ruleStored_adds _ _ _) (Adds.after_put (ih _ _)))
            · have neither : ¬(graph.isOfKind .function (.text id) = true ∨
                  graph.isOfKind .topicRule (.text id) = true) :=
                fun either => either.elim isFunction isRule
              rw [actionResources_of_neither isFunction isRule, if_neg neither, Option.some_or]
              refine Adds.after_lift (Adds.after_note ?_)
              rw [proper.isNamedBy_type named, if_neg isFunction, proper.isNamedBy_type named,
                if_neg isRule]
              exact Adds.fail

/-- A visit of a node that is no function stores its resources and ends with the first
lookup that fails; without one, it has stored them all. -/
theorem visit_adds (runtimeId : Value) {kind : Kind} (member : node ∈ graph.nodeList)
    (noFunction : kind ≠ .function) :
    ∃ resources, Adds (graph.visit runtimeId kind node) resources
        (unlessFault (graph.firstFault? node (node.lookups kind)) ()) ∧
      (graph.firstFault? node (node.lookups kind) = none →
        resources = graph.resourcesOf node kind) := by
  cases kind with
  | function => exact absurd rfl noFunction
  | bucket | table | stream | topic | stepFunction => exact ⟨_, Adds.put, fun _ => rfl⟩
  | api | schedule => exact ⟨_, Adds.pure, fun _ => rfl⟩
  | deliveryStream => exact proper.visitDeliveryStream_adds member
  | analyticsStream => exact proper.visitAnalyticsStream_adds member
  | identityPool => exact proper.visitIdentityPool_adds typed member
  | topicRule =>
      exact ⟨_, Adds.bind Adds.put
        (proper.visitActions_adds true [] node.targets (proper.targets_text member)), fun _ => rfl⟩

end Graph.Proper

end CloudGraph
