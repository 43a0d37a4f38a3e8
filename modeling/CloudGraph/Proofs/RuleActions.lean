import CloudGraph.Proofs.Actions
import CloudGraph.Proofs.Footprints
import CloudGraph.Proofs.Parts
import CloudGraph.Proofs.Templates
import Mathlib.Data.List.TakeWhile

/-!
# The actions of a topic rule

A topic rule goes through its edges in order and stops at the first one whose target is not there,
or is neither a function nor a topic rule. Up to that edge it has one action for every edge, fixed
by the kind and the id of the target (`Kind.Acts`), and every rule that it publishes to has its
role: `Graph.visit_acts_on_targets`. What comes after the edge leaves no trace.

That holds in every graph and for every project with a mapping of resources. Roles are named after
the target, so a rule can be in the way of a role that it makes itself; a rule that is not keeps its
place, and every later action is put into it.
-/

namespace CloudGraph

open Fragment

namespace Graph

open Plan (Adds)
open Entries (AllExact ChangedAt)

section Targets

variable (graph : Graph)

/-- Whether a topic rule can act on a target: a function or a topic rule. -/
def takesAction (target : String) : Bool :=
  graph.isOfKind .function (.text target) || graph.isOfKind .topicRule (.text target)

/-- The name of the role for publishing to a topic rule. -/
def publishRole (target : String) : Atom :=
  .text (target ++ "PublishRole")

/-- The action on a target. -/
def actionTo (target : String) : Value :=
  if graph.isOfKind .function (.text target) then invokeAction (.text target)
  else republishAction (target ++ "PublishRole")

/-- An action is what is written out for the kind and the id of a target. -/
def IsActionOn (target : String) (action : Value) : Prop :=
  ∃ kind, graph.isOfKind kind (.text target) = true ∧ Kind.Acts kind target action

/-- Why a topic rule cannot act on a target: it is not there, or it is of another type. -/
def refusal (node : Node) (target : String) : Fault :=
  match graph.typeOf (.text target) with
  | .error _ => .missingKey (.text target)
  | .ok type => .problem (.unsupportedTarget (.atom node.id) (.text target) type)

/-- How going through some targets ends: at the first that no action is possible on. -/
def actionsEnd (node : Node) (targets : List String) : Except Fault Unit :=
  match targets.find? fun target => !graph.takesAction target with
  | none => .ok ()
  | some target => .error (graph.refusal node target)

end Targets

variable {graph : Graph} {runtimeId : Value} {node : Node} {target : String}

/-- The kind of an id is what the type of its node names. -/
theorem isNamedBy_of_typeOf {id type : Value} (typed : graph.typeOf id = .ok type) (kind : Kind) :
    kind.isNamedBy type = graph.isOfKind kind id := by
  rw [Bool.eq_iff_iff]
  refine ⟨isOfKind_of_typeOf typed, fun ofKind => ?_⟩
  unfold isOfKind at ofKind
  split at ofKind
  next found looked =>
    obtain rfl := of_decide_eq_true ofKind
    have named : Kind.ofValue type = .ok found := by
      simpa [Graph.kindOf, typed, bind, Except.bind] using looked
    rw [Kind.ofValue_eq_ok_iff.1 named]
    exact beq_self_eq_true _
  next => cases ofKind

/-- An id without a node is of no kind, and the lookup of its type misses the id. -/
theorem of_typeOf_error {fault : Fault} (untyped : graph.typeOf (.text target) = .error fault) :
    fault = .missingKey (.text target) ∧ ∀ kind, graph.isOfKind kind (.text target) = false := by
  constructor
  · unfold typeOf Graph.node at untyped
    cases found : Entries.find? Atom.same graph.nodes (.text target) with
    | none => simpa [found, bind, Except.bind] using untyped.symm
    | some node => simp [found, bind, Except.bind, pure, Except.pure] at untyped
  · intro kind
    simp [isOfKind, Graph.kindOf, untyped, bind, Except.bind]

theorem isActionOn_actionTo (takes : graph.takesAction target = true) :
    graph.IsActionOn target (graph.actionTo target) := by
  by_cases isFunction : graph.isOfKind .function (.text target) = true
  · rw [actionTo, if_pos isFunction]
    exact ⟨.function, isFunction, .function⟩
  · have isRule : graph.isOfKind .topicRule (.text target) = true := by
      simpa [takesAction, isFunction] using takes
    rw [actionTo, if_neg isFunction]
    exact ⟨.topicRule, isRule, .topicRule⟩

theorem actionsEnd_of_takesAction (takes : graph.takesAction target = true)
    (targets : List String) :
    graph.actionsEnd node (target :: targets) = graph.actionsEnd node targets := by
  simp [actionsEnd, takes]

theorem actionsEnd_of_refused (refused : graph.takesAction target = false)
    (targets : List String) :
    graph.actionsEnd node (target :: targets) = .error (graph.refusal node target) := by
  simp [actionsEnd, refused]

/-- One edge: its action and its role are stored if it leads to a function or a topic rule, and all
is over if it does not. -/
theorem visitActions_adds (node : Node) (stored : Bool) (actions : List Value)
    (targets : List String) :
    Adds (graph.visitActions node stored actions (targets.map .text))
      (graph.actionResources node stored actions (targets.map .text))
      (graph.actionsEnd node targets) := by
  induction targets generalizing stored actions with
  | nil => exact Adds.pure
  | cons target targets ih =>
      rw [List.map_cons]
      unfold visitActions
      cases typed : graph.typeOf (.text target) with
      | error fault =>
          obtain ⟨rfl, unkind⟩ := of_typeOf_error typed
          have refused : graph.takesAction target = false := by simp [takesAction, unkind]
          have why : graph.refusal node target = .missingKey (.text target) := by
            simp [refusal, typed]
          rw [actionResources_of_neither (by simp [unkind]) (by simp [unkind]),
            actionsEnd_of_refused refused, why]
          exact Adds.bind_fault Adds.lift
      | ok type =>
          refine Adds.after_lift (Adds.after_note ?_)
          rw [isNamedBy_of_typeOf typed, isNamedBy_of_typeOf typed]
          by_cases isFunction : graph.isOfKind .function (.text target) = true
          · have takes : graph.takesAction target = true := by simp [takesAction, isFunction]
            rw [if_pos isFunction, actionResources_of_function isFunction,
              actionsEnd_of_takesAction takes]
            exact Adds.bind (Proper.ruleStored_adds _ _ _) (ih _ _)
          · by_cases isRule : graph.isOfKind .topicRule (.text target) = true
            · have takes : graph.takesAction target = true := by simp [takesAction, isRule]
              rw [if_neg isFunction, if_pos isRule, actionResources_of_rule isRule,
                actionsEnd_of_takesAction takes]
              exact Adds.after_lift (Adds.bind (Proper.ruleStored_adds _ _ _)
                (Adds.after_put (ih _ _)))
            · have refused : graph.takesAction target = false := by
                simp [takesAction, isFunction, isRule]
              have why : graph.refusal node target =
                  .problem (.unsupportedTarget (.atom node.id) (.text target) type) := by
                simp [refusal, typed]
              rw [if_neg isFunction, if_neg isRule, actionResources_of_neither isFunction isRule,
                actionsEnd_of_refused refused, why]
              exact Adds.fail

/-- Nothing is stored for the edges from the first refused one on. -/
theorem actionResources_takeWhile (node : Node) (stored : Bool) (actions : List Value)
    (targets : List String) :
    graph.actionResources node stored actions (targets.map .text) =
      graph.actionResources node stored actions
        ((targets.takeWhile graph.takesAction).map .text) := by
  induction targets generalizing stored actions with
  | nil => rfl
  | cons target targets ih =>
      by_cases isFunction : graph.isOfKind .function (.text target) = true
      · rw [List.takeWhile_cons_of_pos (by simp [takesAction, isFunction]), List.map_cons,
          List.map_cons, actionResources_of_function isFunction,
          actionResources_of_function isFunction, ih]
      · by_cases isRule : graph.isOfKind .topicRule (.text target) = true
        · rw [List.takeWhile_cons_of_pos (by simp [takesAction, isRule]), List.map_cons,
            List.map_cons, actionResources_of_rule isRule, actionResources_of_rule isRule, ih]
        · rw [List.takeWhile_cons_of_neg (by simp [takesAction, isFunction, isRule]),
            List.map_cons, actionResources_of_neither isFunction isRule]
          rfl

/-- No target is a topic rule whose role has the id of the node. -/
def OutOfTheWay (graph : Graph) (node : Node) (targets : List String) : Prop :=
  ∀ target ∈ targets, graph.isOfKind .topicRule (.text target) = true →
    node.id ≠ publishRole target

/-- A rule that is in the way of no role has an action for every edge in the end. -/
theorem find?_rule (exactId : Entries.Exact Atom.same node.id) {targets : List String}
    (takes : ∀ target ∈ targets, graph.takesAction target = true)
    (apart : graph.OutOfTheWay node targets) {actions : List Value}
    {resources : Entries Atom Value}
    (found : Entries.find? Atom.same resources node.id =
      some (topicRuleResource node.description actions)) :
    Entries.find? Atom.same (Entries.putAll Atom.same resources
        (graph.actionResources node true actions (targets.map .text))) node.id =
      some (topicRuleResource node.description (actions ++ targets.map graph.actionTo)) := by
  -- Every edge stores the rule again, with the actions for the edges up to it.
  induction targets generalizing actions resources with
  | nil => simpa [actionResources] using found
  | cons target targets ih =>
      obtain ⟨takesTarget, takesRest⟩ := List.forall_mem_cons.1 takes
      obtain ⟨apartTarget, apartRest⟩ := List.forall_mem_cons.1 apart
      have stored : ∀ actions (entries : Entries Atom Value),
          Entries.putAll Atom.same entries (ruleStored node true actions) =
            Entries.put Atom.same entries node.id (topicRuleResource node.description actions) :=
        fun _ _ => rfl
      have own : ∀ actions, Entries.find? Atom.same (Entries.put Atom.same resources node.id
          (topicRuleResource node.description actions)) node.id =
            some (topicRuleResource node.description actions) :=
        fun _ => Entries.find?_put_self exactId
      by_cases isFunction : graph.isOfKind .function (.text target) = true
      · have action : graph.actionTo target = invokeAction (.text target) := if_pos isFunction
        rw [List.map_cons, actionResources_of_function isFunction, Entries.putAll_append, stored,
          ih takesRest apartRest (own _), List.map_cons, action, List.append_assoc,
          List.singleton_append]
      · have isRule : graph.isOfKind .topicRule (.text target) = true := by
          simpa [takesAction, isFunction] using takesTarget
        have action : graph.actionTo target = republishAction (target ++ "PublishRole") :=
          if_neg isFunction
        have different : node.id ≠ .text (target ++ "PublishRole") := apartTarget isRule
        have unlike : Atom.same node.id (.text (target ++ "PublishRole")) = false :=
          (Entries.exact_text _).same_other different
        have kept : Entries.find? Atom.same (Entries.put Atom.same (Entries.put Atom.same resources
            node.id (topicRuleResource node.description
              (actions ++ [republishAction (target ++ "PublishRole")])))
            (.text (target ++ "PublishRole")) (republishRole outputTopics)) node.id = _ :=
          (Entries.find?_put_other (Entries.exact_text _) exactId different).trans (own _)
        have name : (Value.text target).plain ++ "PublishRole" = target ++ "PublishRole" := rfl
        rw [List.map_cons, actionResources_of_rule isRule, name, unlike, Entries.putAll_append,
          stored, Entries.putAll_cons, Bool.not_false, Bool.and_self, ih takesRest apartRest kept,
          List.map_cons, action, List.append_assoc, List.singleton_append]

/-- Every rule that is published to has its role in the end. -/
theorem find?_publishRole {targets : List String} {stored : Bool} {actions : List Value}
    (takes : ∀ target ∈ targets, graph.takesAction target = true)
    (apart : graph.OutOfTheWay node targets) (resources : Entries Atom Value)
    (exact : AllExact Atom.same (graph.actionResources node stored actions (targets.map .text)))
    (member : target ∈ targets) (isRule : graph.isOfKind .topicRule (.text target) = true) :
    Entries.find? Atom.same (Entries.putAll Atom.same resources
        (graph.actionResources node stored actions (targets.map .text))) (publishRole target) =
      some (republishRole outputTopics) := by
  have kinds : ∀ value ∈ targets.map Value.text,
      graph.isOfKind .function value = true ∨ graph.isOfKind .topicRule value = true := by
    simpa [takesAction] using takes
  obtain ⟨earlier, later, split, same⟩ := actionResources_split node stored actions kinds
    (List.mem_map_of_mem member) isRule
  have written : (publishRole target, republishRole outputTopics) ∈
      graph.actionResources node stored actions (targets.map .text) := by
    rw [split]
    exact List.mem_append_right _ List.mem_cons_self
  refine Entries.find?_putAll_of_mem (Entries.exact_text _) exact written fun pair own key => ?_
  exact eq_role_of_mem (fun _ equal => apart target member isRule equal) own key

/-- What a topic rule leaves when it acts on some targets: an action for each of them in order, the
role of each rule among them, and everything else as it was before. -/
structure ActsOn (graph : Graph) (node : Node) (targets : List String) (before after : Project) :
    Prop where
  actions : ∃ actions, after.document.itemAt [.text "resources", .text "Resources", node.id,
      .text "Properties", .text "TopicRulePayload", .text "Actions"] = .ok (.list actions) ∧
    List.Forall₂ graph.IsActionOn targets actions
  roles : ∀ target ∈ targets, graph.isOfKind .topicRule (.text target) = true →
    (after.document.itemAt [.text "resources", .text "Resources",
      .text (target ++ "PublishRole")]).map Value.expand = .ok Template.publishRole
  resources : ∃ old new, before.resources = .ok (.map old) ∧ after.resources = .ok (.map new) ∧
    ChangedAt (fun key => key = node.id ∨ ∃ target ∈ targets,
      graph.isOfKind .topicRule (.text target) = true ∧ key = publishRole target) old new
  others : ∀ place, TextPath place → ¬Along Project.resourcesPath place →
    after.document.itemAt place = before.document.itemAt place
  files : after.files = before.files

/-- What stands at a place inside a resource that is found. -/
theorem itemAt_resource {project : Project} {resources : Entries Atom Value} {id : Atom}
    {resource : Value}
    (held : project.document.itemAt Project.resourcesPath = .ok (.map resources))
    (found : Entries.find? Atom.same resources id = some resource) (place : List Atom) :
    project.document.itemAt (Project.resourcesPath ++ id :: place) = resource.itemAt place := by
  have item : (Value.map resources).item id = .ok resource := by
    simp [Value.item, Value.content, found]
  rw [Value.itemAt_append, held]
  simp [Value.itemAt_cons, item, bind, Except.bind]

/-- The actions of a topic rule are at their place in its resource. -/
theorem itemAt_actions (description : Value) (actions : List Value) :
    (topicRuleResource description actions).itemAt
      [.text "Properties", .text "TopicRulePayload", .text "Actions"] = .ok (.list actions) :=
  rfl

variable (graph) in
/-- A topic rule acts on its targets up to the first that it cannot act on, and ends with the reason
why it cannot. -/
theorem visit_acts_on_targets (runtimeId : Value) {node : Node} {id : String}
    {targets : List String} (idEq : node.id = .text id) (edges : node.targets = targets.map .text)
    (apart : graph.OutOfTheWay node targets) {project : Project} {resources : Entries Atom Value}
    (held : project.resources = .ok (.map resources)) :
    let outcome := Plan.carryOut (graph.visit runtimeId .topicRule node) project
    graph.ActsOn node (targets.takeWhile graph.takesAction) project outcome.project ∧
      outcome.result =
        match targets.find? fun target => !graph.takesAction target with
        | none => .ok ()
        | some target => .error (graph.refusal node target) := by
  have exactId : Entries.Exact Atom.same node.id := idEq ▸ Entries.exact_text id
  have part : ∀ target ∈ targets.takeWhile graph.takesAction, target ∈ targets :=
    fun _ member => List.takeWhile_subset _ member
  have takes : ∀ target ∈ targets.takeWhile graph.takesAction, graph.takesAction target = true :=
    fun _ member => List.mem_takeWhile_imp member
  have apart : graph.OutOfTheWay node (targets.takeWhile graph.takesAction) :=
    fun target member => apart target (part target member)
  have adds : Adds (graph.visit runtimeId .topicRule node)
      ((node.id, topicRuleResource node.description []) :: graph.actionResources node true []
        ((targets.takeWhile graph.takesAction).map .text))
      (graph.actionsEnd node targets) := by
    rw [← actionResources_takeWhile]
    unfold visit visitTopicRule
    rw [edges]
    exact Adds.after_put (visitActions_adds node true [] targets)
  have keys : ∀ pair ∈ graph.actionResources node true []
      ((targets.takeWhile graph.takesAction).map .text), pair.1 = node.id ∨
        ∃ target ∈ targets.takeWhile graph.takesAction,
          graph.isOfKind .topicRule (.text target) = true ∧ pair.1 = publishRole target := by
    intro pair member
    rcases (actionStores_of_mem (fun _ member => member) (by simp) member).key with
      own | ⟨value, inTargets, isRule, role⟩
    · exact .inl own
    · obtain ⟨target, done, rfl⟩ := List.mem_map.1 inTargets
      exact .inr ⟨target, done, isRule, role⟩
  have exact : AllExact Atom.same (graph.actionResources node true []
      ((targets.takeWhile graph.takesAction).map .text)) := by
    intro pair member
    rcases keys pair member with own | ⟨target, _, _, role⟩
    · exact own ▸ exactId
    · exact role ▸ Entries.exact_text _
  obtain ⟨after, ends, replaced⟩ := adds.turns resources project held
  obtain ⟨result, left⟩ := ends.carryOut_eq
  dsimp only
  rw [result, left]
  have begun : Entries.find? Atom.same (Entries.put Atom.same resources node.id
      (topicRuleResource node.description [])) node.id =
        some (topicRuleResource node.description []) :=
    Entries.find?_put_self exactId
  have rule := find?_rule exactId takes apart begun
  refine ⟨⟨?_, fun target member isRule => ?_, ?_, replaced.others, replaced.files⟩, rfl⟩
  · refine ⟨_, (itemAt_resource replaced.part rule _).trans (itemAt_actions _ _), ?_⟩
    rw [List.nil_append, List.forall₂_map_right_iff, List.forall₂_same]
    exact fun target member => isActionOn_actionTo (takes target member)
  · have role : after.document.itemAt [.text "resources", .text "Resources", publishRole target] =
        .ok (republishRole outputTopics) :=
      itemAt_resource replaced.part (find?_publishRole takes apart _ exact member isRule) []
    exact (congrArg (Except.map Value.expand) role).trans (congrArg Except.ok expand_republishRole)
  · refine ⟨resources, _, held, replaced.part, ?_⟩
    refine (ChangedAt.put exactId (.inl rfl) _).trans (ChangedAt.putAll fun pair member => ?_)
    exact ⟨exact pair member, keys pair member⟩

end Graph

/-- A topic rule that acts on a function twice, on itself and on another rule, and then on a bucket,
which it cannot. -/
def siren : Node :=
  ⟨.text "siren", .text "iotRule", .text "Too hot", [],
    [.text "horn", .text "siren", .text "relay", .text "horn", .text "photos", .text "relay"]⟩

/-- The architecture of a siren. -/
def sirens : Graph :=
  .ofNodes [siren,
    ⟨.text "relay", .text "iotRule", .text "", [], []⟩,
    ⟨.text "horn", .text "fn", .text "", [], []⟩,
    ⟨.text "photos", .text "bucket", .text "", [], []⟩]

namespace Graph

/-- The siren is visited where it and the role of the relay are there already. It has the four
actions before the bucket, and the fault names the bucket and its type. -/
theorem siren_acts_on_targets :
    let project := sirens.performAll (.text "python3.7")
      (Project.create (.text "alarms") (.text "python3.7") (.text "aws"))
      [.visit (.text "photos"), .visit (.text "siren")]
    let outcome := Plan.carryOut (sirens.visit (.text "python3.7") .topicRule siren) project
    let invoke (resource : String) : Value := .record [("Lambda", .record [
      ("FunctionArn", .record [("Fn::GetAtt", .texts [resource, "Arn"])])])]
    let republish (role : String) : Value := .record [("Republish", .record [
      ("Topic", .text "Output/Topic"),
      ("RoleArn", .record [("Fn::GetAtt", .texts [role, "Arn"])])])]
    sirens.ActsOn siren ["horn", "siren", "relay", "horn"] project outcome.project ∧
      outcome.project.document.itemAt [.text "resources", .text "Resources", .text "siren",
          .text "Properties", .text "TopicRulePayload", .text "Actions"] =
        .ok (.list [invoke "hornLambdaFunction", republish "sirenPublishRole",
          republish "relayPublishRole", invoke "hornLambdaFunction"]) ∧
      outcome.project.document.itemAt [.text "resources", .text "Resources",
          .text "relayPublishRole", .text "Properties", .text "AssumeRolePolicyDocument",
          .text "Statement", .int 0, .text "Principal"] =
        .ok (.record [("Service", .texts ["iot.amazonaws.com"])]) ∧
      outcome.result =
        .error (.problem (.unsupportedTarget (.text "siren") (.text "photos") (.text "bucket"))) ∧
      (Problem.unsupportedTarget (.text "siren") (.text "photos") (.text "bucket")).statement =
        "siren -> photos: IoT rules can't target `bucket' nodes " ++
          "(connection type not supported)" := by
  have apart : sirens.OutOfTheWay siren
      ["horn", "siren", "relay", "horn", "photos", "relay"] := by
    simp [OutOfTheWay, siren, publishRole]
  let project := sirens.performAll (.text "python3.7")
    (Project.create (.text "alarms") (.text "python3.7") (.text "aws"))
    [.visit (.text "photos"), .visit (.text "siren")]
  obtain ⟨resources, held⟩ : ∃ resources, project.resources = .ok (.map resources) := ⟨_, rfl⟩
  obtain ⟨acts, ended⟩ :=
    visit_acts_on_targets sirens (.text "python3.7") (show siren.id = .text "siren" from rfl) rfl
      apart held
  exact ⟨acts, rfl, rfl, ended, by decide +kernel⟩

end Graph

end CloudGraph
