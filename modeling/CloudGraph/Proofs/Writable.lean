import CloudGraph.Proofs.Contribution

/-!
# Descriptors have a form

A descriptor has a form when the values that come from outside have one: the service, the
provider and the descriptions. Everything that the program itself puts into it is text,
numbers and truth values. `Graph.Proper.writable_blueprint` puts this together from one lemma
for each piece.
-/

namespace CloudGraph

open Yaml Fragment

theorem writableItems_eq (items : List Value) : writableItems items = items.all writable := by
  induction items with
  | nil => rfl
  | cons item items ih => simp [writableItems, ih]

theorem writableEntries_eq (entries : List (Atom × Value)) :
    writableEntries entries =
      entries.all fun entry => writableAtom entry.1 && writable entry.2 := by
  induction entries with
  | nil => rfl
  | cons entry entries ih => simp [writableEntries, ih]

@[simp]
theorem writable_text (text : String) : writable (.text text) = true := rfl

@[simp]
theorem writable_shared (part : Shared) : writable (.shared part) = true := by
  simp [writable]

@[simp]
theorem writable_list (items : List Value) : writable (.list items) = items.all writable := by
  rw [writable, writableItems_eq]

@[simp]
theorem writable_map (entries : List (Atom × Value)) :
    writable (.map entries) =
      entries.all fun entry => writableAtom entry.1 && writable entry.2 := by
  rw [writable, writableEntries_eq]

@[simp]
theorem writable_record (fields : List (String × Value)) :
    writable (.record fields) = fields.all fun field => writable field.2 := by
  rw [Value.record, writable_map, List.all_map]
  rfl

theorem writable_describedAs {name : String} {description : Value}
    (described : writable description = true) :
    (describedAs name description).all (fun field => writable field.2) = true := by
  unfold describedAs
  split <;> simp [described]

section Builders

variable {bucket roleId policyId id : String} {description : Value}
  (described : writable description = true)

theorem writable_grant {kind : Kind} {target : String} {statement : Value}
    (granted : grant kind (.text target) = some statement) : writable statement = true := by
  cases kind with
  | bucket | table | api | stream | deliveryStream | topic | function | stepFunction =>
      rw [← Option.some.inj granted]
      rfl
  | analyticsStream | schedule | identityPool | topicRule => cases granted

theorem writable_trigger {kind : Kind} {source : String} {event : Value}
    (triggered : trigger kind (.text source) = some event) : writable event = true := by
  cases kind with
  | bucket | table | stream | api | schedule | topic =>
      rw [← Option.some.inj triggered]
      rfl
  | deliveryStream | analyticsStream | function | stepFunction | identityPool | topicRule =>
      cases triggered

theorem writable_deliveryStreamResource {transformer : Option Value} :
    writable (deliveryStreamResource (.text bucket) roleId policyId transformer) = true := by
  cases transformer <;> rfl

theorem writable_identityPolicy {statements : List Value}
    (written : statements.all writable = true) :
    writable (identityPolicy roleId statements) = true := by
  simp [identityPolicy, attachedPolicy, policy, ref, written]

theorem writable_analyticsEnds {streamField deliveryField : String}
    {stream? delivery? : Option Value}
    (text : ∀ stream, stream? = some stream → ∃ name, stream = .text name) :
    (analyticsEnds streamField deliveryField roleId stream? delivery?).all
      (fun field => writable field.2) = true := by
  unfold analyticsEnds
  rw [List.all_append, Bool.and_eq_true]
  constructor
  · cases stream? with
    | none => rfl
    | some stream =>
        obtain ⟨name, rfl⟩ := text stream rfl
        rfl
  · cases delivery? <;> rfl

include described

theorem writable_analyticsResource {inputEnds : List (String × Value)}
    (written : inputEnds.all (fun field => writable field.2) = true) :
    writable (analyticsResource (.text id) description inputEnds) = true := by
  have input : analyticsInput.all (fun field => writable field.2) = true := rfl
  simp only [analyticsResource, resourceOf, writable_record, writable_list, writable_text,
    List.all_append, List.all_cons, List.all_nil, input, written, writable_describedAs described,
    Bool.and_self]

omit described in
theorem writable_analyticsOutputs {outputEnds : List (String × Value)}
    (written : outputEnds.all (fun field => writable field.2) = true) :
    writable (analyticsOutputs (.text id) outputEnds) = true := by
  have output : analyticsOutput.all (fun field => writable field.2) = true := rfl
  simp only [analyticsOutputs, ref, writable_record, writable_text, List.all_append, List.all_cons,
    List.all_nil, output, written, Bool.and_self]

theorem writable_topicRuleResource {actions : List Value} (written : actions.all writable = true) :
    writable (topicRuleResource description actions) = true := by
  simp only [topicRuleResource, resourceOf, writable_record, writable_list, writable_text,
    List.all_append, List.all_cons, List.all_nil, written, writable_describedAs described,
    Bool.and_self]

end Builders

namespace Graph

variable {graph : Graph}

theorem writable_grants {targets : List Value}
    (texts : ∀ target ∈ targets, ∃ id, target = .text id) :
    (graph.grants targets).all writable = true := by
  rw [List.all_eq_true]
  intro statement member
  obtain ⟨target, targetMember, kind, _, granted⟩ := mem_grants.1 member
  obtain ⟨id, rfl⟩ := texts target targetMember
  exact writable_grant granted

theorem writable_triggers {sources : List Value}
    (texts : ∀ source ∈ sources, ∃ id, source = .text id) :
    (graph.triggers sources).all writable = true := by
  rw [List.all_eq_true]
  intro event member
  obtain ⟨source, sourceMember, kind, _, triggered⟩ := mem_triggers.1 member
  obtain ⟨id, rfl⟩ := texts source sourceMember
  exact writable_trigger triggered

theorem writable_action {target action : Value} (own : graph.ActionOf target action) :
    writable action = true := by
  cases own <;> rfl

namespace Proper

variable (proper : graph.Proper) {node : Node} (member : node ∈ graph.nodeList)
  (described : writable node.description = true)

include proper member described

theorem writable_definition (runtime : Runtime) :
    writable (graph.definition runtime node) = true := by
  have events : (graph.eventFields node).all (fun field => writable field.2) = true := by
    unfold eventFields
    split
    · rfl
    · simp [writable_triggers (proper.sources_text member)]
  have statements : (graph.statementFields node).all (fun field => writable field.2) = true := by
    unfold statementFields
    split
    · rfl
    · simp [writable_grants (proper.targets_text member)]
  simp only [definition, ownFields, writable_record, writable_text, List.all_append, List.all_cons,
    events, statements, writable_describedAs described, Bool.and_self]

/-- Everything that a node stores has a form. -/
theorem writable_stores {pair : Atom × Value} (stored : pair ∈ graph.stores node) :
    writable pair.2 = true := by
  have sources := proper.sources_text member
  have targets := proper.targets_text member
  obtain ⟨id, idEq⟩ := proper.textual.ids node member
  cases proper.contributes_of_mem member idEq stored with
  | @fixed kind resource isOf isFixed => cases kind <;> cases isFixed <;> rfl
  | deliveryStream => exact writable_deliveryStreamResource
  | deliveryRole | deliveryPolicy | analyticsRole | identityPool | identityRole | publishRole => rfl
  | application =>
      exact writable_analyticsResource described
        (writable_analyticsEnds fun _ => exists_text_of_lastOf? sources)
  | outputs =>
      exact writable_analyticsOutputs (writable_analyticsEnds fun _ =>
        exists_text_of_lastOf? targets)
  | identityPolicy => exact writable_identityPolicy (writable_grants targets)
  | topicRule isOf each =>
      refine writable_topicRuleResource described (List.all_eq_true.2 ?_)
      intro action actionMember
      obtain ⟨_, _, own⟩ := each action actionMember
      exact writable_action own

end Proper

/-- The document of a graph has a form when the values that come from outside have one. -/
theorem Proper.writable_blueprint (proper : graph.Proper) {order : Order} {runtime : Runtime}
    (known : Runtime.ofId order.runtime = .ok runtime) (service : writable order.service = true)
    (provider : writable order.provider = true)
    (described : ∀ node ∈ graph.nodeList, writable node.description = true) :
    writable (graph.blueprint order runtime).project.document = true := by
  have functions : writable (.map (graph.blueprint order runtime).functions) = true := by
    rw [writable_map, List.all_eq_true]
    intro entry entryMember
    obtain ⟨node, nodeMember, rfl⟩ := List.mem_map.1 entryMember
    have member := (mem_functionsIn.1 nodeMember).1
    obtain ⟨id, idEq⟩ := proper.textual.ids node member
    rw [proper.writable_definition member (described node member), idEq]
    rfl
  have resources : writable (.map (graph.blueprint order runtime).resources) = true := by
    rw [writable_map, List.all_eq_true]
    intro entry entryMember
    obtain ⟨node, member, stored⟩ :=
      proper.stored_of_mem_ofPairs (fun _ member => member) entryMember
    obtain ⟨name, nameEq⟩ := proper.stores_text member stored
    rw [nameEq, proper.writable_stores member (described node member) stored]
    rfl
  have runtimeWritten : writable order.runtime = true := by
    rw [(Runtime.of_ofId known).2]
    rfl
  have plugins : ((graph.blueprint order runtime).plugins?.map fun plugins =>
      ("plugins", Value.list plugins)).toList.all (fun field => writable field.2) = true := by
    simp only [blueprint, blueprintOf]
    split <;> rfl
  simp only [Draft.project, Draft.fields, writable_record, List.all_append, List.all_cons,
    List.all_nil, functions, resources, plugins]
  simp [blueprint, blueprintOf, service, provider, runtimeWritten]

end Graph

end CloudGraph
