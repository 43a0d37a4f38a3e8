import CloudGraph.Proofs.Stored

/-!
# Where visits store

The keys under which a visit stores resources are told by the id and the kind of the node, and
for a topic rule by the rules that it republishes to. `Graph.visit_storesAt` holds in every graph
and for every end of a visit: one that fails has stored some of its resources, and no others.
-/

namespace CloudGraph

/-- Whether an edit stores a resource under one of some keys or leaves a record, and does nothing
else. -/
def Edit.StoresAt (keys : List Atom) : Edit → Prop
  | .note _ => True
  | .assign path key _ => path = Project.resourcesPath ∧ key ∈ keys
  | _ => False

theorem Edit.StoresAt.isStore {keys : List Atom} {edit : Edit} (stores : edit.StoresAt keys) :
    edit.IsStore := by
  cases edit with
  | note => trivial
  | assign path key value => exact stores.1
  | default | append | «include» | write | provide => exact stores.elim

theorem Edit.IsNote.storesAt {keys : List Atom} {edit : Edit} (note : edit.IsNote) :
    edit.StoresAt keys := by
  cases edit with
  | note => trivial
  | _ => exact note.elim

namespace Graph

/-- The keys under which the visit of a node of a kind stores resources. -/
def resourceKeys (graph : Graph) (node : Node) : Kind → List Atom
  | .bucket | .table | .stream | .topic | .stepFunction => [node.id]
  | .deliveryStream =>
    [node.id, .text (node.id.plain ++ "DeliveryRole"), .text (node.id.plain ++ "DeliveryPolicy")]
  | .analyticsStream =>
    [node.id, .text (node.id.plain ++ "Role"), .text (node.id.plain ++ "Outputs")]
  | .identityPool =>
    [node.id, .text (node.id.plain ++ "CognitoUnauthRole"),
      .text (node.id.plain ++ "CognitoUnauthPolicy")]
  | .topicRule =>
    node.id :: (node.targets.filter (graph.isOfKind .topicRule)).map fun target =>
      .text (target.plain ++ "PublishRole")
  | .api | .schedule | .function => []

end Graph

namespace Plan

/-- A plan that stores resources under some keys and leaves records. -/
abbrev StoresAt {α : Type} (keys : List Atom) (plan : Plan α) : Prop :=
  Every (Edit.StoresAt keys) plan

namespace StoresAt

variable {keys : List Atom}

theorem note {level : Level} {source : Source} {message : String} :
    StoresAt keys (Plan.note level source message) :=
  Every.step trivial

theorem put {id : Atom} {resource : Value} (member : id ∈ keys) :
    StoresAt keys (putResource id resource) :=
  Every.step ⟨rfl, member⟩

theorem after_put {α : Type} {id : Atom} {resource : Value} {next : Unit → Plan α}
    (member : id ∈ keys) (nextStores : StoresAt keys (next ())) :
    StoresAt keys (putResource id resource >>= next) :=
  Every.bind (put member) fun _ => nextStores

/-- What is stored is stored under the keys. -/
theorem mem_stored {α : Type} {plan : Plan α} (stores : StoresAt keys plan)
    {resource : Atom × Value} (member : resource ∈ stored plan) : resource.1 ∈ keys := by
  obtain ⟨edit, step, shown⟩ := List.mem_filterMap.1 member
  have own := stores edit step
  cases edit with
  | assign path key value =>
      simp only [Edit.resource?, own.1, if_true, Option.some.injEq] at shown
      exact shown ▸ own.2
  | note | default | append | «include» | write | provide => cases shown

end StoresAt

end Plan

/-- A companion is named after the id that it goes with. -/
theorem eq_of_companion {id : Value} {ending name : String}
    (named : companion id ending = .ok name) : name = id.plain ++ ending := by
  unfold companion at named
  split at named
  next text =>
    cases named
    rfl
  next => cases named

namespace Graph

open Plan (StoresAt Every)

/-- A node is of the kind that its type names. -/
theorem isOfKind_of_typeOf {graph : Graph} {id type : Value} {kind : Kind}
    (typed : graph.typeOf id = .ok type) (named : kind.isNamedBy type = true) :
    graph.isOfKind kind id = true := by
  have typeEq : type = .text kind.name := by
    unfold Kind.isNamedBy at named
    split at named
    next name => rw [beq_iff_eq.1 named]
    next => cases named
  have kindOf : graph.kindOf id = .ok kind := by
    simp only [Graph.kindOf, typed, bind, Except.bind, Kind.ofValue_eq_ok_iff.2 typeEq]
  simp [isOfKind, kindOf]

variable (graph : Graph) (node : Node)

theorem visitDeliveryStream_storesAt :
    StoresAt (graph.resourceKeys node .deliveryStream) (graph.visitDeliveryStream node) := by
  refine Every.bind Every.lift fun bucket? => Every.bind Every.lift fun function? => ?_
  cases bucket? with
  | none => exact StoresAt.note
  | some bucket =>
      refine Every.after_lift fun roleId role => Every.after_lift fun policyId policy => ?_
      obtain rfl := eq_of_companion role
      obtain rfl := eq_of_companion policy
      refine StoresAt.after_put ?_ (StoresAt.after_put ?_ (StoresAt.put ?_))
      all_goals simp [resourceKeys, Value.plain]

theorem visitAnalyticsStream_storesAt :
    StoresAt (graph.resourceKeys node .analyticsStream) (graph.visitAnalyticsStream node) := by
  refine Every.bind Every.lift fun _ => Every.bind Every.lift fun _ =>
    Every.bind Every.lift fun _ => Every.bind Every.lift fun _ =>
      Every.after_lift fun roleId role => Every.after_lift fun outputsId outputs => ?_
  obtain rfl := eq_of_companion role
  obtain rfl := eq_of_companion outputs
  refine StoresAt.after_put ?_ (StoresAt.after_put ?_ (StoresAt.put ?_))
  all_goals simp [resourceKeys, Value.plain]

theorem visitIdentityPool_storesAt :
    StoresAt (graph.resourceKeys node .identityPool) (graph.visitIdentityPool node) := by
  refine Every.after_lift fun roleId role => Every.after_lift fun policyId policy => ?_
  obtain rfl := eq_of_companion role
  obtain rfl := eq_of_companion policy
  have collects : StoresAt (graph.resourceKeys node .identityPool)
      (graph.statements (.atom node.id) node.targets) :=
    (graph.statements_notes _ _).mono fun edit note => note.storesAt
  refine StoresAt.after_put ?_ (StoresAt.after_put ?_
    (Every.bind collects fun _ => StoresAt.put ?_))
  all_goals simp [resourceKeys, Value.plain]

theorem visitActions_storesAt (stored : Bool) (actions targets : List Value)
    (own : ∀ target ∈ targets, target ∈ node.targets) :
    StoresAt (graph.resourceKeys node .topicRule)
      (graph.visitActions node stored actions targets) := by
  induction targets generalizing stored actions with
  | nil => exact Every.pure
  | cons target targets ih =>
      have ih := fun stored actions =>
        ih stored actions fun target member => own target (List.mem_cons_of_mem _ member)
      have again : ∀ actions, StoresAt (graph.resourceKeys node .topicRule)
          (if stored then Plan.putResource node.id (topicRuleResource node.description actions)
            else pure ()) := by
        intro actions
        split
        · exact StoresAt.put List.mem_cons_self
        · exact Every.pure
      refine Every.after_lift fun type typed => Every.bind StoresAt.note fun _ => ?_
      dsimp only
      split
      · exact Every.bind (again _) fun _ => ih _ _
      next =>
        split
        next isRule =>
          refine Every.after_lift fun roleId role => ?_
          obtain rfl := eq_of_companion role
          refine Every.bind (again _) fun _ => StoresAt.after_put ?_ (ih _ _)
          have ofKind : graph.isOfKind .topicRule target = true := isOfKind_of_typeOf typed isRule
          exact List.mem_cons_of_mem _ (List.mem_map.2 ⟨target,
            List.mem_filter.2 ⟨own target List.mem_cons_self, ofKind⟩, rfl⟩)
        · exact Every.fail

/-- A visit of a node that is no function stores resources under the keys of the node, and does
nothing else. -/
theorem visit_storesAt (runtimeId : Value) {kind : Kind} (noFunction : kind ≠ .function) :
    StoresAt (graph.resourceKeys node kind) (graph.visit runtimeId kind node) := by
  cases kind with
  | function => exact absurd rfl noFunction
  | bucket | table | stream | topic | stepFunction => exact StoresAt.put List.mem_cons_self
  | api | schedule => exact Every.pure
  | deliveryStream => exact graph.visitDeliveryStream_storesAt node
  | analyticsStream => exact graph.visitAnalyticsStream_storesAt node
  | identityPool => exact graph.visitIdentityPool_storesAt node
  | topicRule =>
      exact StoresAt.after_put List.mem_cons_self
        (graph.visitActions_storesAt node true [] node.targets fun _ member => member)

end Graph

end CloudGraph
