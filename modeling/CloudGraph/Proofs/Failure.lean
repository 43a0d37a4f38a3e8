import CloudGraph.Proofs.Compiled

/-!
# When a compilation fails

`Graph.Complete` says what a graph needs so that it compiles, and `Graph.FailsFirst` with
which fault one that is not complete fails. Both are about the nodes alone: neither
mentions a visit. `Graph.Proper.fault?_iff` ties them to the lookups of the visits.
-/

namespace CloudGraph

/-- The id that is looked up. -/
def Lookup.id : Lookup → String
  | .type id | .rule id | .target id => id

namespace Graph

variable (graph : Graph)

/-- A node of the graph has the id. -/
def Has (id : Value) : Prop :=
  ∃ node ∈ graph.nodeList, .atom node.id = id

end Graph

namespace Kind

/-- The kinds that need the nodes at the start of the edges into them. -/
def readingSources : List Kind := [.function, .analyticsStream]

/-- The kinds that need the nodes at the end of the edges out of them. -/
def readingTargets : List Kind :=
  [.function, .analyticsStream, .deliveryStream, .identityPool, .topicRule]

end Kind

namespace Graph

variable (graph : Graph)

/-- What a graph needs in order to compile. -/
structure Complete : Prop where
  /-- Every type has a rule. -/
  kinds : ∀ node ∈ graph.nodeList, ∃ kind, node.IsOf kind
  sources : ∀ node ∈ graph.nodeList, ∀ kind ∈ Kind.readingSources, node.IsOf kind →
    ∀ source ∈ node.sources, graph.Has source
  targets : ∀ node ∈ graph.nodeList, ∀ kind ∈ Kind.readingTargets, node.IsOf kind →
    ∀ target ∈ node.targets, graph.Has target
  /-- Topic rules lead to functions and to topic rules only. -/
  actions : ∀ node ∈ graph.nodeList, node.IsOf .topicRule →
    ∀ found ∈ graph.nodeList, .atom found.id ∈ node.targets →
      found.IsOf .function ∨ found.IsOf .topicRule

/-- Why a lookup of a node fails. -/
inductive LookupFails (node : Node) : Lookup → Fault → Prop where
  /-- No node has the id. -/
  | missing {lookup} (none : ¬graph.Has (.text lookup.id)) :
      LookupFails node lookup (.missingKey (.text lookup.id))
  /-- The type of the node that has the id has no rule. -/
  | noRule {id found} (member : found ∈ graph.nodeList) (idEq : found.id = .text id)
      (unruled : ∀ kind, ¬found.IsOf kind) :
      LookupFails node (.rule id) (.defect (.noRule found.type))
  /-- The node that has the id is no target of an action. -/
  | unsupported {id found} (member : found ∈ graph.nodeList) (idEq : found.id = .text id)
      (noFunction : ¬found.IsOf .function) (noRule : ¬found.IsOf .topicRule) :
      LookupFails node (.target id)
        (.problem (.unsupportedTarget (.atom node.id) (.text id) found.type))

/-- Why the visit of a node fails: its type has no rule, or the first of its lookups that
fails. -/
inductive NodeFails (node : Node) : Fault → Prop where
  | noRule (unruled : ∀ kind, ¬node.IsOf kind) : NodeFails node (.defect (.noRule node.type))
  | lookup {kind before lookup after fault} (kindEq : node.IsOf kind)
      (split : node.lookups kind = before ++ lookup :: after)
      (earlier : ∀ done ∈ before, ∀ other, ¬graph.LookupFails node done other)
      (fails : graph.LookupFails node lookup fault) : NodeFails node fault

/-- The fault of the first node whose visit fails. -/
inductive FailsFirst : Fault → Prop where
  | first {before node after fault} (split : graph.nodeList = before ++ node :: after)
      (earlier : ∀ done ∈ before, ∀ other, ¬graph.NodeFails done other)
      (fails : graph.NodeFails node fault) : FailsFirst fault

end Graph

/-- A search by a relation stops at the first element that is related to anything. -/
theorem findSome?_iff_first {α β : Type} {search : α → Option β} {relation : α → β → Prop}
    (agree : ∀ element result, search element = some result ↔ relation element result)
    {elements : List α} {result : β} : elements.findSome? search = some result ↔
      ∃ before element after, elements = before ++ element :: after ∧
        (∀ done ∈ before, ∀ other, ¬relation done other) ∧ relation element result := by
  have unrelated : ∀ element, search element = none ↔ ∀ other, ¬relation element other := by
    intro element
    simp only [← agree, Option.eq_none_iff_forall_ne_some, ne_eq]
  rw [List.findSome?_eq_some_iff]
  constructor
  · rintro ⟨before, element, after, split, found, earlier⟩
    exact ⟨before, element, after, split,
      fun done member => (unrelated done).1 (earlier done member), (agree _ _).1 found⟩
  · rintro ⟨before, element, after, split, earlier, related⟩
    exact ⟨before, element, after, split, (agree _ _).2 related,
      fun done member => (unrelated done).2 (earlier done member)⟩

theorem mem_textsIn {values : List Value} {text : String} :
    text ∈ textsIn values ↔ .text text ∈ values := by
  unfold textsIn
  rw [List.mem_filterMap]
  constructor
  · rintro ⟨value, member, textEq⟩
    split at textEq
    · cases textEq
      exact member
    · cases textEq
  · intro member
    exact ⟨.text text, member, rfl⟩

namespace Node

variable {node : Node}

theorem kind?_eq_none_iff : node.kind? = none ↔ ∀ kind, ¬node.IsOf kind := by
  simp only [← Node.kind?_eq_some_iff, Option.eq_none_iff_forall_ne_some, ne_eq]

/-- The ids that a node of a kind looks up. -/
theorem looksUp_iff {kind : Kind} {id : String} :
    (∃ lookup ∈ node.lookups kind, lookup.id = id) ↔
      (kind ∈ Kind.readingSources ∧ .text id ∈ node.sources) ∨
        (kind ∈ Kind.readingTargets ∧ .text id ∈ node.targets) := by
  cases kind <;>
    simp [lookups, Kind.readingSources, Kind.readingTargets, Lookup.id, mem_textsIn, or_and_right,
      exists_or]

theorem target_mem_lookups {kind : Kind} {id : String} :
    .target id ∈ node.lookups kind ↔ kind = .topicRule ∧ .text id ∈ node.targets := by
  cases kind <;> simp [lookups, mem_textsIn]

theorem isOf_unique {first second : Kind} (isFirst : node.IsOf first)
    (isSecond : node.IsOf second) : first = second :=
  Option.some.inj ((Node.kind?_eq_some_iff.2 isFirst).symm.trans
    (Node.kind?_eq_some_iff.2 isSecond))

end Node

namespace Graph.Proper

variable {graph : Graph} (proper : graph.Proper)

include proper

theorem has_iff {id : String} : graph.Has (.text id) ↔ ∃ node, graph.named? id = some node := by
  simp only [Has, proper.named?_iff, Value.atom.injEq]

omit proper in
theorem lookupFault?_of_missing {node : Node} {lookup : Lookup}
    (missing : graph.named? lookup.id = none) :
    graph.lookupFault? node lookup = some (.missingKey (.text lookup.id)) := by
  cases lookup with
  | type | rule | target =>
      rw [Lookup.id] at missing
      simp [lookupFault?, missing, Lookup.id]

/-- A lookup fails as the nodes say. -/
theorem lookupFault?_iff {node : Node} {lookup : Lookup} {fault : Fault} :
    graph.lookupFault? node lookup = some fault ↔ graph.LookupFails node lookup fault := by
  constructor
  · intro failed
    cases named : graph.named? lookup.id with
    | none =>
        rw [lookupFault?_of_missing named] at failed
        cases failed
        refine .missing fun has => ?_
        obtain ⟨found, other⟩ := proper.has_iff.1 has
        rw [named] at other
        cases other
    | some found =>
        obtain ⟨member, idEq⟩ := proper.named?_iff.1 named
        cases lookup with
        | type id =>
            rw [Lookup.id] at named
            simp [lookupFault?, named] at failed
        | rule id =>
            rw [Lookup.id] at named
            cases kindEq : found.kind? with
            | some kind => simp [lookupFault?, named, kindEq] at failed
            | none =>
                have equal : .defect (.noRule found.type) = fault := by
                  simpa [lookupFault?, named, kindEq] using failed
                exact equal ▸ .noRule member idEq (Node.kind?_eq_none_iff.1 kindEq)
        | target id =>
            rw [Lookup.id] at named
            by_cases either : found.kind? = some .function ∨ found.kind? = some .topicRule
            · simp [lookupFault?, named, either] at failed
            · have equal : .problem (.unsupportedTarget (.atom node.id) (.text id) found.type) =
                  fault := by simpa [lookupFault?, named, either] using failed
              rw [not_or, Node.kind?_eq_some_iff, Node.kind?_eq_some_iff] at either
              exact equal ▸ .unsupported member idEq either.1 either.2
  · intro fails
    cases fails with
    | missing none =>
        rw [proper.has_iff, not_exists] at none
        exact lookupFault?_of_missing (Option.eq_none_iff_forall_ne_some.2 none)
    | noRule member idEq unruled =>
        have named := proper.named?_iff.2 ⟨member, idEq⟩
        simp [lookupFault?, named, Node.kind?_eq_none_iff.2 unruled]
    | unsupported member idEq noFunction noRule =>
        have named := proper.named?_iff.2 ⟨member, idEq⟩
        simp [lookupFault?, named, Node.kind?_eq_some_iff, noFunction, noRule]

/-- The visit of a node fails as the nodes say. -/
theorem fault?_iff {node : Node} {fault : Fault} :
    graph.fault? node = some fault ↔ graph.NodeFails node fault := by
  have search : ∀ lookups, graph.firstFault? node lookups = some fault ↔
      ∃ before lookup after, lookups = before ++ lookup :: after ∧
        (∀ done ∈ before, ∀ other, ¬graph.LookupFails node done other) ∧
        graph.LookupFails node lookup fault :=
    fun lookups => findSome?_iff_first fun _ _ => proper.lookupFault?_iff
  unfold fault?
  cases kindEq : node.kind? with
  | none =>
      have unruled := Node.kind?_eq_none_iff.1 kindEq
      constructor
      · intro failed
        exact Option.some.inj failed ▸ .noRule unruled
      · intro fails
        cases fails with
        | noRule => rfl
        | lookup isOf => exact absurd isOf (unruled _)
  | some kind =>
      have isOf := Node.kind?_eq_some_iff.1 kindEq
      constructor
      · intro failed
        obtain ⟨before, lookup, after, split, earlier, fails⟩ := (search _).1 failed
        exact .lookup isOf split earlier fails
      · intro fails
        cases fails with
        | noRule unruled => exact absurd isOf (unruled kind)
        | lookup isOther split earlier fails =>
            obtain rfl := Node.isOf_unique isOf isOther
            exact (search _).2 ⟨_, _, _, split, earlier, fails⟩

theorem failsFirst_iff {fault : Fault} :
    graph.nodeList.findSome? graph.fault? = some fault ↔ graph.FailsFirst fault := by
  rw [findSome?_iff_first fun _ _ => proper.fault?_iff]
  constructor
  · rintro ⟨before, node, after, split, earlier, fails⟩
    exact .first split earlier fails
  · rintro ⟨split, earlier, fails⟩
    exact ⟨_, _, _, split, earlier, fails⟩

theorem has_of_clear {node : Node} {lookup : Lookup}
    (clear : graph.lookupFault? node lookup = none) : graph.Has (.text lookup.id) := by
  by_contra none
  rw [proper.lookupFault?_iff.2 (.missing none)] at clear
  cases clear

/-- In a complete graph, no lookup fails. -/
theorem clear_of_complete (complete : graph.Complete) {node : Node} (member : node ∈ graph.nodeList)
    {kind : Kind} (isOf : node.IsOf kind) {lookup : Lookup} (looked : lookup ∈ node.lookups kind) :
    graph.lookupFault? node lookup = none := by
  have has : graph.Has (.text lookup.id) := by
    rcases Node.looksUp_iff.1 ⟨lookup, looked, rfl⟩ with ⟨reading, source⟩ | ⟨reading, target⟩
    · exact complete.sources node member kind reading isOf _ source
    · exact complete.targets node member kind reading isOf _ target
  obtain ⟨found, named⟩ := proper.has_iff.1 has
  obtain ⟨foundMember, idEq⟩ := proper.named?_iff.1 named
  cases lookup with
  | type id =>
      rw [Lookup.id] at named
      simp [lookupFault?, named]
  | rule id =>
      rw [Lookup.id] at named
      obtain ⟨ruled, foundOf⟩ := complete.kinds found foundMember
      simp [lookupFault?, named, Node.kind?_eq_some_iff.2 foundOf]
  | target id =>
      rw [Lookup.id] at named
      obtain ⟨rfl, target⟩ := Node.target_mem_lookups.1 looked
      have allowed := complete.actions node member isOf found foundMember (idEq ▸ target)
      rw [← Node.kind?_eq_some_iff, ← Node.kind?_eq_some_iff] at allowed
      simp [lookupFault?, named, allowed]

omit proper in
/-- Where a visit has no fault, none of its lookups has one. -/
theorem lookupFault?_of_clear {node : Node} (clear : graph.fault? node = none) {kind : Kind}
    (isOf : node.IsOf kind) {lookup : Lookup} (looked : lookup ∈ node.lookups kind) :
    graph.lookupFault? node lookup = none := by
  unfold fault? firstFault? at clear
  rw [Node.kind?_eq_some_iff.2 isOf] at clear
  exact List.findSome?_eq_none_iff.1 clear lookup looked

/-- Where no visit has a fault, the graph is complete. -/
theorem complete_of_clear (clear : ∀ node ∈ graph.nodeList, graph.fault? node = none) :
    graph.Complete := by
  have needed : ∀ node ∈ graph.nodeList, ∀ kind, node.IsOf kind → ∀ id,
      (∃ lookup ∈ node.lookups kind, lookup.id = id) → graph.Has (.text id) := by
    rintro node member kind isOf _ ⟨lookup, looked, rfl⟩
    exact proper.has_of_clear (lookupFault?_of_clear (clear node member) isOf looked)
  constructor
  case kinds =>
    intro node member
    by_contra unruled
    rw [not_exists] at unruled
    have failed := proper.fault?_iff.2 (.noRule unruled)
    rw [clear node member] at failed
    cases failed
  case sources =>
    intro node member kind reading isOf source sourceMember
    obtain ⟨id, rfl⟩ := proper.textual.sources node member source sourceMember
    exact needed node member kind isOf id (Node.looksUp_iff.2 (.inl ⟨reading, sourceMember⟩))
  case targets =>
    intro node member kind reading isOf target targetMember
    obtain ⟨id, rfl⟩ := proper.textual.targets node member target targetMember
    exact needed node member kind isOf id (Node.looksUp_iff.2 (.inr ⟨reading, targetMember⟩))
  case actions =>
    intro node member isRule found foundMember target
    obtain ⟨id, idEq⟩ := proper.textual.ids found foundMember
    rw [idEq] at target
    by_contra neither
    rw [not_or] at neither
    have failed : graph.lookupFault? node (.target id) = some _ :=
      proper.lookupFault?_iff.2 (.unsupported foundMember idEq neither.1 neither.2)
    rw [lookupFault?_of_clear (clear node member) isRule
      (Node.target_mem_lookups.2 ⟨rfl, target⟩)] at failed
    cases failed

/-- A graph is complete when no node has a fault. -/
theorem complete_iff : graph.Complete ↔ graph.nodeList.findSome? graph.fault? = none := by
  rw [List.findSome?_eq_none_iff]
  constructor
  · intro complete node member
    obtain ⟨kind, isOf⟩ := complete.kinds node member
    unfold fault? firstFault?
    rw [Node.kind?_eq_some_iff.2 isOf, List.findSome?_eq_none_iff]
    exact fun lookup looked => proper.clear_of_complete complete member isOf looked
  · exact proper.complete_of_clear

/-- Complete graphs compile for known runtimes, and no others do. -/
theorem compiles_iff {order : Order} : (∃ project, (graph.compile order).result = .ok project) ↔
    (∃ runtime, Runtime.ofId order.runtime = .ok runtime) ∧ graph.Complete := by
  constructor
  · rintro ⟨project, compiled⟩
    obtain ⟨runtime, known, clear, _⟩ := proper.eq_blueprint compiled
    exact ⟨⟨runtime, known⟩, proper.complete_iff.2 clear⟩
  · rintro ⟨⟨runtime, known⟩, complete⟩
    have typed : graph.Typed := by
      intro node member
      obtain ⟨kind, isOf⟩ := complete.kinds node member
      exact ⟨kind.name, isOf⟩
    rw [proper.compile_result typed known, proper.complete_iff.1 complete]
    exact ⟨_, rfl⟩

end Graph.Proper

namespace Runtime

/-- The names of the supported runtimes. -/
def names : List String := all.map (·.name)

theorem ofId_of_mem {name : String} (supported : name ∈ names) :
    ∃ runtime, ofId (.text name) = .ok runtime := by
  obtain ⟨runtime, member, nameEq⟩ := List.mem_map.1 supported
  cases found : all.find? fun runtime => runtime.name == name with
  | some other => exact ⟨other, by simp [ofId, canBeId, found]⟩
  | none =>
      have different := List.find?_eq_none.1 found runtime member
      simp [nameEq] at different

theorem ofId_of_not_mem {name : String} (unknown : name ∉ names) :
    ofId (.text name) = .error (.problem (.unknownRuntime (.text name) names)) := by
  have absent : all.find? (fun runtime => runtime.name == name) = none := by
    rw [List.find?_eq_none]
    intro runtime member same
    exact unknown (List.mem_map.2 ⟨runtime, member, beq_iff_eq.1 same⟩)
  simp [ofId, canBeId, absent, names]

end Runtime

namespace Graph

/-- Exactly when a compilation fails, and how. For an unknown runtime, every graph fails. For
a known one, the complete graphs compile, and every other graph fails with the fault of its
first node that has one. Nothing else can go wrong: no edit of the document ever fails. -/
theorem compile_fails_exactly {value : Value} {graph : Graph} {order : Order} {name : String}
    (loaded : Graph.ofValue value = .ok graph) (textual : graph.Textual) (typed : graph.Typed)
    (runtimeText : order.runtime = .text name) :
    (name ∉ Runtime.names → ∀ other : Graph, (other.compile order).result =
      .error (.problem (.unknownRuntime (.text name) Runtime.names))) ∧
    (name ∈ Runtime.names →
      ((∃ project, (graph.compile order).result = .ok project) ↔ graph.Complete) ∧
      ∀ fault, (graph.compile order).result = .error fault ↔ graph.FailsFirst fault) ∧
    ((Project.create order.service order.runtime order.provider).editAll
      (graph.plan order.runtime).steps).result = .ok () := by
  have proper := proper_of_ofValue loaded textual
  by_cases supported : name ∈ Runtime.names
  · obtain ⟨runtime, known⟩ := Runtime.ofId_of_mem supported
    rw [← runtimeText] at known
    obtain ⟨after, ends, _⟩ := proper.plan_ends typed known
    refine ⟨fun unknown => absurd supported unknown, fun _ => ?_, ends.made⟩
    constructor
    · rw [proper.compiles_iff]
      exact and_iff_right ⟨runtime, known⟩
    · intro fault
      rw [proper.compile_result typed known, ← proper.failsFirst_iff]
      cases graph.nodeList.findSome? graph.fault? <;> simp [unlessFault]
  · have unknown := Runtime.ofId_of_not_mem supported
    rw [← runtimeText] at unknown
    refine ⟨fun _ other => ?_, fun member => absurd member supported, ?_⟩
    · rw [compile_of_ends (Draft.empty _ _ _) (plan_of_unknown unknown _), runtimeText]
      rfl
    · exact (plan_of_unknown unknown _).made

theorem thumbnails_fails_exactly :
    ((∃ project, (thumbnails.compile thumbnailOrder).result = .ok project) ↔
      thumbnails.Complete) ∧
    ∀ fault, (thumbnails.compile thumbnailOrder).result = .error fault ↔
      thumbnails.FailsFirst fault :=
  (compile_fails_exactly thumbnails_loaded thumbnails_textual thumbnails_typed rfl).2.1 (by decide)

end Graph

end CloudGraph
