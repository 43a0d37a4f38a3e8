import CloudGraph.Proofs.Stored

/-!
# What visits define

A visit of a function writes its definition piece by piece: first its handler, then a
trigger for each edge into it, then its statements. No edit of the visit fails: the definition
is there before anything is put into it. `Graph.visitFunction_ends` says what a visit leaves in
any graph, also when it stops at an edge that leads nowhere.

`Graph.definition` is the whole definition, and `Graph.Proper.visitFunction_ends` says that a
visit without a fault ends with it.
-/

namespace CloudGraph

/-- Fields as entries of a mapping. -/
def recordEntries (fields : List (String × Value)) : List (Atom × Value) :=
  fields.map fun field => (.text field.1, field.2)

theorem record_eq (fields : List (String × Value)) :
    Value.record fields = .map (recordEntries fields) :=
  rfl

theorem recordEntries_append (first second : List (String × Value)) :
    recordEntries (first ++ second) = recordEntries first ++ recordEntries second :=
  List.map_append

namespace Graph

variable (graph : Graph)

/-- The triggers of a function by some nodes, in order. -/
def triggers (sources : List Value) : List Value :=
  sources.filterMap fun source =>
    match graph.kindOf source with
    | .ok kind => trigger kind source
    | .error _ => none

variable {graph} in
/-- What is set off is what the kind of some source sets off. -/
theorem mem_triggers {sources : List Value} {event : Value} :
    event ∈ graph.triggers sources ↔ ∃ source ∈ sources, ∃ kind,
      graph.isOfKind kind source = true ∧ trigger kind source = some event := by
  unfold triggers
  rw [List.mem_filterMap]
  refine exists_congr fun source => and_congr_right fun _ => ?_
  cases kindOf : graph.kindOf source with
  | error fault => simp [isOfKind, kindOf]
  | ok kind => simp [isOfKind, kindOf]

/-- The first fields of a function's definition. -/
def ownFields (runtime : Runtime) (node : Node) : List (String × Value) :=
  ("handler", .text (runtime.handlerRef (.atom node.id))) ::
    describedAs "description" node.description

/-- The triggers of a function, if there are edges into it. -/
def eventFields (node : Node) : List (String × Value) :=
  if node.sources.isEmpty then [] else [("events", .list (graph.triggers node.sources))]

/-- The statements of a function, if there are any. -/
def statementFields (node : Node) : List (String × Value) :=
  if (graph.grants node.targets).isEmpty then []
  else [(statementsField, .list (graph.grants node.targets))]

/-- The definition of a function. -/
def definition (runtime : Runtime) (node : Node) : Value :=
  .record (ownFields runtime node ++ graph.eventFields node ++ graph.statementFields node)

theorem mem_keys_recordEntries {fields : List (String × Value)} {name : String} :
    .text name ∈ Entries.keys (recordEntries fields) ↔ ∃ value, (name, value) ∈ fields := by
  simp [Entries.keys, recordEntries]

theorem events_not_mem_ownFields (runtime : Runtime) (node : Node) :
    .text "events" ∉ Entries.keys (recordEntries (ownFields runtime node)) := by
  rw [mem_keys_recordEntries]
  rintro ⟨value, member⟩
  unfold ownFields describedAs at member
  split at member <;> simp at member

theorem statements_not_mem_fields (runtime : Runtime) (node : Node) :
    .text statementsField ∉
      Entries.keys (recordEntries (ownFields runtime node ++ graph.eventFields node)) := by
  rw [mem_keys_recordEntries]
  rintro ⟨value, member⟩
  unfold ownFields describedAs eventFields statementsField at member
  split at member <;> split at member <;> simp at member

/-- The triggers that the edges from some nodes set off, up to the first node without a kind. -/
def fired : List Value → List Value
  | [] => []
  | source :: sources =>
    match graph.kindOf source with
    | .error _ => []
    | .ok kind => (trigger kind source).toList ++ fired sources

/-- The triggers that a visit of a function leaves, if there are edges into it. -/
def firedFields (node : Node) : List (String × Value) :=
  if node.sources.isEmpty then [] else [("events", .list (graph.fired node.sources))]

/-- The statements on the targets of a node; none when one of them has no kind. -/
def collected (node : Node) : List Value :=
  (graph.statements (.atom node.id) node.targets).result.toOption.getD []

/-- The statements that a visit of a function leaves. It does not come to them when one of the
edges into the function leads nowhere. -/
def attached (node : Node) : List Value :=
  match (graph.visitSources node).result with
  | .ok _ => graph.collected node
  | .error _ => []

end Graph

namespace Draft

/-- The draft with the files of a function. -/
def filed (draft : Draft) (runtime : Runtime) (node : Node) : Draft :=
  (draft.providing ignoreFile runtime.ignored).withFile (runtime.sourceFile (.atom node.id))
    runtime.startingCode

/-- The draft with a definition that ends in statements, if there are any, and with the plugin
that reads them. -/
def granting (draft : Draft) (id : Atom) (fields : List (String × Value))
    (statements : List Value) : Draft :=
  if statements.isEmpty then draft.withFunction id (.record fields)
  else (draft.withFunction id (.record (fields ++ [(statementsField, .list statements)]))).plugged

end Draft

namespace Graph

variable (graph : Graph)

/-- The draft that a visit of a function leaves, whether it fails or not. -/
def entering (runtime : Runtime) (node : Node) (draft : Draft) : Draft :=
  (draft.filed runtime node).granting node.id (ownFields runtime node ++ graph.firedFields node)
    (graph.attached node)

/-- The definition that a visit of a function leaves, whether it fails or not. -/
def leftDefinition (runtime : Runtime) (node : Node) : Value :=
  .record (ownFields runtime node ++ graph.firedFields node ++
    if (graph.attached node).isEmpty then []
    else [(statementsField, .list (graph.attached node))])

/-- What a visit of a function leaves, field by field. -/
theorem entering_eq (runtime : Runtime) (node : Node) (draft : Draft) :
    graph.entering runtime node draft =
      { draft with
        functions := Entries.put Atom.same draft.functions node.id
          (graph.leftDefinition runtime node)
        plugins? := if (graph.attached node).isEmpty then draft.plugins?
          else some (Draft.pluginsWithRoles (draft.plugins?.getD []))
        files := Entries.put Project.sameName (draft.providing ignoreFile runtime.ignored).files
          (runtime.sourceFile (.atom node.id)) runtime.startingCode } := by
  unfold entering Draft.granting Draft.filed leftDefinition
  rw [Draft.providing_eq]
  split
  · rw [List.append_nil]
    rfl
  · rfl

/-- The draft with a function, its source file and what goes with them, when none of its edges
leads nowhere. -/
def defining (runtime : Runtime) (node : Node) (draft : Draft) : Draft :=
  let filed := (draft.providing ignoreFile runtime.ignored).withFile
    (runtime.sourceFile (.atom node.id)) runtime.startingCode
  let defined := filed.withFunction node.id (graph.definition runtime node)
  if (graph.grants node.targets).isEmpty then defined else defined.plugged

end Graph

namespace Plan

variable {draft : Draft} {id : String} {fields : List (Atom × Value)}

/-- A field that is new comes last in a definition. -/
theorem setFunctionField_ends (draft : Draft) (id : String) {name : String}
    (absent : .text name ∉ Entries.keys fields) (value : Value) :
    Ends (setFunctionField (.text id) name value)
      (draft.withFunction (.text id) (.map fields)).project (.ok ())
      (draft.withFunction (.text id) (.map (fields ++ [(.text name, value)]))).project := by
  rw [← Entries.put_of_not_mem (Entries.exact_text name) absent]
  exact Ends.step (Draft.changing_definition rfl)

/-- A trigger comes after the triggers that a function has. -/
theorem addTrigger_ends (absent : .text "events" ∉ Entries.keys fields) (events : List Value)
    (event : Value) :
    Ends (addTrigger (.text id) event)
      (draft.withFunction (.text id) (.map (fields ++ [(.text "events", .list events)]))).project
      (.ok ())
      (draft.withFunction (.text id)
        (.map (fields ++ [(.text "events", .list (events ++ [event]))]))).project := by
  have exact := Entries.exact_text "events"
  have found : Entries.find? Atom.same (fields ++ [(.text "events", Value.list events)])
      (.text "events") = some (.list events) := by
    rw [← Entries.put_of_not_mem exact absent, Entries.find?_put_self exact]
  have given : Value.withDefault (.map (fields ++ [(.text "events", .list events)]))
      (.text "events") (.list []) = .ok (.map (fields ++ [(.text "events", .list events)])) := by
    simp [Value.withDefault, Value.content, found]
  have appended : Value.modifyAt (·.appended event)
      (.map (fields ++ [(.text "events", .list events)])) [.text "events"] =
      .ok (.map (fields ++ [(.text "events", .list (events ++ [event]))])) := by
    simp [Value.modifyAt, Value.item, Value.content, found, Value.appended, Value.withItem,
      Entries.put_last exact absent, bind, Except.bind]
  exact Ends.after_step (Draft.changing_definition given)
    (Ends.step (Draft.changing_definition appended))

/-- Statements are put last into a definition, and the plugin goes with them. -/
theorem attachStatements_ends (absent : .text statementsField ∉ Entries.keys fields)
    (statements : List Value) (present : statements.isEmpty = false) :
    Ends (attachStatements (.text id) statements)
      (draft.withFunction (.text id) (.map fields)).project (.ok ())
      (draft.withFunction (.text id)
        (.map (fields ++ [(.text statementsField, .list statements)]))).plugged.project := by
  unfold attachStatements
  rw [present]
  refine Ends.bind (setFunctionField_ends draft id absent (.list statements)) ?_
  exact Ends.after_step (Draft.edit_defaultPlugins _) (Ends.step (Draft.edit_includePlugin _ rfl))

end Plan

namespace Graph

open Plan (Ends)

variable {graph : Graph} {draft : Draft} {id : String} {fields : List (Atom × Value)}

section Wiring

variable (asked : graph.isFunction (.text id) = .ok true)
  (absent : .text "events" ∉ Entries.keys fields)

include asked absent

/-- What an edge sets off in a function is put after the triggers that are there. -/
theorem wire_ends {kind : Kind} {source : Value} (events : List Value) :
    Ends (graph.wire kind (.text id) source)
      (draft.withFunction (.text id) (.map (fields ++ [(.text "events", .list events)]))).project
      (.ok ())
      (draft.withFunction (.text id) (.map (fields ++
        [(.text "events", .list (events ++ (trigger kind source).toList))]))).project := by
  unfold Graph.wire
  rw [asked]
  refine Ends.after_lift (Ends.after_lift ?_)
  cases triggered : trigger kind source with
  | none =>
      rw [Option.toList_none, List.append_nil]
      exact Ends.note
  | some event => exact Plan.addTrigger_ends absent events event

omit absent in
/-- Whatever its source, an edge into a function can be wired. -/
theorem wire_result {kind : Kind} {source : Value} :
    (graph.wire kind (.text id) source).result = .ok () := by
  unfold Graph.wire
  rw [asked]
  cases kind <;> rfl

/-- The edges into a function set their triggers off in order, up to the first one whose
source has no kind. -/
theorem wireSources_ends (events sources : List Value) :
    Ends (graph.wireSources (.text id) sources)
      (draft.withFunction (.text id) (.map (fields ++ [(.text "events", .list events)]))).project
      (graph.wireSources (.text id) sources).result
      (draft.withFunction (.text id)
        (.map (fields ++ [(.text "events", .list (events ++ graph.fired sources))]))).project := by
  induction sources generalizing events with
  | nil =>
      rw [fired, List.append_nil]
      exact Ends.pure
  | cons source sources ih =>
      unfold Graph.wireSources fired
      cases graph.kindOf source with
      | error fault =>
          rw [List.append_nil]
          exact (Ends.after_note (Ends.bind_fault Ends.lift)).own
      | ok kind =>
          rw [← List.append_assoc]
          exact (Ends.after_note (Ends.after_lift
            (Ends.bind (wire_ends asked absent events) (ih _)))).own

variable (draft) in
/-- The edges into a function lead to the field of its triggers. -/
theorem visitSources_ends {node : Node} (idEq : node.id = .text id) :
    Ends (graph.visitSources node) (draft.withFunction (.text id) (.map fields)).project
      (graph.visitSources node).result
      (draft.withFunction (.text id)
        (.map (fields ++ recordEntries (graph.firedFields node)))).project := by
  unfold Graph.visitSources firedFields
  rw [idEq]
  split
  · rw [show recordEntries [] = [] from rfl, List.append_nil]
    exact Ends.pure
  · exact (Ends.bind (Plan.setFunctionField_ends draft id absent (.list []))
      (wireSources_ends asked absent [] node.sources)).own

end Wiring

/-- The edges out of a function lead to its statements, unless one of them leads nowhere. -/
theorem visitTargets_ends {node : Node} {fields : List (String × Value)}
    (idEq : node.id = .text id)
    (absent : .text statementsField ∉ Entries.keys (recordEntries fields)) :
    Ends (graph.visitTargets node) (draft.withFunction (.text id) (.record fields)).project
      (graph.visitTargets node).result
      (draft.granting (.text id) fields (graph.collected node)).project := by
  have collects := (graph.statements_notes (.text id) node.targets).ends
    (draft.withFunction (.text id) (.record fields)).project
  have attaches : ∀ statements, Ends (Plan.attachStatements (.text id) statements)
      (draft.withFunction (.text id) (.record fields)).project (.ok ())
      (draft.granting (.text id) fields statements).project := by
    intro statements
    unfold Draft.granting
    cases present : statements.isEmpty with
    | true =>
        unfold Plan.attachStatements
        rw [present]
        exact Ends.pure
    | false =>
        rw [record_eq, record_eq, recordEntries_append]
        exact Plan.attachStatements_ends absent statements present
  unfold Graph.visitTargets collected
  rw [idEq]
  cases targets : node.targets with
  | nil => exact Ends.pure
  | cons target rest =>
      rw [targets] at collects
      cases collected : (graph.statements (.text id) (target :: rest)).result with
      | error fault =>
          rw [collected] at collects
          exact (Ends.bind_fault collects).own
      | ok statements =>
          rw [collected] at collects
          exact (Ends.bind collects (attaches statements)).own

theorem statements_not_mem_firedFields (runtime : Runtime) (node : Node) :
    .text statementsField ∉
      Entries.keys (recordEntries (ownFields runtime node ++ graph.firedFields node)) := by
  rw [mem_keys_recordEntries]
  rintro ⟨value, member⟩
  unfold ownFields describedAs firedFields statementsField at member
  split at member <;> split at member <;> simp at member

/-- A visit of a function leaves its definition, whether an edge leads nowhere or not. -/
theorem visitFunction_ends {runtimeId : Value} {runtime : Runtime} {node : Node} (draft : Draft)
    (known : Runtime.ofId runtimeId = .ok runtime)
    (asked : graph.isFunction (.text id) = .ok true) (idEq : node.id = .text id) :
    Ends (graph.visitFunction runtimeId node) draft.project
      (graph.visitFunction runtimeId node).result (graph.entering runtime node draft).project := by
  have enters : ∀ {result after},
      Ends (graph.visitSources node >>= fun _ => graph.visitTargets node)
        ((draft.filed runtime node).withFunction node.id (.record (ownFields runtime node))).project
        result after →
      Ends (graph.visitFunction runtimeId node) draft.project result after := by
    intro result after ends
    unfold Graph.visitFunction
    rw [known]
    exact Ends.after_lift (Ends.after_step (Draft.edit_provide _ _ _)
      (Ends.after_step (Draft.edit_putFunction _ _ _)
        (Ends.after_step (Draft.edit_write _ _ _) ends)))
  have sources := visitSources_ends (draft.filed runtime node) asked
    (events_not_mem_ownFields runtime node) idEq
  rw [← recordEntries_append] at sources
  unfold entering attached
  rw [idEq] at enters ⊢
  cases ended : (graph.visitSources node).result with
  | error fault =>
      rw [ended] at sources
      exact (enters (Ends.bind_fault sources)).own
  | ok =>
      rw [ended] at sources
      exact (enters (Ends.bind sources (visitTargets_ends idEq
        (graph.statements_not_mem_firedFields runtime node)))).own

end Graph

namespace Graph.Proper

open Plan (Ends)

variable {graph : Graph} (proper : graph.Proper) (typed : graph.Typed) {node : Node}

include proper

theorem isFunction_eq {id : String} (isFunction : graph.isOfKind .function (.text id) = true) :
    graph.isFunction (.text id) = .ok true := by
  obtain ⟨node, named, kindEq⟩ := proper.isOfKind_iff.1 isFunction
  simp [Graph.isFunction, proper.typeOf_of_named named, proper.isNamedBy_type named, isFunction,
    bind, Except.bind, pure, Except.pure]

include typed

/-- The edges into a function end with the first source that has no rule; without one, all of
them have set their triggers off. -/
theorem wireSources_result {id : String} (asked : graph.isFunction (.text id) = .ok true)
    (node : Node) (sources : List Value) (texts : ∀ source ∈ sources, ∃ name, source = .text name) :
    (graph.wireSources (.text id) sources).result =
        unlessFault (graph.firstFault? node ((textsIn sources).map .rule)) () ∧
      (graph.firstFault? node ((textsIn sources).map .rule) = none →
        graph.fired sources = graph.triggers sources) := by
  induction sources with
  | nil => exact ⟨rfl, fun _ => rfl⟩
  | cons source sources ih =>
      obtain ⟨name, rfl⟩ := texts source List.mem_cons_self
      obtain ⟨ended, whole⟩ := ih fun source member => texts source (List.mem_cons_of_mem _ member)
      rw [textsIn_cons_text, List.map_cons, firstFault?_cons]
      unfold Graph.wireSources fired
      rw [Trace.result_bind]
      cases failed : graph.lookupFault? node (.rule name) with
      | some fault =>
          rw [proper.kindOf_of_fault typed failed]
          exact ⟨rfl, by simp⟩
      | none =>
          obtain ⟨kind, kindOf⟩ := proper.kindOf_of_clear failed
          rw [kindOf, Option.none_or]
          refine ⟨?_, fun clear => ?_⟩
          · have wired : (graph.wire kind (.text id) (.text name)).result = .ok () :=
              wire_result asked
            change (graph.wire kind _ _ >>= fun _ => graph.wireSources _ sources).result = _
            rw [Trace.result_bind, wired]
            exact ended
          · rw [whole clear]
            cases triggered : trigger kind (.text name) <;> simp [triggers, kindOf, triggered]

theorem visitSources_result {id : String} (member : node ∈ graph.nodeList)
    (idEq : node.id = .text id) (asked : graph.isFunction (.text id) = .ok true) :
    (graph.visitSources node).result =
        unlessFault (graph.firstFault? node ((textsIn node.sources).map .rule)) () ∧
      (graph.firstFault? node ((textsIn node.sources).map .rule) = none →
        graph.firedFields node = graph.eventFields node) := by
  obtain ⟨ended, whole⟩ := proper.wireSources_result typed asked node node.sources
    (proper.sources_text member)
  unfold Graph.visitSources firedFields eventFields
  rw [idEq]
  cases sources : node.sources with
  | nil => exact ⟨rfl, fun _ => rfl⟩
  | cons source rest =>
      rw [sources] at ended whole
      refine ⟨(Trace.result_bind _ _).trans ended, fun clear => ?_⟩
      rw [whole clear]

theorem visitTargets_result (member : node ∈ graph.nodeList) :
    (graph.visitTargets node).result =
        unlessFault (graph.firstFault? node ((textsIn node.targets).map .rule)) () ∧
      (graph.firstFault? node ((textsIn node.targets).map .rule) = none →
        graph.collected node = graph.grants node.targets) := by
  have ended := (proper.statements_adds typed node (.atom node.id) node.targets
    (proper.targets_text member)).result
  unfold Graph.visitTargets collected
  cases targets : node.targets with
  | nil => exact ⟨rfl, fun _ => rfl⟩
  | cons target rest =>
      rw [targets] at ended
      rw [ended]
      cases failed : graph.firstFault? node ((textsIn (target :: rest)).map .rule) with
      | some fault =>
          rw [failed] at ended
          exact ⟨Trace.result_bind_error ended, by simp⟩
      | none =>
          rw [failed] at ended
          refine ⟨?_, fun _ => rfl⟩
          change (graph.statements _ _ >>= fun statements =>
            Plan.attachStatements node.id statements).result = _
          rw [Trace.result_bind, ended]
          cases graph.grants (target :: rest) <;> rfl

/-- A visit of a function ends with the first lookup that fails; without one, it has made
the whole definition. -/
theorem visitFunction_ends {runtimeId : Value} {runtime : Runtime} {node : Node} (draft : Draft)
    (known : Runtime.ofId runtimeId = .ok runtime) (member : node ∈ graph.nodeList)
    (kindEq : node.kind? = some .function) :
    ∃ after : Draft, Ends (graph.visitFunction runtimeId node) draft.project
        (unlessFault (graph.firstFault? node (node.lookups .function)) ()) after.project ∧
      (graph.firstFault? node (node.lookups .function) = none →
        after = graph.defining runtime node draft) := by
  obtain ⟨id, idEq⟩ := proper.textual.ids node member
  have asked := proper.isFunction_eq (proper.isOfKind_iff.2
    ⟨node, proper.named?_iff.2 ⟨member, idEq⟩, kindEq⟩)
  have both : graph.firstFault? node (node.lookups .function) =
      (graph.firstFault? node ((textsIn node.sources).map .rule)).or
        (graph.firstFault? node ((textsIn node.targets).map .rule)) := by
    simp only [Node.lookups, List.map_append, firstFault?_append]
  have ends := graph.visitFunction_ends draft known asked idEq
  obtain ⟨sourcesEnd, fires⟩ := proper.visitSources_result typed member idEq asked
  obtain ⟨targetsEnd, collects⟩ := proper.visitTargets_result typed member
  refine ⟨graph.entering runtime node draft, ?_, fun clear => ?_⟩
  · have ended : (graph.visitFunction runtimeId node).result =
        unlessFault (graph.firstFault? node (node.lookups .function)) () := by
      unfold Graph.visitFunction
      rw [known, both]
      change (graph.visitSources node >>= fun _ => graph.visitTargets node).result = _
      rw [Trace.result_bind, sourcesEnd, targetsEnd]
      cases graph.firstFault? node ((textsIn node.sources).map .rule) <;> rfl
    exact ended ▸ ends
  · rw [both, Option.or_eq_none_iff] at clear
    have attaches : graph.attached node = graph.grants node.targets := by
      unfold attached
      rw [sourcesEnd, clear.1]
      exact collects clear.2
    unfold entering defining definition statementFields Draft.granting
    rw [fires clear.1, attaches]
    cases graph.grants node.targets with
    | nil => simp only [List.isEmpty_nil, if_true, List.append_nil]; rfl
    | cons statement rest => rfl

end Graph.Proper

end CloudGraph
