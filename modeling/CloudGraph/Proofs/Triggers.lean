import CloudGraph.Proofs.Permissions
import CloudGraph.Proofs.Places

/-!
# Triggers of functions

What the edges into a function set off. A function lists the triggers of its sources in the order
of the edges, each fixed by the kind and the id of the source alone (`Kind.Fires`). `Graph.FanIn`
says so of a document, and also that the list stays with the function: no visit of another node
comes near it, and no edge is ever wired into a resource, although `Graph.wire` has a case for that.
`Graph.compile_lists_triggers` says that every compiled document is so.
-/

namespace CloudGraph

/-- The kinds that trigger functions. -/
def Kind.triggering : List Kind :=
  [.bucket, .table, .stream, .api, .schedule, .topic]

theorem trigger_isSome_iff {kind : Kind} {source : Value} :
    (trigger kind source).isSome = true ↔ kind ∈ Kind.triggering := by
  cases kind <;> simp [trigger, Kind.triggering]

namespace Graph

variable (graph : Graph)

/-- The trigger of a function by a source, fixed by its kind and its id. -/
def triggerBy (source : Value) : Option Value :=
  match graph.kindOf source with
  | .ok kind => trigger kind source
  | .error _ => none

/-- What edges into functions set off, in a compilation and in the document that it leads to. -/
structure FanIn (order : Order) (document : Value) : Prop where
  triggering : ∀ kind source, (trigger kind source).isSome = true ↔ kind ∈ Kind.triggering
  /-- The trigger of a kind and an id is the one that is written out for them. -/
  written : ∀ kind id event, trigger kind (.text id) = some event ↔ Kind.Fires kind id event
  /-- Every source of a function is of some kind. -/
  known : ∀ node ∈ graph.nodeList, node.IsOf .function → ∀ source ∈ node.sources,
    ∃ kind, graph.kindOf source = .ok kind ∧ graph.triggerBy source = trigger kind source
  /-- A function lists its triggers if there is an edge into it, even when there are none. -/
  functions : ∀ node ∈ graph.nodeList, node.IsOf .function → ∃ definition,
    document.itemAt [.text "functions", node.id] = .ok definition ∧
      definition.field? "events" =
        if node.sources = [] then none
        else some (.list (node.sources.filterMap graph.triggerBy))
  /-- Visits of other nodes leave the definition of a function as it is. -/
  apart : ∀ node ∈ graph.nodeList, node.IsOf .function →
    ∀ other ∈ graph.nodeList, other ≠ node → ∀ project : Project,
      (Plan.carryOut (graph.planNode order.runtime other) project).project.document.itemAt
          (Project.functionsPath ++ [node.id]) =
        project.document.itemAt (Project.functionsPath ++ [node.id])
  /-- An edge into a function is wired as a trigger of a function. -/
  wired : ∀ node ∈ graph.nodeList, node.IsOf .function → ∀ kind source,
    graph.wire kind (.atom node.id) source = Plan.triggerFunction kind node.id source
  /-- Resources are stored as a whole: nothing is put into one. -/
  whole : ∀ edit ∈ (graph.plan order.runtime).steps, ∀ place, edit.place? = some place →
    Project.resourcesPath <+: place → ∃ key, place = Project.resourcesPath ++ [key]

variable {graph}

/-- A function lists the triggers of its sources, if there are any sources. -/
theorem events_of_definition (runtime : Runtime) (node : Node) :
    (graph.definition runtime node).field? "events" =
      if node.sources = [] then none else some (.list (graph.triggers node.sources)) := by
  have exact := Entries.exact_text "events"
  have notOwn := events_not_mem_ownFields runtime node
  have notStatements : .text "events" ∉
      Entries.keys (recordEntries (graph.statementFields node)) := by
    rw [mem_keys_recordEntries]
    rintro ⟨value, member⟩
    unfold statementFields statementsField at member
    split at member <;> simp at member
  rw [← Entries.find?_eq_none_iff exact] at notOwn notStatements
  rw [definition, record_eq, recordEntries_append, recordEntries_append]
  simp only [Value.field?, Entries.find?_append, notOwn, notStatements, Option.none_or,
    Option.or_none]
  unfold eventFields
  cases node.sources with
  | nil => rfl
  | cons source rest => rfl

/-- Without a fault, the sources of a function have kinds. -/
theorem Proper.kindOf_source (proper : graph.Proper) {node : Node}
    (member : node ∈ graph.nodeList) (clear : graph.fault? node = none)
    (isFunction : node.IsOf .function) {source : Value} (leads : source ∈ node.sources) :
    ∃ kind, graph.kindOf source = .ok kind := by
  obtain ⟨id, rfl⟩ := proper.sources_text member source leads
  have looked : Lookup.rule id ∈ node.lookups .function :=
    List.mem_map_of_mem (List.mem_append_left _ (mem_textsIn.2 leads))
  exact proper.kindOf_of_clear (lookupFault?_of_clear clear isFunction looked)

/-- In what a graph compiles to, functions list exactly what the kinds of their sources
trigger, and the compilation puts triggers nowhere else. -/
theorem compile_lists_triggers {graph : Graph} {order : Order} {project : Project}
    (proper : graph.Proper) (compiled : (graph.compile order).result = .ok project) :
    graph.FanIn order project.document := by
  obtain ⟨typed, _⟩ := Proper.typed_of_compile compiled
  obtain ⟨runtime, known, clear, rfl⟩ := proper.eq_blueprint compiled
  have clear' := List.findSome?_eq_none_iff.1 clear
  constructor
  case triggering => exact fun kind source => trigger_isSome_iff
  case written => exact fun kind id event => trigger_iff
  case known =>
    intro node member isFunction source leads
    obtain ⟨kind, kindOf⟩ := proper.kindOf_source member (clear' node member) isFunction leads
    exact ⟨kind, kindOf, by rw [triggerBy, kindOf]⟩
  case functions =>
    intro node member isFunction
    exact ⟨graph.definition runtime node, proper.itemAt_function order runtime member isFunction,
      events_of_definition runtime node⟩
  case apart =>
    intro node member isFunction other otherMember different project
    exact proper.itemAt_after_other typed member otherMember different order.runtime project
  case wired =>
    intro node member isFunction kind source
    exact proper.wire_eq_triggerFunction member isFunction kind source
  case whole =>
    intro edit edited place placed inside
    obtain ⟨node, _, owns⟩ := proper.plan_owned typed order.runtime edit edited place placed
    exact owns.eq_resource inside

/-- The function that makes thumbnails lists the one trigger of its bucket. -/
theorem thumbnails_lists_triggers : ∃ project definition,
    (thumbnails.compile thumbnailOrder).result = .ok project ∧
      thumbnails.FanIn thumbnailOrder project.document ∧
      project.document.itemAt [.text "functions", .text "resize"] = .ok definition ∧
      definition.field? "events" = some (.list [.record [("s3", .record [
        ("bucket", .text "photos"), ("event", .text "s3:ObjectCreated:*")])]]) := by
  obtain ⟨project, compiled⟩ := thumbnails_compiles
  have fanIn := compile_lists_triggers (proper_of_ofValue thumbnails_loaded thumbnails_textual)
    compiled
  obtain ⟨definition, defined, events⟩ := fanIn.functions thumbnailNodes[1]
    (by simp [nodeList_thumbnails, thumbnailNodes]) rfl
  exact ⟨project, definition, compiled, fanIn, defined, events⟩

end Graph

end CloudGraph
