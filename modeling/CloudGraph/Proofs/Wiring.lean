import CloudGraph.Proofs.Composites
import CloudGraph.Proofs.Operations

/-!
# Runs of edges

Edges are wired one by one into a target that is there already, whatever the rest of the project
is. Nothing is lost and nothing is mixed up: a function has the triggers of the sources after its
own in the order of the calls, a resource has one inline event for every source beside its own, and
one policy more for every call from a bucket. `Graph.WiredInto` says so, and
`Graph.performAll_wires_into` that every run of edges does it.

The runs are followed in the one part that they change, edge by edge. Sources that set nothing off,
and targets without an entry, leave the project as it is.
-/

namespace CloudGraph

namespace Graph

open Plan (Ends Every Turns)
open Value (heldBy)

variable (graph : Graph)

/-- The name and the inline event that an edge from a source puts into a resource. -/
def inlineBy (source : Value) : Option (Atom × Value) :=
  match graph.kindOf source with
  | .ok kind => inlineEntry kind source
  | .error _ => none

/-- How many of some sources are buckets. -/
def readers (sources : List Value) : Nat :=
  (sources.filter (graph.isOfKind .bucket)).length

/-- The node of an id is there and of a kind that sets something off. -/
def SetsOff (source : Value) : Prop :=
  ∃ kind ∈ Kind.triggering, graph.kindOf source = .ok kind

variable {graph} {runtimeId : Value} {target : String} {source : Value} {kind : Kind}

theorem triggerBy_isSome_iff : (graph.triggerBy source).isSome = true ↔ graph.SetsOff source := by
  unfold triggerBy SetsOff
  cases named : graph.kindOf source with
  | error fault => simp
  | ok kind => simp [trigger_isSome_iff]

theorem inlineBy_eq_some_iff {entry : Atom × Value} : graph.inlineBy source = some entry ↔
    ∃ kind, graph.kindOf source = .ok kind ∧ inlineEntry kind source = some entry := by
  unfold inlineBy
  cases graph.kindOf source <;> simp

theorem inlineBy_isSome_iff : (graph.inlineBy source).isSome = true ↔ graph.SetsOff source := by
  unfold inlineBy SetsOff inlineEntry
  cases named : graph.kindOf source with
  | error fault => simp
  | ok kind => simp [inlineEvent_isSome_iff]

/-- An edge from a source that sets nothing off changes nothing, whatever its target is. -/
theorem perform_wire_idle (idle : ¬graph.SetsOff source) (target : Value) (before : Project) :
    (Plan.carryOut (graph.perform runtimeId (.wire target source)) before).project = before := by
  have notes : Every Edit.IsNote (graph.perform runtimeId (.wire target source)) := by
    refine Every.after_lift fun kind named => Every.bind ?_ fun _ => Every.pure
    have apart : kind ∉ Kind.triggering := fun member => idle ⟨kind, member, named⟩
    have noTrigger : trigger kind source = none := by
      rwa [← trigger_isSome_iff, Option.not_isSome_iff_eq_none] at apart
    have noEvent : inlineEvent kind source = none := by
      rwa [← inlineEvent_isSome_iff, Option.not_isSome_iff_eq_none] at apart
    refine Every.bind Every.lift fun isFunction => Every.bind Every.lift fun targetId => ?_
    rw [noTrigger, noEvent]
    cases isFunction <;> exact Every.step trivial
  exact (notes.ends before).carryOut_eq.2

/-- An edge into a function is wired as a trigger. -/
theorem perform_wire_of_function (asked : graph.isFunction (.text target) = .ok true)
    (named : graph.kindOf source = .ok kind) :
    graph.perform runtimeId (.wire (.text target) source) =
      (Plan.triggerFunction kind (.text target) source >>= fun _ => pure .null) := by
  simp only [Graph.perform, named, Graph.wire, asked, Trace.bind_lift_ok, scalarId]
  rfl

/-- An edge into any other node is wired as an inline event. -/
theorem perform_wire_of_resource (asked : graph.isFunction (.text target) = .ok false)
    (named : graph.kindOf source = .ok kind) :
    graph.perform runtimeId (.wire (.text target) source) =
      (Plan.composeEvent kind (.text target) source >>= fun _ => pure .null) := by
  simp only [Graph.perform, named, Graph.wire, asked, Trace.bind_lift_ok, scalarId]
  rfl

variable (runtimeId) in
/-- One edge into a function puts its trigger after those that are there. -/
theorem perform_wire_function {fields : Entries Atom Value} {old : List Value} {event : Value}
    (asked : graph.isFunction (.text target) = .ok true)
    (held : heldBy fields "events" (.list []) = .list old)
    (sets : graph.triggerBy source = some event) :
    Turns (targetPlace true target) (graph.perform runtimeId (.wire (.text target) source))
      (.map fields) (.ok .null)
      (.map (Entries.put Atom.same fields (.text "events") (.list (old ++ [event])))) := by
  unfold triggerBy at sets
  split at sets
  next kind named =>
    rw [perform_wire_of_function asked named, Plan.triggerFunction, sets]
    exact Turns.bind (Plan.addTrigger_turns held event) (.of_ends fun _ => Ends.pure)
  next => cases sets

variable (runtimeId) in
/-- One edge into a resource puts its inline event under its name, and allows it to read if it
comes from a bucket. -/
theorem perform_wire_resource (resource : Composite) {name : String} {entry : Atom × Value}
    (asked : graph.isFunction (.text target) = .ok false)
    (sets : graph.inlineBy (.text name) = some entry) :
    Turns (targetPlace false target) (graph.perform runtimeId (.wire (.text target) (.text name)))
      (.map resource.fields) (.ok .null)
      (.map (resource.wired entry (graph.readers [.text name])).fields) := by
  obtain ⟨kind, named, isEntry⟩ := inlineBy_eq_some_iff.1 sets
  obtain ⟨event, inlined, rfl⟩ := Option.map_eq_some_iff.1 isEntry
  have count : graph.readers [.text name] = if kind = .bucket then 1 else 0 := by
    by_cases isBucket : kind = .bucket <;> simp [readers, isOfKind, named, isBucket]
  have reads : Turns (targetPlace false target)
      (if kind = .bucket then Plan.allowReading (.text target) else pure ())
      (.map (Entries.put Atom.same resource.fields (.text "Properties")
        (.map (Entries.put Atom.same resource.properties (.text "Events")
          (.map (Entries.put Atom.same resource.events
            (.text ((eventPrefix? kind).getD "" ++ name)) event)))))) (.ok ())
      (.map (resource.wired (.text ((eventPrefix? kind).getD "" ++ name), event)
        (if kind = .bucket then 1 else 0)).fields) := by
    split
    · refine Plan.allowReading_turns ?_
      rw [Value.heldBy_put_other (by decide)]
      exact resource.heldPolicies
    · exact .of_ends fun _ => Ends.pure
  rw [perform_wire_of_resource asked named, Plan.composeEvent, inlined, count]
  exact Turns.bind (Turns.bind
    (Plan.addInlineEvent_turns resource.heldProperties resource.heldEvents _ name event) reads)
    (.of_ends fun _ => Ends.pure)

/-- Edges into a function put their triggers after those that are there, in order. -/
theorem performAll_triggers {fields : Entries Atom Value} {old : List Value}
    (asked : graph.isFunction (.text target) = .ok true)
    (held : heldBy fields "events" (.list []) = .list old) (sources : List Value)
    {before : Project}
    (found : before.document.itemAt (targetPlace true target) = .ok (.map fields)) :
    Project.Replaced (targetPlace true target)
      (withTriggers fields old (sources.filterMap graph.triggerBy)) before
      (graph.performAll runtimeId before (sources.map (.wire (.text target)))) := by
  induction sources generalizing fields old before with
  | nil => exact .refl found
  | cons source sources ih =>
      rw [List.map_cons, performAll_cons]
      cases sets : graph.triggerBy source with
      | none =>
          have idle : ¬graph.SetsOff source := by
            rw [← triggerBy_isSome_iff, sets]
            decide
          rw [perform_wire_idle idle, List.filterMap_cons_none sets]
          exact ih held found
      | some event =>
          obtain ⟨middle, ends, replaced⟩ :=
            perform_wire_function runtimeId asked held sets before found
          rw [ends.carryOut_eq.2, List.filterMap_cons_some sets]
          have rest := ih (Value.heldBy_put_self _ _ _ _) replaced.part
          have joined : withTriggers
              (Entries.put Atom.same fields (.text "events") (.list (old ++ [event])))
              (old ++ [event]) (sources.filterMap graph.triggerBy) =
            withTriggers fields old (event :: sources.filterMap graph.triggerBy) := by
            unfold withTriggers
            cases sources.filterMap graph.triggerBy with
            | nil => rfl
            | cons next more => simp [Entries.put_put (Entries.exact_text "events")]
          exact replaced.trans (joined ▸ rest)

theorem readers_cons (source : Value) (sources : List Value) :
    graph.readers (source :: sources) = graph.readers [source] + graph.readers sources := by
  unfold readers
  rw [← List.singleton_append, List.filter_append, List.length_append]

/-- Buckets set something off. -/
theorem readers_eq_zero {sources : List Value} (idle : sources.filterMap graph.inlineBy = []) :
    graph.readers sources = 0 := by
  rw [readers, List.length_eq_zero_iff, List.filter_eq_nil_iff]
  intro source member isBucket
  have none := List.filterMap_eq_nil_iff.1 idle source member
  have sets : graph.SetsOff source := by
    unfold isOfKind at isBucket
    split at isBucket
    next kind named => exact ⟨kind, by simp [Kind.triggering, of_decide_eq_true isBucket], named⟩
    next => cases isBucket
  rw [← inlineBy_isSome_iff, none] at sets
  cases sets

/-- A source with an inline event is a node of some kind, and its id is a text. -/
theorem Keyed.of_inlineBy (keyed : graph.Keyed) {entry : Atom × Value}
    (sets : graph.inlineBy source = some entry) :
    ∃ name kind, source = .text name ∧ inlineEntry kind (.text name) = some entry := by
  obtain ⟨kind, named, isEntry⟩ := inlineBy_eq_some_iff.1 sets
  obtain ⟨node, known⟩ := node_of_kindOf named
  obtain ⟨member, rfl⟩ := keyed.node_eq_ok_iff.1 known
  obtain ⟨name, idEq⟩ := keyed.ids node member
  rw [idEq] at isEntry
  exact ⟨name, kind, congrArg Value.atom idEq, isEntry⟩

/-- Edges into a resource put their inline events under their names, and one policy for each that
comes from a bucket. -/
theorem Keyed.performAll_inlines (keyed : graph.Keyed) (resource : Composite)
    (asked : graph.isFunction (.text target) = .ok false) (sources : List Value)
    {before : Project}
    (found : before.document.itemAt (targetPlace false target) = .ok (.map resource.fields)) :
    Project.Replaced (targetPlace false target)
      (resource.after (sources.filterMap graph.inlineBy) (graph.readers sources)) before
      (graph.performAll runtimeId before (sources.map (.wire (.text target)))) := by
  induction sources generalizing resource before with
  | nil => exact .refl found
  | cons source sources ih =>
      rw [List.map_cons, performAll_cons, readers_cons]
      cases sets : graph.inlineBy source with
      | none =>
          have idle : ¬graph.SetsOff source := by
            rw [← inlineBy_isSome_iff, sets]
            decide
          have noBucket : graph.readers [source] = 0 := readers_eq_zero (by simp [sets])
          rw [perform_wire_idle idle, List.filterMap_cons_none sets, noBucket, Nat.zero_add]
          exact ih resource found
      | some entry =>
          obtain ⟨name, _, rfl, _⟩ := keyed.of_inlineBy sets
          obtain ⟨middle, ends, replaced⟩ :=
            perform_wire_resource runtimeId resource asked sets before found
          rw [ends.carryOut_eq.2, List.filterMap_cons_some sets,
            ← resource.wired_after entry _ _ readers_eq_zero]
          exact replaced.trans (ih _ replaced.part)

variable (graph) in
/-- A target has no entry: there is no node of its id, or nothing has been put at its place. -/
def NoEntry (target : String) (project : Project) : Prop :=
  (∃ fault, graph.isFunction (.text target) = .error fault) ∨
    ∃ isFunction entries, graph.isFunction (.text target) = .ok isFunction ∧
      project.document.itemAt
        (if isFunction then Project.functionsPath else Project.resourcesPath) =
          .ok (.map entries) ∧
      Entries.find? Atom.same entries (.text target) = none

theorem itemAt_targetPlace {isFunction : Bool} {project : Project} {entries : Entries Atom Value}
    (found : project.document.itemAt
      (if isFunction then Project.functionsPath else Project.resourcesPath) = .ok (.map entries))
    (absent : Entries.find? Atom.same entries (.text target) = none) :
    project.document.itemAt (targetPlace isFunction target) =
      .error (.missingKey (.text target)) := by
  rw [targetPlace, Value.itemAt_append, found]
  simp [Value.itemAt, Value.item, Value.content, absent, bind, Except.bind]

theorem eq_missingKey_of_isFunction {fault : Fault}
    (unknown : graph.isFunction (.text target) = .error fault) :
    fault = .missingKey (.text target) := by
  unfold Graph.isFunction Graph.typeOf Graph.node at unknown
  cases found : Entries.find? Atom.same graph.nodes (.text target) with
  | none => simpa [found, bind, Except.bind] using unknown.symm
  | some node => simp [found, bind, Except.bind, pure, Except.pure] at unknown

/-- An edge into a target without an entry changes nothing. Unless it sets nothing off, it fails
with the id of the target. -/
theorem perform_wire_missing {before : Project} (noEntry : graph.NoEntry target before)
    (source : Value) :
    (Plan.carryOut (graph.perform runtimeId (.wire (.text target) source)) before).project =
        before ∧
      ∀ kind, graph.kindOf source = .ok kind →
        (Plan.carryOut (graph.perform runtimeId (.wire (.text target) source)) before).result =
            .ok .null ∨
          (Plan.carryOut (graph.perform runtimeId (.wire (.text target) source)) before).result =
            .error (.missingKey (.text target)) := by
  cases named : graph.kindOf source with
  | error fault =>
      have idle : ¬graph.SetsOff source := by
        rintro ⟨kind, _, other⟩
        rw [named] at other
        cases other
      exact ⟨perform_wire_idle idle _ before, by simp⟩
  | ok kind =>
      rcases noEntry with ⟨fault, unknown⟩ | ⟨isFunction, entries, asked, found, absent⟩
      · obtain rfl := eq_missingKey_of_isFunction unknown
        have stops : Ends (graph.perform runtimeId (.wire (.text target) source)) before
            (.error (.missingKey (.text target))) before := by
          simp only [Graph.perform, named, Graph.wire, unknown, Trace.bind_lift_ok]
          exact Ends.bind_fault (Ends.bind_fault Ends.lift)
        exact ⟨stops.carryOut_eq.2, fun _ _ => .inr stops.carryOut_eq.1⟩
      · have missing := itemAt_targetPlace found absent
        cases isFunction with
        | true =>
            rw [perform_wire_of_function asked named]
            obtain ⟨same, answers⟩ := (Plan.triggerFunction_needs kind target source).carryOut
              missing Value.null
            exact ⟨same, fun _ _ => answers⟩
        | false =>
            rw [perform_wire_of_resource asked named]
            obtain ⟨same, answers⟩ := (Plan.composeEvent_needs kind target source).carryOut
              missing Value.null
            exact ⟨same, fun _ _ => answers⟩

/-- Inline events of two sources have two names. -/
theorem Keyed.inlineBy_injective (keyed : graph.Keyed) {first second : Value}
    {entry twin : Atom × Value} (firstSets : graph.inlineBy first = some entry)
    (secondSets : graph.inlineBy second = some twin) (same : entry.1 = twin.1) :
    first = second := by
  obtain ⟨name, kind, rfl, firstEntry⟩ := keyed.of_inlineBy firstSets
  obtain ⟨other, otherKind, rfl, secondEntry⟩ := keyed.of_inlineBy secondSets
  obtain ⟨_, rfl⟩ := inlineEntry_injective firstEntry secondEntry same
  rfl

theorem allExact_inlines (sources : List Value) :
    Entries.AllExact Atom.same (sources.filterMap graph.inlineBy) := by
  intro entry member
  obtain ⟨source, _, sets⟩ := List.mem_filterMap.1 member
  obtain ⟨kind, _, isEntry⟩ := inlineBy_eq_some_iff.1 sets
  obtain ⟨event, _, rfl⟩ := Option.map_eq_some_iff.1 isEntry
  exact Entries.exact_text _

/-- Edges that each leave a project as it is do so together. -/
theorem performAll_idle {target : Value} {before : Project} {sources : List Value}
    (idle : ∀ source ∈ sources,
      (Plan.carryOut (graph.perform runtimeId (.wire target source)) before).project = before) :
    graph.performAll runtimeId before (sources.map (.wire target)) = before := by
  induction sources with
  | nil => rfl
  | cons source sources ih =>
      obtain ⟨first, rest⟩ := List.forall_mem_cons.1 idle
      rw [List.map_cons, performAll_cons, first, ih rest]

/-- What a run of edges from some sources into one target makes of a project. -/
structure WiredInto (graph : Graph) (runtimeId : Value) (target : String) (sources : List Value)
    (before after : Project) : Prop where
  /-- The trigger of a kind and an id is the one that is written out for them. -/
  fires : ∀ kind id event, trigger kind (.text id) = some event ↔ Kind.Fires kind id event
  /-- So is the inline event, with its name. -/
  inlines : ∀ kind id entry, inlineEntry kind (.text id) = some entry ↔
    ∃ name, entry.1 = .text name ∧ Kind.Inlines kind id name entry.2
  /-- A function keeps its triggers and has those of the sources after them. -/
  function : graph.isFunction (.text target) = .ok true → ∀ fields old,
    before.document.itemAt (targetPlace true target) = .ok (.map fields) →
      heldBy fields "events" (.list []) = .list old →
        Project.Replaced (targetPlace true target)
          (withTriggers fields old (sources.filterMap graph.triggerBy)) before after
  /-- A resource keeps its inline events and has those of the sources beside them. -/
  resource : graph.isFunction (.text target) = .ok false → ∀ resource : Composite,
    before.document.itemAt (targetPlace false target) = .ok (.map resource.fields) →
      Project.Replaced (targetPlace false target)
        (resource.after (sources.filterMap graph.inlineBy) (graph.readers sources)) before after
  /-- Every source has its inline event under its own name. -/
  named : ∀ (old : Entries Atom Value), ∀ source ∈ sources, ∀ entry,
    graph.inlineBy source = some entry →
      Entries.find? Atom.same
        (Entries.putAll Atom.same old (sources.filterMap graph.inlineBy)) entry.1 = some entry.2
  /-- Other inline events stay as they are. -/
  kept : ∀ (old : Entries Atom Value) (name : String),
    .text name ∉ Entries.keys (sources.filterMap graph.inlineBy) →
      Entries.find? Atom.same
          (Entries.putAll Atom.same old (sources.filterMap graph.inlineBy)) (.text name) =
        Entries.find? Atom.same old (.text name)
  /-- No two sources share a name, whatever their kinds and ids are. -/
  apart : ∀ first second name other entry twin, inlineEntry first (.text name) = some entry →
    inlineEntry second (.text other) = some twin → entry.1 = twin.1 →
      first = second ∧ name = other
  /-- Sources that set nothing off change nothing. -/
  idle : (∀ source ∈ sources, ¬graph.SetsOff source) → after = before
  /-- Without an entry of the target nothing is changed, and an edge does nothing or fails. -/
  missing : graph.NoEntry target before → after = before ∧
    ∀ source kind, graph.kindOf source = .ok kind →
      (Plan.carryOut (graph.perform runtimeId (.wire (.text target) source)) before).result =
          .ok .null ∨
        (Plan.carryOut (graph.perform runtimeId (.wire (.text target) source)) before).result =
          .error (.missingKey (.text target))

/-- Edges that are wired one by one, in whatever state the project is, lose nothing that is there
and mix nothing up. -/
theorem performAll_wires_into {value : Value} (loaded : Graph.ofValue value = .ok graph)
    (ids : ∀ node ∈ graph.nodeList, ∃ id, node.id = .text id) (runtimeId : Value)
    (target : String) (sources : List Value) (before : Project) :
    graph.WiredInto runtimeId target sources before
      (graph.performAll runtimeId before (sources.map (.wire (.text target)))) := by
  have keyed := keyed_of_ofValue loaded ids
  constructor
  case fires => exact fun kind id event => trigger_iff
  case inlines => exact fun kind id entry => inlineEntry_iff
  case function =>
    intro asked fields old found held
    exact performAll_triggers asked held sources found
  case resource =>
    intro asked resource found
    exact keyed.performAll_inlines resource asked sources found
  case named =>
    intro old source member entry sets
    obtain ⟨name, kind, rfl, isEntry⟩ := keyed.of_inlineBy sets
    have exact : Entries.AllExact Atom.same (sources.filterMap graph.inlineBy) :=
      allExact_inlines sources
    have own := List.mem_filterMap.2 ⟨_, member, sets⟩
    refine Entries.find?_putAll_of_mem (exact entry own) exact own fun twin other same => ?_
    obtain ⟨source, _, twinSets⟩ := List.mem_filterMap.1 other
    obtain rfl := keyed.inlineBy_injective twinSets sets same
    rw [Option.some.inj (twinSets.symm.trans sets)]
  case kept =>
    intro old name absent
    exact Entries.find?_putAll_of_not_mem (Entries.exact_text name) (allExact_inlines sources)
      absent
  case apart =>
    intro first second name other entry twin firstSets secondSets same
    exact inlineEntry_injective firstSets secondSets same
  case idle =>
    intro idle
    exact performAll_idle fun source member => perform_wire_idle (idle source member) _ before
  case missing =>
    intro noEntry
    exact ⟨performAll_idle fun source _ => (perform_wire_missing noEntry source).1,
      fun source => (perform_wire_missing noEntry source).2⟩

/-- A project with a delivery stream that nothing has been put into yet. -/
def bareArchive : Project :=
  { Draft.empty (.text "pictures") (.text "python3.7") (.text "aws") with
    resources := [(.text "archive", .map [])] }.project

/-- Two edges from a bucket and one from a table leave two events and two policies. -/
theorem thumbnails_wires_archive :
    let sources : List Value :=
      [.text "photos", .text "index", .text "lost", .text "alarm", .text "photos"]
    let after := thumbnails.performAll (.text "python3.7") bareArchive
      (sources.map (.wire (.text "archive")))
    thumbnails.WiredInto (.text "python3.7") "archive" sources bareArchive after ∧
      after.document.itemAt [.text "resources", .text "Resources", .text "archive"] =
        .ok (.record [("Properties", .record [
          ("Events", .record [
            ("Bucketphotos", .record [
              ("Type", .text "S3"),
              ("Properties", .record [
                ("Bucket", .record [("Ref", .text "photos")]),
                ("Events", .text "s3:ObjectCreated:*")])]),
            ("Tableindex", .record [
              ("Type", .text "DynamoDB"),
              ("Properties", .record [
                ("Stream", .record [("Fn::GetAtt", .texts ["index", "StreamArn"])]),
                ("StartingPosition", .text "TRIM_HORIZON"),
                ("BatchSize", .int 10)])])]),
          ("Policies", .texts ["AmazonS3ReadOnlyAccess", "AmazonS3ReadOnlyAccess"])])]) := by
  intro sources after
  have wired : thumbnails.WiredInto (.text "python3.7") "archive" sources bareArchive after :=
    performAll_wires_into thumbnails_loaded thumbnails_textual.ids _ _ _ _
  have asked : thumbnails.isFunction (.text "archive") = .ok false := rfl
  refine ⟨wired, ?_⟩
  exact (wired.resource asked ⟨[], [], [], [], rfl, rfl, rfl⟩ rfl).part

end Graph

end CloudGraph
