import CloudGraph.Proofs.RuleActions

/-!
# Streams and their last neighbours

Delivery streams and analytics applications look every edge up but use only the last neighbour of
each kind that they can be connected to. `Graph.lastOfKind_of_knows` says what the loop over the
edges finds; from there on the plan of a visit no longer mentions the edges, so two nodes that agree
on these neighbours have one plan: `Graph.visit_follows_last_neighbours`. That holds in every graph
and every project, and for edges in any order, of any kinds and with repeats.

What a stream is connected to is written out, with shared parts opened: a bucket and a data stream
by an attribute, a function by the resource that it is deployed as, and a delivery stream by a name
that is put together from parts.
-/

namespace CloudGraph

namespace Graph

open Plan (Adds)
open Entries (AllExact)

section Neighbours

variable (graph : Graph)

/-- The last of some ids of a kind. An id that is null counts as none. -/
def lastNeighbour? (kind : Kind) (ids : List Value) : Option Value :=
  (graph.lastOf? kind ids).bind present?

/-- Two delivery streams of one id whose edges all lead to nodes, the last bucket and the last
function among them the same. -/
structure SameDelivery (first second : Node) : Prop where
  id : first.id = second.id
  firstKnown : graph.Knows first.targets
  secondKnown : graph.Knows second.targets
  bucket : graph.lastNeighbour? .bucket first.targets =
    graph.lastNeighbour? .bucket second.targets
  function : graph.lastNeighbour? .function first.targets =
    graph.lastNeighbour? .function second.targets

/-- Two applications of one id and one description whose edges all lead from nodes and to nodes, the
last streams and the last delivery streams among them the same. -/
structure SameAnalysis (first second : Node) : Prop where
  id : first.id = second.id
  description : first.description = second.description
  firstKnown : graph.Knows first.sources ∧ graph.Knows first.targets
  secondKnown : graph.Knows second.sources ∧ graph.Knows second.targets
  inputStream : graph.lastNeighbour? .stream first.sources =
    graph.lastNeighbour? .stream second.sources
  inputDelivery : graph.lastNeighbour? .deliveryStream first.sources =
    graph.lastNeighbour? .deliveryStream second.sources
  outputStream : graph.lastNeighbour? .stream first.targets =
    graph.lastNeighbour? .stream second.targets
  outputDelivery : graph.lastNeighbour? .deliveryStream first.targets =
    graph.lastNeighbour? .deliveryStream second.targets

/-- The record of a delivery stream that has no bucket. -/
def withoutBucket (node : Node) : Record :=
  ⟨.error, .streams,
    "Delivery Stream " ++ (Value.atom node.id).plain ++ " without a destination bucket"⟩

/-- The configuration of a delivery stream that a function transforms the records of. -/
def processingBy (function : Value) : Value :=
  .record [
    ("Enabled", .bool true),
    ("Processors", .list [.record [
      ("Parameters", .list [.record [
        ("ParameterName", .text "LambdaArn"),
        ("ParameterValue", .record [("Ref", .text (function.plain ++ "LambdaFunction"))])]]),
      ("Type", .text "Lambda")]])]

/-- What stands under a field that is there if and only if it has a value. -/
def fieldOf (field : String) (value? : Option Value) : Except Fault Value :=
  match value? with
  | none => .error (.missingKey (.text field))
  | some value => .ok value

/-- The destination of a delivery stream is the bucket, and a processor is there if and only if
there is a function. -/
structure DeliversTo (node : Node) (bucket : Value) (after : Project) : Prop where
  bucket : after.document.itemAt [.text "resources", .text "Resources", node.id,
      .text "Properties", .text "ExtendedS3DestinationConfiguration", .text "BucketARN"] =
    .ok (.record [("Fn::GetAtt", .list [bucket, .text "Arn"])])
  processor : after.document.itemAt [.text "resources", .text "Resources", node.id,
      .text "Properties", .text "ExtendedS3DestinationConfiguration",
      .text "ProcessingConfiguration"] =
    fieldOf "ProcessingConfiguration"
      ((graph.lastNeighbour? .function node.targets).map processingBy)

/-- The end of an application at a data stream, with the role of the application. -/
def streamEnd (id : String) (stream : Value) : Value :=
  .record [
    ("ResourceARN", .record [("Fn::GetAtt", .list [stream, .text "Arn"])]),
    ("RoleARN", .record [("Fn::GetAtt", .texts [id ++ "Role", "Arn"])])]

/-- The end of an application at a delivery stream, with the role of the application. -/
def deliveryEnd (id : String) (stream : Value) : Value :=
  .record [
    ("ResourceARN",
      Template.localName "arn:aws:firehose:" (":deliverystream/" ++ stream.plain)),
    ("RoleARN", .record [("Fn::GetAtt", .texts [id ++ "Role", "Arn"])])]

/-- The input and the output of an application are connected to the last streams and delivery
streams, each of them if and only if there is one. -/
structure Connects (node : Node) (id : String) (after : Project) : Prop where
  inputStream : (after.document.itemAt [.text "resources", .text "Resources", node.id,
      .text "Properties", .text "Inputs", .int 0, .text "KinesisStreamsInput"]).map Value.expand =
    fieldOf "KinesisStreamsInput"
      ((graph.lastNeighbour? .stream node.sources).map (streamEnd id))
  inputDelivery : (after.document.itemAt [.text "resources", .text "Resources", node.id,
      .text "Properties", .text "Inputs", .int 0, .text "KinesisFirehoseInput"]).map Value.expand =
    fieldOf "KinesisFirehoseInput"
      ((graph.lastNeighbour? .deliveryStream node.sources).map (deliveryEnd id))
  outputStream : (after.document.itemAt [.text "resources", .text "Resources",
      .text (id ++ "Outputs"), .text "Properties", .text "Output",
      .text "KinesisStreamsOutput"]).map Value.expand =
    fieldOf "KinesisStreamsOutput"
      ((graph.lastNeighbour? .stream node.targets).map (streamEnd id))
  outputDelivery : (after.document.itemAt [.text "resources", .text "Resources",
      .text (id ++ "Outputs"), .text "Properties", .text "Output",
      .text "KinesisFirehoseOutput"]).map Value.expand =
    fieldOf "KinesisFirehoseOutput"
      ((graph.lastNeighbour? .deliveryStream node.targets).map (deliveryEnd id))

end Neighbours

variable {graph : Graph} {node first second : Node}

/-- Going through ids that are all those of nodes finds the last of a kind; one that is found later
takes the place of an earlier one. -/
theorem lastOfKind_of_knows {ids : List Value} (known : graph.Knows ids) (kind : Kind) :
    graph.lastOfKind kind ids = .ok (graph.lastNeighbour? kind ids) := by
  -- What has been found so far stays unless the ids that are left have one of the kind.
  have step : ∀ (ids : List Value) (earlier : Option Value), graph.Knows ids →
      ids.foldlM (fun found id => do
          return if kind.isNamedBy (← graph.typeOf id) then present? id else found) earlier =
        (.ok ((graph.lastOf? kind ids).elim earlier present?) : Except Fault (Option Value)) := by
    intro ids
    induction ids with
    | nil => intro earlier _; rfl
    | cons id ids ih =>
        intro earlier known
        obtain ⟨⟨node, found⟩, rest⟩ := List.forall_mem_cons.1 known
        have typed : graph.typeOf id = .ok node.type := by
          simp [Graph.typeOf, found, bind, Except.bind, pure, Except.pure]
        rw [List.foldlM_cons]
        simp only [typed, isNamedBy_of_typeOf typed, bind, Except.bind, pure, Except.pure]
          at ih ⊢
        rw [ih _ rest]
        by_cases isKind : graph.isOfKind kind id = true
        · cases last : (ids.filter (graph.isOfKind kind)).getLast? <;>
            simp [lastOf?, isKind, List.getLast?_cons, last]
        · simp [lastOf?, isKind]
  have whole := step ids none known
  unfold lastOfKind lastNeighbour?
  rw [whole]
  cases graph.lastOf? kind ids <;> rfl

/-- The last neighbour of a kind is a scalar, since it is the id of a node. -/
theorem scalar_of_lastNeighbour? {kind : Kind} {ids : List Value} {last : Value}
    (found : graph.lastNeighbour? kind ids = some last) : ∃ scalar, last = .atom scalar := by
  obtain ⟨id, lastOf, present⟩ := Option.bind_eq_some_iff.1 found
  have isKind := (of_lastOf? lastOf).2
  cases id with
  | atom scalar =>
      cases scalar <;> cases present <;> exact ⟨_, rfl⟩
  | list | map | shared => cases isKind

/-- A resource that is stored once is there, whatever is stored under other names. -/
theorem itemAt_store {id : String} {resource : Value} {resources : Entries Atom Value}
    {stores : List (Atom × Value)} {before after : Project}
    (replaced : Project.Replaced Project.resourcesPath
      (.map (Entries.putAll Atom.same resources stores)) before after)
    (texts : ∀ pair ∈ stores, ∃ name, pair.1 = .text name)
    (member : (.text id, resource) ∈ stores)
    (once : ∀ pair ∈ stores, pair.1 = .text id → pair.2 = resource) (place : List Atom) :
    after.document.itemAt (Project.resourcesPath ++ .text id :: place) = resource.itemAt place := by
  have exact : AllExact Atom.same stores := by
    intro pair stored
    obtain ⟨name, named⟩ := texts pair stored
    exact named ▸ Entries.exact_text name
  exact itemAt_resource replaced.part
    (Entries.find?_putAll_of_mem (Entries.exact_text id) exact member once) place

section Delivery

theorem SameDelivery.visit_eq (same : graph.SameDelivery first second) (runtimeId : Value) :
    graph.visit runtimeId .deliveryStream first = graph.visit runtimeId .deliveryStream second := by
  unfold visit visitDeliveryStream
  rw [lastOfKind_of_knows same.firstKnown, lastOfKind_of_knows same.secondKnown,
    lastOfKind_of_knows same.firstKnown, lastOfKind_of_knows same.secondKnown, same.bucket,
    same.function, same.id]

/-- Without a bucket there is a record, and nothing else. -/
theorem visitDeliveryStream_of_none (known : graph.Knows node.targets)
    (last : graph.lastNeighbour? .bucket node.targets = none) :
    graph.visitDeliveryStream node = Trace.step (.note (withoutBucket node)) := by
  unfold visitDeliveryStream
  rw [lastOfKind_of_knows known, lastOfKind_of_knows known, last]
  rfl

/-- With a bucket, the delivery stream, its role and its policy are stored. -/
theorem visitDeliveryStream_of_some {id : String} {bucket : Value} (idEq : node.id = .text id)
    (known : graph.Knows node.targets)
    (last : graph.lastNeighbour? .bucket node.targets = some bucket) :
    Adds (graph.visitDeliveryStream node)
      [(.text id, deliveryStreamResource bucket (id ++ "DeliveryRole") (id ++ "DeliveryPolicy")
          (graph.lastNeighbour? .function node.targets)),
        (.text (id ++ "DeliveryRole"), deliveryRole),
        (.text (id ++ "DeliveryPolicy"), deliveryPolicy bucket (id ++ "DeliveryRole"))]
      (.ok ()) := by
  unfold visitDeliveryStream
  rw [lastOfKind_of_knows known, lastOfKind_of_knows known, last, idEq]
  refine Adds.after_lift (Adds.after_lift ?_)
  exact Adds.after_lift (Adds.after_lift (Adds.after_put (Adds.after_put Adds.put)))

theorem deliversTo_of_visit {id : String} {bucket : Value} (idEq : node.id = .text id)
    (known : graph.Knows node.targets)
    (last : graph.lastNeighbour? .bucket node.targets = some bucket) {before : Project}
    {resources : Entries Atom Value} (held : before.resources = .ok (.map resources)) :
    (Plan.carryOut (graph.visitDeliveryStream node) before).result = .ok () ∧
      graph.DeliversTo node bucket
        (Plan.carryOut (graph.visitDeliveryStream node) before).project := by
  obtain ⟨after, ends, replaced⟩ :=
    (visitDeliveryStream_of_some idEq known last).turns resources before held
  obtain ⟨result, left⟩ := ends.carryOut_eq
  rw [left]
  have stream := itemAt_store replaced (by simp) List.mem_cons_self (by simp)
  rw [← idEq] at stream
  refine ⟨result, stream _, (stream _).trans ?_⟩
  cases graph.lastNeighbour? .function node.targets <;> rfl

end Delivery

section Analysis

theorem SameAnalysis.visit_eq (same : graph.SameAnalysis first second) (runtimeId : Value) :
    graph.visit runtimeId .analyticsStream first =
      graph.visit runtimeId .analyticsStream second := by
  obtain ⟨firstSources, firstTargets⟩ := same.firstKnown
  obtain ⟨secondSources, secondTargets⟩ := same.secondKnown
  unfold visit visitAnalyticsStream
  simp only [lastOfKind_of_knows firstSources, lastOfKind_of_knows firstTargets,
    lastOfKind_of_knows secondSources, lastOfKind_of_knows secondTargets, same.inputStream,
    same.inputDelivery, same.outputStream, same.outputDelivery, same.id, same.description]

/-- An application, its role and its outputs are stored. -/
theorem visitAnalyticsStream_of_knows {id : String} (idEq : node.id = .text id)
    (sources : graph.Knows node.sources) (targets : graph.Knows node.targets) :
    Adds (graph.visitAnalyticsStream node)
      [(.text id, analyticsResource (.text id) node.description
          (analyticsEnds "KinesisStreamsInput" "KinesisFirehoseInput" (id ++ "Role")
            (graph.lastNeighbour? .stream node.sources)
            (graph.lastNeighbour? .deliveryStream node.sources))),
        (.text (id ++ "Role"), analyticsRole),
        (.text (id ++ "Outputs"), analyticsOutputs (.text id)
          (analyticsEnds "KinesisStreamsOutput" "KinesisFirehoseOutput" (id ++ "Role")
            (graph.lastNeighbour? .stream node.targets)
            (graph.lastNeighbour? .deliveryStream node.targets)))]
      (.ok ()) := by
  unfold visitAnalyticsStream
  rw [lastOfKind_of_knows sources, lastOfKind_of_knows sources, lastOfKind_of_knows targets,
    lastOfKind_of_knows targets, idEq]
  refine Adds.after_lift (Adds.after_lift (Adds.after_lift (Adds.after_lift ?_)))
  exact Adds.after_lift (Adds.after_lift (Adds.after_put (Adds.after_put Adds.put)))

section Ends

variable {id : String} {stream? delivery? : Option Value}
  (scalar : ∀ stream, stream? = some stream → ∃ scalar, stream = .atom scalar)

include scalar

/-- What an application reads from is under its fields, each of them if there is such an end. -/
theorem itemAt_inputEnds (description : Value) :
    let resource := analyticsResource (.text id) description
      (analyticsEnds "KinesisStreamsInput" "KinesisFirehoseInput" (id ++ "Role") stream? delivery?)
    (resource.itemAt [.text "Properties", .text "Inputs", .int 0,
        .text "KinesisStreamsInput"]).map Value.expand =
      fieldOf "KinesisStreamsInput" (stream?.map (streamEnd id)) ∧
    (resource.itemAt [.text "Properties", .text "Inputs", .int 0,
        .text "KinesisFirehoseInput"]).map Value.expand =
      fieldOf "KinesisFirehoseInput" (delivery?.map (deliveryEnd id)) := by
  cases stream? with
  | none => cases delivery? <;> exact ⟨rfl, rfl⟩
  | some stream =>
      obtain ⟨name, rfl⟩ := scalar stream rfl
      cases delivery? <;> exact ⟨rfl, rfl⟩

/-- So is what it writes to. -/
theorem itemAt_outputEnds :
    let resource := analyticsOutputs (.text id)
      (analyticsEnds "KinesisStreamsOutput" "KinesisFirehoseOutput" (id ++ "Role") stream?
        delivery?)
    (resource.itemAt [.text "Properties", .text "Output",
        .text "KinesisStreamsOutput"]).map Value.expand =
      fieldOf "KinesisStreamsOutput" (stream?.map (streamEnd id)) ∧
    (resource.itemAt [.text "Properties", .text "Output",
        .text "KinesisFirehoseOutput"]).map Value.expand =
      fieldOf "KinesisFirehoseOutput" (delivery?.map (deliveryEnd id)) := by
  cases stream? with
  | none => cases delivery? <;> exact ⟨rfl, rfl⟩
  | some stream =>
      obtain ⟨name, rfl⟩ := scalar stream rfl
      cases delivery? <;> exact ⟨rfl, rfl⟩

end Ends

theorem connects_of_visit {id : String} (idEq : node.id = .text id)
    (sources : graph.Knows node.sources) (targets : graph.Knows node.targets) {before : Project}
    {resources : Entries Atom Value} (held : before.resources = .ok (.map resources)) :
    (Plan.carryOut (graph.visitAnalyticsStream node) before).result = .ok () ∧
      graph.Connects node id
        (Plan.carryOut (graph.visitAnalyticsStream node) before).project := by
  obtain ⟨after, ends, replaced⟩ :=
    (visitAnalyticsStream_of_knows idEq sources targets).turns resources before held
  obtain ⟨result, left⟩ := ends.carryOut_eq
  rw [left]
  have application := itemAt_store replaced (by simp) List.mem_cons_self (by simp)
  have apart : id ≠ id ++ "Outputs" := Ne.symm (by simp)
  have outputs := itemAt_store replaced (by simp)
    (List.mem_cons_of_mem _ (List.mem_cons_of_mem _ List.mem_cons_self)) (by simp [apart])
  rw [← idEq] at application
  have scalar : ∀ {ids : List Value}, ∀ stream, graph.lastNeighbour? .stream ids = some stream →
      ∃ scalar, stream = .atom scalar :=
    fun _ => scalar_of_lastNeighbour?
  obtain ⟨inputStream, inputDelivery⟩ := itemAt_inputEnds scalar node.description
  obtain ⟨outputStream, outputDelivery⟩ := itemAt_outputEnds scalar
  exact ⟨result, {
    inputStream := (congrArg _ (application _)).trans inputStream
    inputDelivery := (congrArg _ (application _)).trans inputDelivery
    outputStream := (congrArg _ (outputs _)).trans outputStream
    outputDelivery := (congrArg _ (outputs _)).trans outputDelivery }⟩

end Analysis

variable (graph) in
/-- Streams that agree on the last neighbours of each kind that counts are visited alike, and what
a visit leaves is connected to exactly these neighbours. A delivery stream without a bucket leaves
everything as it was. -/
theorem visit_follows_last_neighbours (runtimeId : Value) (project : Project) :
    (∀ first second, graph.SameDelivery first second →
      let outcome := Plan.carryOut (graph.visit runtimeId .deliveryStream first) project
      outcome = Plan.carryOut (graph.visit runtimeId .deliveryStream second) project ∧
      match graph.lastNeighbour? .bucket first.targets with
      | none => outcome = ⟨project, [withoutBucket first], .ok ()⟩
      | some bucket => ∀ {id resources}, first.id = .text id →
          project.resources = .ok (.map resources) →
          outcome.result = .ok () ∧ graph.DeliversTo first bucket outcome.project) ∧
    (∀ first second, graph.SameAnalysis first second →
      let outcome := Plan.carryOut (graph.visit runtimeId .analyticsStream first) project
      outcome = Plan.carryOut (graph.visit runtimeId .analyticsStream second) project ∧
      ∀ {id resources}, first.id = .text id → project.resources = .ok (.map resources) →
        outcome.result = .ok () ∧ graph.Connects first id outcome.project) := by
  constructor
  · intro first second same
    refine ⟨congrArg (Plan.carryOut · project) (same.visit_eq runtimeId), ?_⟩
    cases last : graph.lastNeighbour? .bucket first.targets with
    | none =>
        have idle : graph.visit runtimeId .deliveryStream first =
            Trace.step (.note (withoutBucket first)) :=
          visitDeliveryStream_of_none same.firstKnown last
        rw [idle]
        rfl
    | some bucket =>
        intro id resources idEq held
        exact deliversTo_of_visit idEq same.firstKnown last held
  · intro first second same
    refine ⟨congrArg (Plan.carryOut · project) (same.visit_eq runtimeId), ?_⟩
    intro id resources idEq held
    exact connects_of_visit idEq same.firstKnown.1 same.firstKnown.2 held

end Graph

/-- The neighbours of some streams. -/
def pipelines : Graph :=
  .ofNodes [
    ⟨.text "raw", .text "bucket", .text "", [], []⟩,
    ⟨.text "clean", .text "bucket", .text "", [], []⟩,
    ⟨.text "strip", .text "fn", .text "", [], []⟩,
    ⟨.text "clicks", .text "stream", .text "", [], []⟩,
    ⟨.text "views", .text "stream", .text "", [], []⟩,
    ⟨.text "archive", .text "deliveryStream", .text "", [], []⟩,
    ⟨.text "ledger", .text "table", .text "", [], []⟩]

/-- A delivery stream with the given targets. -/
def intake (targets : List String) : Node :=
  ⟨.text "intake", .text "deliveryStream", .text "", [], targets.map .text⟩

/-- An application with the given sources and targets. -/
def trends (sources targets : List String) : Node :=
  ⟨.text "trends", .text "analyticsStream", .text "Hourly", sources.map .text, targets.map .text⟩

namespace Graph

/-- The last bucket counts, not the first, and neither does the table. Both delivery streams end in
the bucket "clean" through the function "strip"; the one without a bucket leaves a record alone.
Both applications read from "views" and from "archive" and write to "clicks" alone. -/
theorem pipelines_follow_last_neighbours :
    let project := Project.create (.text "site") (.text "python3.7") (.text "aws")
    let deliver (node : Node) :=
      Plan.carryOut (pipelines.visit (.text "python3.7") .deliveryStream node) project
    let analyse (node : Node) :=
      Plan.carryOut (pipelines.visit (.text "python3.7") .analyticsStream node) project
    let first := intake ["raw", "strip", "clean", "ledger"]
    let application := trends ["clicks", "archive", "views"] ["ledger", "clicks"]
    let intakePlace : List Atom := [.text "resources", .text "Resources", .text "intake",
      .text "Properties", .text "ExtendedS3DestinationConfiguration"]
    let trendsPlace : List Atom := [.text "resources", .text "Resources", .text "trends",
      .text "Properties", .text "Inputs", .int 0]
    deliver first = deliver (intake ["clean", "raw", "strip", "clean"]) ∧
      pipelines.DeliversTo first (.text "clean") (deliver first).project ∧
      (deliver first).project.document.itemAt (intakePlace ++ [.text "BucketARN"]) =
        .ok (.record [("Fn::GetAtt", .texts ["clean", "Arn"])]) ∧
      (deliver first).project.document.itemAt (intakePlace ++ [.text "ProcessingConfiguration",
          .text "Processors", .int 0, .text "Parameters", .int 0, .text "ParameterValue"]) =
        .ok (.record [("Ref", .text "stripLambdaFunction")]) ∧
      deliver (intake ["ledger", "strip"]) = ⟨project, [withoutBucket (intake [])], .ok ()⟩ ∧
      (withoutBucket (intake [])).message =
        "Delivery Stream intake without a destination bucket" ∧
      analyse application = analyse (trends ["views", "archive"] ["views", "clicks"]) ∧
      pipelines.Connects application "trends" (analyse application).project ∧
      (analyse application).project.document.itemAt
          (trendsPlace ++ [.text "KinesisStreamsInput", .text "ResourceARN"]) =
        .ok (.record [("Fn::GetAtt", .texts ["views", "Arn"])]) ∧
      ((analyse application).project.document.itemAt
          (trendsPlace ++ [.text "KinesisFirehoseInput", .text "ResourceARN"])).map Value.expand =
        .ok (.record [("Fn::Join", .list [.text "", .list [
          .text "arn:aws:firehose:", .record [("Ref", .text "AWS::Region")], .text ":",
          .record [("Ref", .text "AWS::AccountId")], .text ":deliverystream/archive"]])]) ∧
      pipelines.lastNeighbour? .deliveryStream application.targets = none := by
  have known : ∀ {ids : List String},
      ids ⊆ ["raw", "clean", "strip", "clicks", "views", "archive", "ledger"] →
      pipelines.Knows (ids.map .text) := by
    intro ids part id member
    obtain ⟨name, inIds, rfl⟩ := List.mem_map.1 member
    have listed := part inIds
    simp only [List.mem_cons, List.not_mem_nil, or_false] at listed
    rcases listed with rfl | rfl | rfl | rfl | rfl | rfl | rfl <;> exact ⟨_, rfl⟩
  have delivery : pipelines.SameDelivery (intake ["raw", "strip", "clean", "ledger"])
      (intake ["clean", "raw", "strip", "clean"]) :=
    ⟨rfl, known (by decide), known (by decide), rfl, rfl⟩
  have idle : pipelines.SameDelivery (intake ["ledger", "strip"]) (intake ["ledger", "strip"]) :=
    ⟨rfl, known (by decide), known (by decide), rfl, rfl⟩
  have analysis : pipelines.SameAnalysis
      (trends ["clicks", "archive", "views"] ["ledger", "clicks"])
      (trends ["views", "archive"] ["views", "clicks"]) :=
    ⟨rfl, rfl, ⟨known (by decide), known (by decide)⟩, ⟨known (by decide), known (by decide)⟩,
      rfl, rfl, rfl, rfl⟩
  obtain ⟨delivers, analyses⟩ := visit_follows_last_neighbours pipelines (.text "python3.7")
    (Project.create (.text "site") (.text "python3.7") (.text "aws"))
  obtain ⟨sameDelivery, delivered⟩ := delivers _ _ delivery
  obtain ⟨sameAnalysis, connected⟩ := analyses _ _ analysis
  exact ⟨sameDelivery, (delivered rfl rfl).2, rfl, rfl, (delivers _ _ idle).2, by decide +kernel,
    sameAnalysis, (connected rfl rfl).2, rfl, rfl, rfl⟩

end Graph

end CloudGraph
