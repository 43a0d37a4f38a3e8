import CloudGraph.Build.Project
import CloudGraph.Fragment.Basic

/-!
# Triggers

What an edge from a node sets off. A function lists its triggers under `events`; a
resource made of others keeps inline events by name. `Graph.wire` puts the trigger of
one edge into its target.
-/

namespace CloudGraph

open Fragment

/-- The route that takes every request. -/
def proxyPath : String := "/\x7bproxy+\x7d"

/-- How often a schedule runs. -/
def scheduleRate : String := "rate(5 minutes)"

/-- The event of a new object in a bucket. -/
def objectCreated : String := "s3:ObjectCreated:*"

/-- The records that are read from a stream at once. -/
def streamBatchSize : Int := 10

/-- Where the reading of a stream starts. -/
def streamStart : String := "TRIM_HORIZON"

/-- The managed policy of resources that a bucket triggers. One for the bucket alone
would refer back to the resource. -/
def readOnlyPolicy : String := "AmazonS3ReadOnlyAccess"

/-- The trigger of a function by a node. -/
def trigger (kind : Kind) (source : Value) : Option Value :=
  match kind with
  | .bucket =>
    some (.record [("s3", .record [("bucket", source), ("event", .text objectCreated)])])
  | .table =>
    some (.record [("stream", .record [
      ("type", .text "dynamodb"),
      ("arn", attributeOf source (.text "StreamArn"))])])
  | .stream =>
    some (.record [("stream", .record [("type", .text "kinesis"), ("arn", arn source)])])
  | .api =>
    some (.record [("http", .record [("path", .text proxyPath), ("method", .text "get")])])
  | .schedule => some (.record [("schedule", .text scheduleRate)])
  | .topic => some (.record [("sns", source)])
  | .deliveryStream | .analyticsStream | .function | .stepFunction | .identityPool
  | .topicRule => none

/-- An inline event of a type with its properties. -/
def inlineEventOf (type : String) (properties : List (String × Value)) : Value :=
  .record [("Type", .text type), ("Properties", .record properties)]

/-- The inline event of a resource by a node. -/
def inlineEvent (kind : Kind) (source : Value) : Option Value :=
  let reading (stream : Value) : List (String × Value) := [
    ("Stream", stream),
    ("StartingPosition", .text streamStart),
    ("BatchSize", .int streamBatchSize)]
  match kind with
  | .bucket =>
    some (inlineEventOf "S3" [("Bucket", ref source), ("Events", .text objectCreated)])
  | .table =>
    some (inlineEventOf "DynamoDB" (reading (attributeOf source (.text "StreamArn"))))
  | .stream => some (inlineEventOf "Kinesis" (reading (arn source)))
  | .api => some (inlineEventOf "Api" [("Path", .text proxyPath), ("Method", .text "ANY")])
  | .schedule => some (inlineEventOf "Schedule" [("Schedule", .text scheduleRate)])
  | .topic => some (inlineEventOf "SNS" [("Topic", ref source)])
  | .deliveryStream | .analyticsStream | .function | .stepFunction | .identityPool
  | .topicRule => none

/-- What the name of an inline event starts with; the id of its source follows. -/
def eventPrefix? : Kind → Option String
  | .bucket => some "Bucket"
  | .table => some "Table"
  | .api => some "Api"
  | .stream => some "Stream"
  | .schedule => some "Schedule"
  | .topic => some "Topic"
  | .deliveryStream | .analyticsStream | .function | .stepFunction | .identityPool
  | .topicRule => none

/-- A text followed by an id; the id has to be a text too. -/
def suffixed (start : String) (id : Value) : Except Fault String :=
  match id with
  | .atom (.text id) => .ok (start ++ id)
  | _ => .error .wrongKind

/-- An id followed by a text; the id has to be a text too. -/
def companion (id : Value) (ending : String) : Except Fault String :=
  match id with
  | .atom (.text id) => .ok (id ++ ending)
  | _ => .error .wrongKind

/-- The scalar that an id is. -/
def scalarId (id : Value) : Except Fault Atom :=
  match id with
  | .atom scalar => .ok scalar
  | _ => .error .wrongKind

namespace Plan

/-- Puts a trigger at the end of the triggers of a function. -/
def addTrigger (target : Atom) (event : Value) : Plan Unit := do
  let path := Project.functionsPath ++ [target]
  Trace.step (.default path (.text "events") (.list []))
  Trace.step (.append (path ++ [.text "events"]) event)

/-- Sets an inline event of a resource. -/
def addInlineEvent (target : Atom) (start : String) (source event : Value) : Plan Unit := do
  let path := Project.resourcesPath ++ [target]
  let properties := path ++ [.text "Properties"]
  Trace.step (.default path (.text "Properties") (.map []))
  Trace.step (.default properties (.text "Events") (.map []))
  let name ← suffixed start source
  Trace.step (.assign (properties ++ [.text "Events"]) (.text name) event)

/-- Lets a resource read all buckets. -/
def allowReading (target : Atom) : Plan Unit := do
  let properties := Project.resourcesPath ++ [target, .text "Properties"]
  Trace.step (.default properties (.text "Policies") (.list []))
  Trace.step (.append (properties ++ [.text "Policies"]) (.text readOnlyPolicy))

end Plan

/-- Puts what an edge from a node of a kind sets off into the target of the edge. -/
def Graph.wire (graph : Graph) (kind : Kind) (target source : Value) : Plan Unit := do
  let isFunction ← graph.isFunction target
  let targetId ← scalarId target
  if isFunction then
    match trigger kind source with
    | none => Plan.note .debug .wiring (kind.name ++ " doesn't trigger functions")
    | some event => Plan.addTrigger targetId event
  else
    match inlineEvent kind source with
    | none => Plan.note .debug .wiring (kind.name ++ " doesn't trigger resources")
    | some event =>
      Plan.addInlineEvent targetId ((eventPrefix? kind).getD "") source event
      if kind = .bucket then Plan.allowReading targetId

end CloudGraph
