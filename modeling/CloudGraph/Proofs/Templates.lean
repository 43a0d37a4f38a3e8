import CloudGraph.Build.Visit

/-!
# Templates

What edges put into a descriptor, written out: the statements that they allow, the triggers and
the inline events that they set off, and the actions of topic rules with the role that they publish
under. Each relation has one case for a kind of node, with every field and every text that there is
in it and with the id of the node in its places. The lemmas say that the fragments of a descriptor
are these and no others; shared parts are opened (`Value.expand`).
-/

namespace CloudGraph

namespace Template

/-- The name of something in the region and under the account that a descriptor is deployed to. -/
def localName (start ending : String) : Value :=
  .record [("Fn::Join", .list [.text "", .list [
    .text start,
    .record [("Ref", .text "AWS::Region")],
    .text ":",
    .record [("Ref", .text "AWS::AccountId")],
    .text ending]])]

/-- The role under which a topic rule publishes again. -/
def publishRole : Value :=
  .record [
    ("Type", .text "AWS::IAM::Role"),
    ("Properties", .record [
      ("AssumeRolePolicyDocument", .record [
        ("Version", .text "2012-10-17"),
        ("Statement", .list [.record [
          ("Effect", .text "Allow"),
          ("Principal", .record [("Service", .texts ["iot.amazonaws.com"])]),
          ("Action", .texts ["sts:AssumeRole"])]])]),
      ("Policies", .list [.record [
        ("PolicyName", .text "publish"),
        ("PolicyDocument", .record [
          ("Version", .text "2012-10-17"),
          ("Statement", .list [.record [
            ("Effect", .text "Allow"),
            ("Action", .text "iot:Publish"),
            ("Resource", localName "arn:aws:iot:" ":topic/Output/*")]])])]])])]

/-- A statement that allows some actions on a resource. -/
def statement (actions resource : Value) : Value :=
  .record [("Effect", .text "Allow"), ("Action", actions), ("Resource", resource)]

end Template

namespace Kind

/-- The statement that an edge to a node of a kind allows. -/
inductive Allows : Kind → String → Value → Prop where
  | bucket {id} : Allows .bucket id (Template.statement
      (.texts ["s3:GetObject", "s3:PutObject"])
      (.record [("Fn::Join", .list [.text "", .list [
        .record [("Fn::GetAtt", .texts [id, "Arn"])], .text "/*"]])]))
  | table {id} : Allows .table id (Template.statement
      (.texts ["dynamodb:GetItem", "dynamodb:PutItem"])
      (.record [("Fn::GetAtt", .texts [id, "Arn"])]))
  /-- The resource is one for all interfaces: it holds no id. -/
  | api {id} : Allows .api id (Template.statement
      (.text "execute-api:Invoke")
      (Template.localName "arn:aws:execute-api:" ":*/*/*/*"))
  | stream {id} : Allows .stream id (Template.statement
      (.texts ["kinesis:PutRecord", "kinesis:PutRecords"])
      (.record [("Fn::GetAtt", .texts [id, "Arn"])]))
  | deliveryStream {id} : Allows .deliveryStream id (Template.statement
      (.texts ["firehose:PutRecord", "firehose:PutRecordBatch"])
      (Template.localName "arn:aws:firehose:" (":deliverystream/" ++ id)))
  | topic {id} : Allows .topic id (Template.statement
      (.text "sns:Publish")
      (.record [("Ref", .text id)]))
  | function {id} : Allows .function id (Template.statement
      (.texts ["lambda:InvokeFunction", "lambda:InvokeAsync"])
      (.record [("Fn::GetAtt", .texts [id ++ "LambdaFunction", "Arn"])]))
  | stepFunction {id} : Allows .stepFunction id (Template.statement
      (.texts [
        "states:DescribeExecution",
        "states:GetExecutionHistory",
        "states:ListExecutions",
        "states:StartExecution",
        "states:StopExecution"])
      (.list [.record [("Ref", .text id)]]))

/-- The trigger that an edge from a node of a kind sets off in a function. -/
inductive Fires : Kind → String → Value → Prop where
  | bucket {id} : Fires .bucket id (.record [("s3", .record [
      ("bucket", .text id), ("event", .text "s3:ObjectCreated:*")])])
  | table {id} : Fires .table id (.record [("stream", .record [
      ("type", .text "dynamodb"),
      ("arn", .record [("Fn::GetAtt", .texts [id, "StreamArn"])])])])
  | stream {id} : Fires .stream id (.record [("stream", .record [
      ("type", .text "kinesis"),
      ("arn", .record [("Fn::GetAtt", .texts [id, "Arn"])])])])
  | api {id} : Fires .api id (.record [("http", .record [
      ("path", .text "/\x7bproxy+\x7d"), ("method", .text "get")])])
  | schedule {id} : Fires .schedule id (.record [("schedule", .text "rate(5 minutes)")])
  | topic {id} : Fires .topic id (.record [("sns", .text id)])

/-- The inline event that an edge from a node of a kind puts into a resource, under its name. -/
inductive Inlines : Kind → String → String → Value → Prop where
  | bucket {id} : Inlines .bucket id ("Bucket" ++ id) (.record [
      ("Type", .text "S3"),
      ("Properties", .record [
        ("Bucket", .record [("Ref", .text id)]), ("Events", .text "s3:ObjectCreated:*")])])
  | table {id} : Inlines .table id ("Table" ++ id) (.record [
      ("Type", .text "DynamoDB"),
      ("Properties", .record [
        ("Stream", .record [("Fn::GetAtt", .texts [id, "StreamArn"])]),
        ("StartingPosition", .text "TRIM_HORIZON"),
        ("BatchSize", .int 10)])])
  | stream {id} : Inlines .stream id ("Stream" ++ id) (.record [
      ("Type", .text "Kinesis"),
      ("Properties", .record [
        ("Stream", .record [("Fn::GetAtt", .texts [id, "Arn"])]),
        ("StartingPosition", .text "TRIM_HORIZON"),
        ("BatchSize", .int 10)])])
  | api {id} : Inlines .api id ("Api" ++ id) (.record [
      ("Type", .text "Api"),
      ("Properties", .record [("Path", .text "/\x7bproxy+\x7d"), ("Method", .text "ANY")])])
  | schedule {id} : Inlines .schedule id ("Schedule" ++ id) (.record [
      ("Type", .text "Schedule"),
      ("Properties", .record [("Schedule", .text "rate(5 minutes)")])])
  | topic {id} : Inlines .topic id ("Topic" ++ id) (.record [
      ("Type", .text "SNS"),
      ("Properties", .record [("Topic", .record [("Ref", .text id)])])])

/-- The action of a topic rule on a node of a kind. -/
inductive Acts : Kind → String → Value → Prop where
  | function {id} : Acts .function id (.record [("Lambda", .record [
      ("FunctionArn", .record [("Fn::GetAtt", .texts [id ++ "LambdaFunction", "Arn"])])])])
  | topicRule {id} : Acts .topicRule id (.record [("Republish", .record [
      ("Topic", .text "Output/Topic"),
      ("RoleArn", .record [("Fn::GetAtt", .texts [id ++ "PublishRole", "Arn"])])])])

end Kind

variable {kind : Kind} {id : String}

/-- A grant is the statement that is written out for its kind, and there is none for other kinds. -/
theorem expand_grant_iff {statement : Value} :
    (grant kind (.text id)).map Value.expand = some statement ↔ kind.Allows id statement := by
  constructor
  · intro granted
    cases kind <;> cases granted <;> constructor
  · intro allowed
    cases allowed <;> rfl

/-- A trigger is the one that is written out for its kind. -/
theorem trigger_iff {event : Value} :
    trigger kind (.text id) = some event ↔ kind.Fires id event := by
  constructor
  · intro triggered
    cases kind <;> cases triggered <;> constructor
  · intro fires
    cases fires <;> rfl

/-- An inline event is the one that is written out for its kind, under the name for it. -/
theorem inlineEvent_iff {name : String} {event : Value} :
    (inlineEvent kind (.text id) = some event ∧ name = (eventPrefix? kind).getD "" ++ id) ↔
      kind.Inlines id name event := by
  constructor
  · rintro ⟨inlined, rfl⟩
    cases kind <;> cases inlined <;> constructor
  · intro inlines
    cases inlines <;> exact ⟨rfl, rfl⟩

/-- The role of a republished rule is the one that is written out. -/
theorem expand_republishRole :
    (Fragment.republishRole Fragment.outputTopics).expand = Template.publishRole :=
  rfl

end CloudGraph
