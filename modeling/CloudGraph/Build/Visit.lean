import CloudGraph.Build.Grant
import CloudGraph.Build.Trigger
import CloudGraph.Scaffold

/-!
# Visits

What a node itself adds to the project. `Graph.visit` is the plan of one node; it looks
up the nodes at the other ends of the edges that the node's kind owns, and no others.
-/

namespace CloudGraph

open Fragment

/-- The plugin that reads the statements of a single function. -/
def rolesPlugin : String := "serverless-iam-roles-per-function"

/-- The field of a function's definition for its statements. -/
def statementsField : String := "iamRoleStatements"

/-- A field of a description, unless it is empty. -/
def describedAs (name : String) (description : Value) : List (String × Value) :=
  if description.truthy then [(name, description)] else []

/-- A resource of a type without properties. -/
def plainResource (type : String) : Value :=
  .record [("Type", .text type)]

/-- A resource of a type with properties. -/
def resourceOf (type : String) (properties : List (String × Value)) : Value :=
  .record [("Type", .text type), ("Properties", .record properties)]

/-- The resource of a table. -/
def tableResource : Value :=
  let column (name type : String) : Value :=
    .record [("AttributeName", .text name), ("AttributeType", .text type)]
  let key (name type : String) : Value :=
    .record [("AttributeName", .text name), ("KeyType", .text type)]
  resourceOf "AWS::DynamoDB::Table" [
    ("AttributeDefinitions", .list [column "id" "S", column "version" "N"]),
    ("KeySchema", .list [key "id" "HASH", key "version" "RANGE"]),
    ("BillingMode", .text "PAY_PER_REQUEST"),
    ("StreamSpecification", .record [("StreamViewType", .text "NEW_AND_OLD_IMAGES")])]

/-- The definition of a new state machine, which is a text. -/
def helloWorld : String := "\n".intercalate [
  "\x7b",
  "  \"Comment\": \"A Hello World example\",",
  "  \"StartAt\": \"HelloWorld\",",
  "  \"States\": \x7b",
  "    \"HelloWorld\": \x7b",
  "      \"Type\": \"Pass\",",
  "      \"Result\": \"Hello World!\",",
  "      \"End\": true",
  "    \x7d",
  "  \x7d",
  "\x7d"]

/-- The resource of a state machine. -/
def stateMachineResource : Value :=
  resourceOf "AWS::StepFunctions::StateMachine" [
    ("RoleArn", concat [
      .text "arn:aws:iam::",
      .shared .accountId,
      .text ":role/service-role/StatesExecutionRole-",
      .shared .region]),
    ("DefinitionString", .text helloWorld)]

/-- The resource of a data stream. -/
def streamResource : Value :=
  resourceOf "AWS::Kinesis::Stream" [("ShardCount", .int 1)]

/-- Puts the triggers of the edges from some nodes into a function, in order. -/
def Graph.wireSources (graph : Graph) (function : Value) : List Value → Plan Unit
  | [] => pure ()
  | source :: sources => do
    Plan.note .debug .functions ("Trigger " ++ source.plain ++ " -> " ++ function.plain)
    let kind ← graph.kindOf source
    graph.wire kind function source
    graph.wireSources function sources

/-- Gives a function its statements, if there are any, and the project the plugin that
reads them. -/
def Plan.attachStatements (function : Atom) (statements : List Value) : Plan Unit :=
  if statements.isEmpty then pure ()
  else do
    Plan.setFunctionField function statementsField (.list statements)
    Trace.step (.default [] (.text "plugins") (.list []))
    Trace.step (.include [.text "plugins"] rolesPlugin)

/-- The plan of the edges into a function, which lists its triggers if there are any. -/
def Graph.visitSources (graph : Graph) (node : Node) : Plan Unit :=
  if node.sources.isEmpty then pure ()
  else do
    Plan.setFunctionField node.id "events" (.list [])
    graph.wireSources (.atom node.id) node.sources

/-- The plan of the edges out of a function. -/
def Graph.visitTargets (graph : Graph) (node : Node) : Plan Unit :=
  if node.targets.isEmpty then pure ()
  else do
    let statements ← graph.statements (.atom node.id) node.targets
    Plan.attachStatements node.id statements

/-- The plan of a function: its definition, its source file, its triggers from the edges
into it and its statements from the edges out of it. -/
def Graph.visitFunction (graph : Graph) (runtimeId : Value) (node : Node) : Plan Unit := do
  let runtime ← Runtime.ofId runtimeId
  let id : Value := .atom node.id
  Trace.step (.provide ignoreFile runtime.ignored)
  let handler := ("handler", .text (runtime.handlerRef id))
  Plan.putFunction node.id (.record (handler :: describedAs "description" node.description))
  Trace.step (.write (runtime.sourceFile id) runtime.startingCode)
  graph.visitSources node
  graph.visitTargets node

/-- The service that vouches for users of an identity pool. -/
def identityService : String := "cognito-identity.amazonaws.com"

/-- The trust policy of the role for users of an identity pool that are not known. -/
def identityTrust (pool : Value) : Value :=
  trust (.record [("Federated", .text identityService)])
    (.text "sts:AssumeRoleWithWebIdentity")
    (.record [
      ("StringEquals", .record [(identityService ++ ":aud", ref pool)]),
      ("ForAnyValue:StringLike",
        .record [(identityService ++ ":amr", .text "unauthenticated")])])

/-- The resource of an identity pool. -/
def identityPoolResource : Value :=
  resourceOf "AWS::Cognito::IdentityPool" [("AllowUnauthenticatedIdentities", .bool true)]

/-- The role of the users of an identity pool that are not known. -/
def identityRole (pool : Value) : Value :=
  role (identityTrust pool) []

/-- The policy of the users of an identity pool, with its statements. -/
def identityPolicy (roleId : String) (statements : List Value) : Value :=
  attachedPolicy (.text "cognito_unauth_policy") (.text roleId) statements

/-- The plan of an identity pool: the pool, and the role and policy of its users. -/
def Graph.visitIdentityPool (graph : Graph) (node : Node) : Plan Unit := do
  let id : Value := .atom node.id
  let roleId ← companion id "CognitoUnauthRole"
  let policyId ← companion id "CognitoUnauthPolicy"
  Plan.putResource node.id identityPoolResource
  Plan.putResource (.text roleId) (identityRole id)
  let statements ← graph.statements id node.targets
  Plan.putResource (.text policyId) (identityPolicy roleId statements)

/-- The query of a new topic rule. -/
def topicRuleQuery : String := "SELECT temp FROM 'Some/Topic' WHERE temp > 60"

/-- The resource of a topic rule with its actions. -/
def topicRuleResource (description : Value) (actions : List Value) : Value :=
  resourceOf "AWS::IoT::TopicRule" [
    ("TopicRulePayload", .record ([
      ("RuleDisabled", .text "true"),
      ("Sql", .text topicRuleQuery),
      ("Actions", .list actions)] ++ describedAs "Description" description))]

/-- The action that invokes a function. -/
def invokeAction (function : Value) : Value :=
  .record [("Lambda", .record [("FunctionArn", arn (functionResource function))])]

/-- The action that publishes again under a role. -/
def republishAction (roleId : String) : Value :=
  .record [("Republish", .record [
    ("Topic", .text "Output/Topic"),
    ("RoleArn", arn (.text roleId))])]

/-- The plan of the edges out of a topic rule. The rule is stored again with each action;
once a role has taken its place among the resources, it no longer is. -/
def Graph.visitActions (graph : Graph) (node : Node) (stored : Bool) (actions : List Value) :
    List Value → Plan Unit
  | [] => pure ()
  | target :: targets => do
    let id : Value := .atom node.id
    let type ← graph.typeOf target
    Plan.note .debug .topicRules
      ("Action " ++ id.plain ++ " -> " ++ target.plain ++ " (" ++ type.plain ++ ")")
    let store (actions : List Value) : Plan Unit :=
      if stored then Plan.putResource node.id (topicRuleResource node.description actions)
      else pure ()
    if Kind.function.isNamedBy type then
      let actions := actions ++ [invokeAction target]
      store actions
      graph.visitActions node stored actions targets
    else if Kind.topicRule.isNamedBy type then
      let roleId ← companion target "PublishRole"
      let actions := actions ++ [republishAction roleId]
      store actions
      Plan.putResource (.text roleId) (republishRole outputTopics)
      graph.visitActions node (stored && !Atom.same node.id (.text roleId)) actions targets
    else Trace.fail (.problem (.unsupportedTarget id target type))

/-- The plan of a topic rule: the rule, with an action for each edge out of it. -/
def Graph.visitTopicRule (graph : Graph) (node : Node) : Plan Unit := do
  Plan.putResource node.id (topicRuleResource node.description [])
  graph.visitActions node true [] node.targets

/-- The destination of a delivery stream: a bucket, and a function that transforms the
records on their way if there is one. -/
def deliveryDestination (bucket : Value) (roleId : String) (transformer : Option Value) : Value :=
  let processing := match transformer with
    | none => []
    | some function => [("ProcessingConfiguration", .record [
        ("Enabled", .bool true),
        ("Processors", .list [.record [
          ("Parameters", .list [.record [
            ("ParameterName", .text "LambdaArn"),
            ("ParameterValue", ref (functionResource function))]]),
          ("Type", .text "Lambda")]])])]
  .record ([
    ("BucketARN", arn bucket),
    ("BufferingHints", .record [("IntervalInSeconds", .int 60), ("SizeInMBs", .int 50)]),
    ("CompressionFormat", .text "UNCOMPRESSED"),
    ("Prefix", .text "firehose/"),
    ("RoleARN", arn (.text roleId))] ++ processing)

/-- The resource of a delivery stream. -/
def deliveryStreamResource (bucket : Value) (roleId policyId : String)
    (transformer : Option Value) : Value :=
  .record [
    ("DependsOn", .texts [policyId]),
    ("Type", .text "AWS::KinesisFirehose::DeliveryStream"),
    ("Properties", .record [
      ("ExtendedS3DestinationConfiguration", deliveryDestination bucket roleId transformer)])]

/-- The role under which a delivery stream writes. -/
def deliveryRole : Value :=
  role
    (trust (.record [("Service", .text "firehose.amazonaws.com")]) (.text "sts:AssumeRole")
      (.record [("StringEquals", .record [("sts:ExternalId", .shared .accountId)])]))
    []

/-- The policy that lets a delivery stream write into its bucket. -/
def deliveryPolicy (bucket : Value) (roleId : String) : Value :=
  attachedPolicy (.text "firehose_delivery_policy") (.text roleId)
    [allow (.shared .bucketActions) (arn bucket)]

/-- The plan of a delivery stream into its last bucket, through its last function. Without
a bucket nothing is made, which is an error in the log and no fault. -/
def Graph.visitDeliveryStream (graph : Graph) (node : Node) : Plan Unit := do
  let id : Value := .atom node.id
  let bucket? ← graph.lastOfKind .bucket node.targets
  let function? ← graph.lastOfKind .function node.targets
  match bucket? with
  | none =>
    Plan.note .error .streams ("Delivery Stream " ++ id.plain ++ " without a destination bucket")
  | some bucket =>
    let roleId ← companion id "DeliveryRole"
    let policyId ← companion id "DeliveryPolicy"
    Plan.putResource node.id (deliveryStreamResource bucket roleId policyId function?)
    Plan.putResource (.text roleId) deliveryRole
    Plan.putResource (.text policyId) (deliveryPolicy bucket roleId)

/-- The connection of an application to a data stream and to a delivery stream, each if
there is one. -/
def analyticsEnds (streamField deliveryField roleId : String)
    (stream? delivery? : Option Value) : List (String × Value) :=
  let connection (field : String) (name : Value) : String × Value :=
    (field, .record [("ResourceARN", name), ("RoleARN", .shared (.roleArn roleId))])
  (stream?.map fun stream => connection streamField (arn stream)).toList ++
    (delivery?.map fun stream => connection deliveryField (deliveryStreamArn stream)).toList

/-- The input of an analytics application, its ends apart. -/
def analyticsInput : List (String × Value) := [
  ("NamePrefix", .text "exampleNamePrefix"),
  ("InputSchema", .record [
    ("RecordColumns", .list [.record [
      ("Name", .text "example"),
      ("SqlType", .text "VARCHAR(16)"),
      ("Mapping", .text "$.example")]]),
    ("RecordFormat", .record [
      ("RecordFormatType", .text "JSON"),
      ("MappingParameters", .record [
        ("JSONMappingParameters", .record [("RecordRowPath", .text "$")])])])])]

/-- The output of an analytics application, its ends apart. -/
def analyticsOutput : List (String × Value) := [
  ("Name", .text "exampleOutput"),
  ("DestinationSchema", .record [("RecordFormatType", .text "CSV")])]

/-- The resource of an analytics application with its input. -/
def analyticsResource (id description : Value) (inputEnds : List (String × Value)) : Value :=
  resourceOf "AWS::KinesisAnalytics::Application"
    ([("ApplicationName", id), ("Inputs", .list [.record (analyticsInput ++ inputEnds)])] ++
      describedAs "ApplicationDescription" description)

/-- The role of an analytics application. It allows everything, so that one role covers
every input and output. -/
def analyticsRole : Value :=
  role
    (trust (.record [("Service", .text "kinesisanalytics.amazonaws.com")])
      (.text "sts:AssumeRole") .null)
    [(.text "Path", .text "/"),
      (.text "Policies", .list [.record [
        ("PolicyName", .text "Open"),
        ("PolicyDocument", policy [allow (.text "*") (.text "*")])]])]

/-- The resource of the output of an analytics application. -/
def analyticsOutputs (id : Value) (outputEnds : List (String × Value)) : Value :=
  .record [
    ("Type", .text "AWS::KinesisAnalytics::ApplicationOutput"),
    ("DependsOn", id),
    ("Properties", .record [
      ("ApplicationName", ref id),
      ("Output", .record (analyticsOutput ++ outputEnds))])]

/-- The plan of an analytics application, which reads from the last streams that have an
edge into it and writes to the last ones that it has an edge to. -/
def Graph.visitAnalyticsStream (graph : Graph) (node : Node) : Plan Unit := do
  let id : Value := .atom node.id
  let inputStream? ← graph.lastOfKind .stream node.sources
  let inputDelivery? ← graph.lastOfKind .deliveryStream node.sources
  let outputStream? ← graph.lastOfKind .stream node.targets
  let outputDelivery? ← graph.lastOfKind .deliveryStream node.targets
  let roleId ← companion id "Role"
  let outputsId ← companion id "Outputs"
  let inputEnds :=
    analyticsEnds "KinesisStreamsInput" "KinesisFirehoseInput" roleId inputStream? inputDelivery?
  let outputEnds :=
    analyticsEnds "KinesisStreamsOutput" "KinesisFirehoseOutput" roleId outputStream?
      outputDelivery?
  Plan.putResource node.id (analyticsResource id node.description inputEnds)
  Plan.putResource (.text roleId) analyticsRole
  Plan.putResource (.text outputsId) (analyticsOutputs id outputEnds)

/-- The plan of a node of a kind. -/
def Graph.visit (graph : Graph) (runtimeId : Value) (kind : Kind) (node : Node) : Plan Unit :=
  match kind with
  | .bucket => Plan.putResource node.id (plainResource "AWS::S3::Bucket")
  | .table => Plan.putResource node.id tableResource
  | .api => pure ()
  | .stream => Plan.putResource node.id streamResource
  | .deliveryStream => graph.visitDeliveryStream node
  | .analyticsStream => graph.visitAnalyticsStream node
  | .schedule => pure ()
  | .topic => Plan.putResource node.id (plainResource "AWS::SNS::Topic")
  | .function => graph.visitFunction runtimeId node
  | .stepFunction => Plan.putResource node.id stateMachineResource
  | .identityPool => graph.visitIdentityPool node
  | .topicRule => graph.visitTopicRule node

end CloudGraph
