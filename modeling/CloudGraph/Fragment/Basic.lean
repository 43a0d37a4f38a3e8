import CloudGraph.Fault

/-!
# Template fragments

The pieces that the resources of a descriptor are made of: references, resource names
that are put together from parts, statements, policies and roles. Intrinsic functions
are written in their long form.
-/

namespace CloudGraph.Fragment

/-- The version of the policy language. -/
def policyVersion : String := "2012-10-17"

/-- A reference to a resource. -/
def ref (name : Value) : Value :=
  .record [("Ref", name)]

/-- An attribute of a resource. -/
def attributeOf (resource name : Value) : Value :=
  .record [("Fn::GetAtt", .list [resource, name])]

/-- The name by which a resource is known outside its template. -/
def arn (resource : Value) : Value :=
  attributeOf resource (.text "Arn")

/-- Parts that are put together with a delimiter between them. -/
def joined (delimiter : Value) (parts : List Value) : Value :=
  .record [("Fn::Join", .list [delimiter, .list parts])]

/-- Parts that are put together with nothing between them. -/
def concat (parts : List Value) : Value :=
  joined (.text "") parts

/-- The name of something in this region of this account. -/
def localArn (service : String) (ending : Value) : Value :=
  concat [.text ("arn:aws:" ++ service ++ ":"), .shared .region, .text ":", .shared .accountId,
    ending]

/-- The name of a delivery stream, which has no attribute for it. -/
def deliveryStreamArn (stream : Value) : Value :=
  localArn "firehose" (.text (":deliverystream/" ++ stream.plain))

/-- A statement of a policy, with its effect. -/
def statementWith (effect action resource : Value) : Value :=
  .record [("Effect", effect), ("Action", action), ("Resource", resource)]

/-- A statement that allows an action on a resource. -/
def allow (action resource : Value) : Value :=
  statementWith (.text "Allow") action resource

/-- A policy with some statements. -/
def policy (statements : List Value) : Value :=
  .record [("Version", .text policyVersion), ("Statement", .list statements)]

/-- The policy under which a principal may take a role on, with a condition if it is not
empty. -/
def trust (principal action condition : Value) : Value :=
  let condition := if condition.truthy then [("Condition", condition)] else []
  policy [.record ([("Effect", .text "Allow"), ("Principal", principal), ("Action", action)] ++
    condition)]

/-- A role with further properties. A property of the name of the trust policy takes its
place. -/
def role (trusted : Value) (properties : List (Atom × Value)) : Value :=
  let own : Atom × Value := (.text "AssumeRolePolicyDocument", trusted)
  .record [
    ("Type", .text "AWS::IAM::Role"),
    ("Properties", .map (Entries.ofPairs Atom.same (own :: properties)))]

/-- A policy that is attached to a role of the same template. -/
def attachedPolicy (name role : Value) (statements : List Value) : Value :=
  .record [
    ("Type", .text "AWS::IAM::Policy"),
    ("Properties", .record [
      ("PolicyName", name),
      ("PolicyDocument", policy statements),
      ("Roles", .list [ref role])])]

/-- The role under which a topic rule publishes to the output topics. -/
def republishRole (topics : Value) : Value :=
  role (trust (.record [("Service", .texts ["iot.amazonaws.com"])]) (.texts ["sts:AssumeRole"])
      .null)
    [(.text "Policies", .list [.record [
      ("PolicyName", .text "publish"),
      ("PolicyDocument", policy [allow (.text "iot:Publish") (localArn "iot" topics)])]])]

/-- The output topics. -/
def outputTopics : Value := .text ":topic/Output/*"

/-- The name of the resource that a function is deployed as. -/
def functionResource (function : Value) : Value :=
  .text (function.plain ++ "LambdaFunction")

end CloudGraph.Fragment
