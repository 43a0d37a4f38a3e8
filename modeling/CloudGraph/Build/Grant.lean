import CloudGraph.Build.Project
import CloudGraph.Fragment.Basic

/-!
# Grants

What an edge to a node allows. `grant` is the statement that its kind and its id alone
fix; kinds that cannot be used in this way grant nothing. `Graph.statements` collects
the grants of a list of targets in order.
-/

namespace CloudGraph

open Fragment

/-- The statement that allows the use of a node. -/
def grant (kind : Kind) (target : Value) : Option Value :=
  match kind with
  | .bucket =>
    some (allow (.texts ["s3:GetObject", "s3:PutObject"]) (concat [arn target, .text "/*"]))
  | .table => some (allow (.texts ["dynamodb:GetItem", "dynamodb:PutItem"]) (arn target))
  | .api => some (allow (.text "execute-api:Invoke") (localArn "execute-api" (.text ":*/*/*/*")))
  | .stream => some (allow (.texts ["kinesis:PutRecord", "kinesis:PutRecords"]) (arn target))
  | .deliveryStream =>
    some (allow (.texts ["firehose:PutRecord", "firehose:PutRecordBatch"])
      (deliveryStreamArn target))
  | .topic => some (allow (.text "sns:Publish") (ref target))
  | .function =>
    some (allow (.texts ["lambda:InvokeFunction", "lambda:InvokeAsync"])
      (arn (functionResource target)))
  | .stepFunction =>
    some (allow
      (.texts [
        "states:DescribeExecution",
        "states:GetExecutionHistory",
        "states:ListExecutions",
        "states:StartExecution",
        "states:StopExecution"])
      (.list [ref target]))
  | .analyticsStream | .schedule | .identityPool | .topicRule => none

/-- The grants on some targets for a node, in order; targets that grant nothing are
passed over. -/
def Graph.statements (graph : Graph) (source : Value) : List Value → Plan (List Value)
  | [] => pure []
  | target :: targets => do
    Plan.note .debug .wiring ("Policy " ++ source.plain ++ " -> " ++ target.plain)
    let kind ← graph.kindOf target
    match grant kind target with
    | none =>
      Plan.note .debug .wiring ("Nothing to grant on " ++ target.plain)
      graph.statements source targets
    | some statement => return statement :: (← graph.statements source targets)

end CloudGraph
