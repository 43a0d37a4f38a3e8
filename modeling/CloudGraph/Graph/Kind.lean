import CloudGraph.Fault

/-!
# Kinds of nodes

The building blocks of an architecture. The name of a kind is what a model writes;
`Kind.ofName?_name` says that reading a name gives its kind back.
-/

namespace CloudGraph

/-- What a node stands for. -/
inductive Kind where
  | bucket
  | table
  | api
  | stream
  | deliveryStream
  | analyticsStream
  | schedule
  | topic
  | function
  | stepFunction
  | identityPool
  | topicRule
  deriving DecidableEq

namespace Kind

/-- The kinds, in the order in which they are listed. -/
def all : List Kind :=
  [.bucket, .table, .api, .stream, .deliveryStream, .analyticsStream, .schedule, .topic,
    .function, .stepFunction, .identityPool, .topicRule]

/-- The name of a kind in a model. -/
def name : Kind → String
  | .bucket => "bucket"
  | .table => "table"
  | .api => "api"
  | .stream => "stream"
  | .deliveryStream => "deliveryStream"
  | .analyticsStream => "analyticsStream"
  | .schedule => "schedule"
  | .topic => "topic"
  | .function => "fn"
  | .stepFunction => "stepFn"
  | .identityPool => "cognitoIdentity"
  | .topicRule => "iotRule"

/-- The kind of a name. -/
def ofName? (name : String) : Option Kind :=
  all.find? fun kind => kind.name == name

@[simp]
theorem ofName?_name (kind : Kind) : ofName? kind.name = some kind := by
  cases kind <;> decide +kernel

/-- The kind that a type field names. A scalar that names none is a defect of the
program, since it has a rule for every kind. -/
def ofValue (type : Value) : Except Fault Kind :=
  match type with
  | .atom (.text name) =>
    match ofName? name with
    | some kind => .ok kind
    | none => .error (.defect (.noRule type))
  | .atom _ => .error (.defect (.noRule type))
  | _ => .error .wrongKind

/-- Whether a type field names the kind. -/
def isNamedBy (kind : Kind) (type : Value) : Bool :=
  match type with
  | .atom (.text name) => name == kind.name
  | _ => false

end Kind

end CloudGraph
