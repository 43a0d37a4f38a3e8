import CloudGraph.Fragment.Basic

/-!
# Fragments by name

Building a fragment from its name and from arguments by position and by name. The
arguments have to fit the parameters: none missing, none twice and none unknown.
-/

namespace CloudGraph.Fragment

/-- A parameter, with its value when no argument is given for it. -/
structure Parameter where
  name : String
  default? : Option Value

/-- What arguments a fragment takes. -/
structure Parameters where
  /-- The parameters that an argument is given for by position or by name. -/
  named : List Parameter
  /-- Whether arguments by position are collected instead. -/
  collects : Bool
  /-- Whether further arguments by name are collected. -/
  extends? : Bool

/-- Arguments in the places of their parameters. -/
structure Bound where
  values : List Value
  collected : List Value
  extra : List (Atom × Value)

/-- The value of one parameter, given the argument at its position if there is one. -/
def bindOne (parameter : Parameter) (position? : Option Value) (named : List (Atom × Value)) :
    Except Fault Value :=
  match position?, Entries.find? Atom.same named (.text parameter.name) with
  | some value, none => .ok value
  | none, some value => .ok value
  | some _, some _ => .error .wrongKind
  | none, none =>
    match parameter.default? with
    | some value => .ok value
    | none => .error .wrongKind

/-- The values of parameters in order, given the arguments from the first of them on. -/
def bindAll : List Parameter → List Value → List (Atom × Value) → Except Fault (List Value)
  | [], [], _ => .ok []
  | [], _ :: _, _ => .error .wrongKind
  | parameter :: parameters, arguments, named => do
    let value ← bindOne parameter arguments.head? named
    return value :: (← bindAll parameters arguments.tail named)

/-- Puts arguments in the places of the parameters. -/
def Parameters.bind (parameters : Parameters) (arguments : List Value)
    (named : List (Atom × Value)) : Except Fault Bound := do
  let names := parameters.named.map (·.name)
  let isKnown (entry : Atom × Value) : Bool :=
    match entry.1 with
    | .text name => names.contains name
    | _ => false
  let extra := named.filter fun entry => !isKnown entry
  if !extra.isEmpty && !parameters.extends? then throw .wrongKind
  let (collected, placed) := if parameters.collects then (arguments, []) else ([], arguments)
  let values ← bindAll parameters.named placed named
  return ⟨values, collected, extra⟩

/-- A parameter that needs an argument. -/
def required (name : String) : Parameter := ⟨name, none⟩

/-- A parameter with a default. -/
def optional (name : String) (value : Value) : Parameter := ⟨name, some value⟩

/-- Parameters that are all named. -/
def fixed (named : List Parameter) : Parameters := ⟨named, false, false⟩

/-- The elements of a list of statements; an empty value stands for none. -/
def statementsOf (value : Value) : Except Fault (List Value) :=
  if value.truthy then
    match value.elements? with
    | some elements => .ok elements
    | none => .error .wrongKind
  else .ok []

/-- Builds the fragment of a name. -/
def call (name : String) (arguments : List Value) (named : List (Atom × Value)) :
    Except Fault Value := do
  let bind (parameters : Parameters) := parameters.bind arguments named
  match name with
  | "ref" =>
    match (← bind (fixed [required "name"])).values with
    | [target] => return ref target
    | _ => throw .wrongKind
  | "get_att" =>
    match (← bind (fixed [required "name", optional "attribute" (.text "Arn")])).values with
    | [resource, part] => return attributeOf resource part
    | _ => throw .wrongKind
  | "join" =>
    let bound ← bind ⟨[optional "delimiter" (.text "")], true, false⟩
    match bound.values with
    | [delimiter] => return joined delimiter bound.collected
    | _ => throw .wrongKind
  | "account_region_arn" =>
    match (← bind (fixed [required "service", required "suffix"])).values with
    | [service, ending] => return localArn service.plain ending
    | _ => throw .wrongKind
  | "firehose_arn" =>
    match (← bind (fixed [required "stream_id"])).values with
    | [stream] => return deliveryStreamArn stream
    | _ => throw .wrongKind
  | "statement" =>
    let parameters := [required "action", required "resource", optional "effect" (.text "Allow")]
    match (← bind (fixed parameters)).values with
    | [action, resource, effect] => return statementWith effect action resource
    | _ => throw .wrongKind
  | "policy_document" =>
    match (← bind (fixed [optional "statements" .null])).values with
    | [statements] => return policy (← statementsOf statements)
    | _ => throw .wrongKind
  | "assume_role_document" =>
    let parameters := [required "principal", optional "action" (.text "sts:AssumeRole"),
      optional "condition" .null]
    match (← bind (fixed parameters)).values with
    | [principal, action, condition] => return trust principal action condition
    | _ => throw .wrongKind
  | "role" =>
    let bound ← bind ⟨[required "assume_role_policy"], false, true⟩
    match bound.values with
    | [trusted] => return role trusted bound.extra
    | _ => throw .wrongKind
  | "role_policy" =>
    let parameters := [required "policy_name", required "role_id", required "statements"]
    match (← bind (fixed parameters)).values with
    | [policyName, roleId, statements] =>
      return attachedPolicy policyName roleId (← statementsOf statements)
    | _ => throw .wrongKind
  | "republish_role" =>
    match (← bind (fixed [optional "topic_arn_suffix" outputTopics])).values with
    | [topics] => return republishRole topics
    | _ => throw .wrongKind
  | _ => throw .noSuchOperation

end CloudGraph.Fragment
