import CloudGraph.Build.Trigger

/-!
# Registries of rules

A registry holds one rule for each node type. `Registry.standard` has a rule for every
kind. A type is registered once: `Registry.register` refuses a type that is there, and
after it the rule of the type is the new one.
-/

namespace CloudGraph

/-- The rule of a node type, as far as a registry tells: the type and what the names of
its inline events start with. -/
structure Rule where
  type : Atom
  eventPrefix : Option String
  deriving DecidableEq

/-- Rules under their types, in order of registration. -/
structure Registry where
  rules : Entries Atom Rule

namespace Registry

/-- The rule of a kind. -/
def ruleOf (kind : Kind) : Rule :=
  ⟨.text kind.name, eventPrefix? kind⟩

/-- A registry with a rule for every kind and no other. -/
def standard : Registry :=
  ⟨Kind.all.map fun kind => (.text kind.name, ruleOf kind)⟩

/-- The number of rules. -/
def size (registry : Registry) : Nat :=
  registry.rules.length

/-- The rule of a type. -/
def rule (registry : Registry) (type : Value) : Except Fault Rule :=
  match type with
  | .atom key =>
    match Entries.find? Atom.same registry.rules key with
    | some rule => .ok rule
    | none => .error (.defect (.noRule type))
  | _ => .error .wrongKind

/-- The registry with a rule for a new type. -/
def register (registry : Registry) (type : Value) : Except Fault Registry :=
  match type with
  | .atom key =>
    match Entries.find? Atom.same registry.rules key with
    | some _ => .error (.defect (.ruleRegisteredTwice type))
    | none => .ok ⟨Entries.put Atom.same registry.rules key ⟨key, none⟩⟩
  | _ => .error .wrongKind

end Registry

end CloudGraph
